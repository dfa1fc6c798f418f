import LieScribe.Program.Sharing
import LieScribe.Proofs.Expr
import LieScribe.Proofs.Sharing.Names
import Mathlib.Data.List.Induction

/-!
# Expanding shared expressions

The walk that replaces repeated expressions only appends to the list of
temporaries, and what it returns mentions no temporary that is not on the list
yet.  So an expression, once replaced, keeps its expansion while the walk goes on.

The main statement, `Hoisted.replaceAll_expands`, is about any relation between an
expansion and the expression it stands for that holds of atoms, passes from
arguments to operations, and allows one expression to take the place of an equal
one.  Every such relation holds between the expansion of the result and the
outputs.
-/

namespace LieScribe

namespace Expr

theorem isShareable_eq_of_same {left right : Expr}
    (same : left.same right = true) :
    left.isShareable = right.isShareable := by
  cases left with
  | op operation arguments =>
      obtain ⟨arguments', rfl, pairwise⟩ := same_op_iff.mp same
      have atoms : arguments.all isAtom = arguments'.all isAtom := by
        induction pairwise with
        | nil =>
            rfl
        | cons headSame _ inductionHypothesis =>
            have tails := inductionHypothesis (same_op_iff.mpr ⟨_, rfl, ‹_›⟩)
            simp [isAtom_eq_of_same headSame, tails]
      cases operation <;> simp [isShareable, atoms]
  | symbol leaf =>
      cases right <;> simp_all [Expr.same, isShareable]
  | literal constant =>
      cases right <;> simp_all [Expr.same, isShareable]

theorem same_eq_false_of_isShareable {expr other : Expr} (worthless : expr.isShareable = false)
    (shareable : other.isShareable = true) : expr.same other = false := by
  rw [Bool.eq_false_iff]
  intro same
  rw [isShareable_eq_of_same same, shareable] at worthless
  cases worthless

theorem isAtom_of_isShareable {expr : Expr} (shareable : expr.isShareable = true) :
    expr.isAtom = false := by
  cases expr with
  | op operation arguments => rfl
  | symbol leaf => cases shareable
  | literal constant => cases shareable

theorem isShareable_op_iff {operation : Operation} {arguments : List Expr} :
    (op operation arguments).isShareable = true ↔
      (operation = .neg → ∃ argument ∈ arguments, argument.isAtom = false) := by
  cases operation <;> simp [isShareable]

theorem isAtom_of_not_isShareable {operation : Operation} {arguments : List Expr}
    (worthless : (op operation arguments).isShareable = false) :
    ∀ argument ∈ arguments, argument.isAtom = true := by
  intro argument member
  by_contra notAtom
  rw [Bool.not_eq_true] at notAtom
  rw [isShareable_op_iff.mpr fun _ => ⟨argument, member, notAtom⟩] at worthless
  cases worthless

/-- What has an argument that is worth sharing is itself worth sharing. -/
theorem isShareable_op_of_mem {operation : Operation} {arguments : List Expr} {argument : Expr}
    (member : argument ∈ arguments) (shareable : argument.isShareable = true) :
    (op operation arguments).isShareable = true := by
  exact isShareable_op_iff.mpr fun _ => ⟨argument, member, isAtom_of_isShareable shareable⟩

end Expr

namespace Survey

/-- Everything that is met again is worth sharing. -/
def RepeatsShareable (survey : Survey) : Prop :=
  ∀ expr ∈ survey.repeated, expr.isShareable = true

theorem repeatsShareable_visitAll {exprs : List Expr}
    (each : ∀ expr ∈ exprs, ∀ survey : Survey,
      survey.RepeatsShareable → (survey.visit expr).RepeatsShareable)
    {survey : Survey} (shareable : survey.RepeatsShareable) :
    (survey.visitAll exprs).RepeatsShareable := by
  induction exprs generalizing survey with
  | nil =>
      exact shareable
  | cons expr others inductionHypothesis =>
      rw [visitAll]
      apply inductionHypothesis
      · intro other member
        exact each other (List.mem_cons_of_mem _ member)
      · exact each expr List.mem_cons_self survey shareable

theorem repeatsShareable_visit (expr : Expr) {survey : Survey}
    (shareable : survey.RepeatsShareable) :
    (survey.visit expr).RepeatsShareable := by
  induction expr generalizing survey with
  | symbol leaf =>
      exact shareable
  | literal constant =>
      exact shareable
  | op operation arguments each =>
      simp only [visit]
      split
      · exact shareable
      · rename_i worthSharing
        split
        · intro expr member
          rcases List.mem_cons.mp member with rfl | earlier
          · simpa using worthSharing
          · exact shareable expr earlier
        · apply repeatsShareable_visitAll
          · intro argument member survey shareable
            exact each argument member shareable
          · exact shareable

theorem isShareable_of_memberOf_repeatedIn {outputs : List Expr} {expr : Expr}
    (again : expr.memberOf (repeatedIn outputs) = true) :
    expr.isShareable = true := by
  obtain ⟨met, metAgain, same⟩ := Expr.memberOf_iff.mp again
  have shareable : (empty.visitAll outputs).RepeatsShareable := by
    apply repeatsShareable_visitAll
    · intro output _ survey shareable
      exact repeatsShareable_visit output shareable
    · intro expr member
      exact absurd member List.not_mem_nil
  rw [← Expr.isShareable_eq_of_same same]
  exact shareable met metAgain

end Survey

namespace Hoisted

variable {naming : Naming} {repeated : List Expr}

/-! ## What one step of the walk does -/

theorem replaceAll_cons (expr : Expr) (others : List Expr)
    (hoisted : List Hoisted) :
    replaceAll naming repeated (expr :: others) hoisted =
      ((replace naming repeated expr hoisted).1 ::
          (replaceAll naming repeated others
            (replace naming repeated expr hoisted).2).1,
        (replaceAll naming repeated others
          (replace naming repeated expr hoisted).2).2) := rfl

/-- An operation has a temporary already, or gets one after its arguments were
replaced, or is rebuilt from its replaced arguments. -/
theorem replace_op_cases (naming : Naming) (repeated : List Expr)
    (operation : Operation) (arguments : List Expr) (hoisted : List Hoisted) :
    (∃ position,
      position? hoisted (.op operation arguments) = some position ∧
        replace naming repeated (.op operation arguments) hoisted =
          (.symbol (naming.temporary position), hoisted)) ∨
    (Expr.memberOf (.op operation arguments) repeated = true ∧
      replace naming repeated (.op operation arguments) hoisted =
        (.symbol (naming.temporary
            (replaceAll naming repeated arguments hoisted).2.length),
          (replaceAll naming repeated arguments hoisted).2 ++
            [⟨.op operation arguments,
              .op operation
                (replaceAll naming repeated arguments hoisted).1⟩])) ∨
    (Expr.memberOf (.op operation arguments) repeated = false ∧
      replace naming repeated (.op operation arguments) hoisted =
        (.op operation (replaceAll naming repeated arguments hoisted).1,
          (replaceAll naming repeated arguments hoisted).2)) := by
  cases known : position? hoisted (.op operation arguments) with
  | some position =>
      exact .inl ⟨position, rfl, by simp [replace, known]⟩
  | none =>
      cases again : Expr.memberOf (.op operation arguments) repeated with
      | true =>
          exact .inr (.inl ⟨rfl, by simp [replace, known, again]⟩)
      | false =>
          exact .inr (.inr ⟨rfl, by simp [replace, known, again]⟩)

/-- The walk only appends temporaries. -/
theorem replaceAll_grows {exprs : List Expr}
    (each : ∀ expr ∈ exprs, ∀ hoisted,
      hoisted <+: (replace naming repeated expr hoisted).2)
    (hoisted : List Hoisted) :
    hoisted <+: (replaceAll naming repeated exprs hoisted).2 := by
  induction exprs generalizing hoisted with
  | nil =>
      exact List.prefix_rfl
  | cons expr others inductionHypothesis =>
      rw [replaceAll_cons]
      have first := each expr List.mem_cons_self hoisted
      have rest := inductionHypothesis
        (fun other member => each other (List.mem_cons_of_mem _ member))
        (replace naming repeated expr hoisted).2
      exact first.trans rest

theorem replace_grows (expr : Expr) (hoisted : List Hoisted) :
    hoisted <+: (replace naming repeated expr hoisted).2 := by
  induction expr generalizing hoisted with
  | symbol leaf =>
      exact List.prefix_rfl
  | literal constant =>
      exact List.prefix_rfl
  | op operation arguments each =>
      have argumentsGrow := replaceAll_grows each hoisted
      rcases replace_op_cases naming repeated operation arguments hoisted with
        ⟨position, _, result⟩ | ⟨_, result⟩ | ⟨_, result⟩
      · have unchanged : (replace naming repeated (.op operation arguments) hoisted).2 = hoisted := by
          rw [result]
        exact unchanged.symm ▸ List.prefix_rfl
      · rw [result]
        exact argumentsGrow.trans (List.prefix_append _ _)
      · rw [result]
        exact argumentsGrow

/-! ## Expansions -/

/-- What the temporaries of a list stand for. -/
def expansions (naming : Naming) (hoisted : List Hoisted) : Bindings Expr :=
  (temporaries naming hoisted).foldl Program.expandOne Bindings.empty

/-- An expression with the temporaries of a list expanded. -/
def expanded (naming : Naming) (hoisted : List Hoisted) (expr : Expr) : Expr :=
  expr.substitute (expansions naming hoisted)

/-- Every temporary that the expression mentions is on the list. -/
def Settled (naming : Naming) (hoisted : List Hoisted) (expr : Expr) : Prop :=
  ∀ position, naming.temporary position ∈ expr.symbols →
    position < hoisted.length

theorem temporaries_concat (hoisted : List Hoisted) (entry : Hoisted) :
    temporaries naming (hoisted ++ [entry]) =
      temporaries naming hoisted ++
        [⟨naming.temporary hoisted.length, entry.definition⟩] := by
  simp [temporaries, List.zipIdx_append]

theorem expansions_concat (hoisted : List Hoisted) (entry : Hoisted) :
    expansions naming (hoisted ++ [entry]) =
      (expansions naming hoisted).bind (naming.temporary hoisted.length)
        (expanded naming hoisted entry.definition) := by
  simp [expansions, temporaries_concat, expanded, Program.expandOne]

theorem get?_expansions_concat (hoisted : List Hoisted) (entry : Hoisted)
    (symbol : Symbol) :
    (expansions naming (hoisted ++ [entry])).get? symbol =
      if symbol = naming.temporary hoisted.length then
        some (expanded naming hoisted entry.definition)
      else
        (expansions naming hoisted).get? symbol := by
  rw [expansions_concat, Bindings.get?_bind]

theorem get?_expansions_of_ne_temporary (hoisted : List Hoisted)
    {symbol : Symbol}
    (different : ∀ position, symbol ≠ naming.temporary position) :
    (expansions naming hoisted).get? symbol = none := by
  induction hoisted using List.reverseRecOn with
  | nil =>
      rfl
  | append_singleton hoisted entry inductionHypothesis =>
      rw [get?_expansions_concat, if_neg (different hoisted.length)]
      exact inductionHypothesis

@[simp]
theorem expanded_op (hoisted : List Hoisted) (operation : Operation)
    (arguments : List Expr) :
    expanded naming hoisted (.op operation arguments) =
      .op operation (arguments.map (expanded naming hoisted)) := by
  rw [expanded, Expr.substitute_op]
  rfl

theorem expanded_temporary {hoisted : List Hoisted} {position : Nat}
    {expansion : Expr}
    (known : (expansions naming hoisted).get? (naming.temporary position) =
      some expansion) :
    expanded naming hoisted (.symbol (naming.temporary position)) =
      expansion := by
  simp [expanded, known]

theorem expanded_symbol_of_unreserved (hoisted : List Hoisted) {leaf : Symbol}
    (unreserved : naming.Unreserved (.symbol leaf)) :
    expanded naming hoisted (.symbol leaf) = .symbol leaf := by
  have free := get?_expansions_of_ne_temporary hoisted
    (unreserved.ne_temporary (Expr.mem_symbols_symbol.mpr rfl))
  simp [expanded, free]

theorem settled_of_unreserved {hoisted : List Hoisted} {expr : Expr}
    (unreserved : naming.Unreserved expr) :
    Settled naming hoisted expr := by
  intro position mentioned
  exact absurd rfl (unreserved.ne_temporary mentioned position)

theorem settled_op_iff {hoisted : List Hoisted} {operation : Operation}
    {arguments : List Expr} :
    Settled naming hoisted (.op operation arguments) ↔
      ∀ argument ∈ arguments, Settled naming hoisted argument := by
  simp only [Settled, Expr.mem_symbols_op]
  grind

theorem settled_temporary_iff {hoisted : List Hoisted} {position : Nat} :
    Settled naming hoisted (.symbol (naming.temporary position)) ↔
      position < hoisted.length := by
  simp [Settled]

theorem Settled.mono {shorter longer : List Hoisted} {expr : Expr}
    (settled : Settled naming shorter expr) (grows : shorter <+: longer) :
    Settled naming longer expr := by
  intro position mentioned
  exact Nat.lt_of_lt_of_le (settled position mentioned) grows.length_le

/-- The expansion of a settled expression does not change any more. -/
theorem Settled.expanded_eq {shorter longer : List Hoisted} {expr : Expr}
    (settled : Settled naming shorter expr) (grows : shorter <+: longer) :
    expanded naming longer expr = expanded naming shorter expr := by
  obtain ⟨more, rfl⟩ := grows
  induction more using List.reverseRecOn with
  | nil =>
      rw [List.append_nil]
  | append_singleton more entry inductionHypothesis =>
      rw [← inductionHypothesis, ← List.append_assoc]
      apply Expr.substitute_congr
      intro symbol mentioned
      rw [get?_expansions_concat, if_neg]
      rintro rfl
      have early := settled _ mentioned
      rw [List.length_append] at early
      omega

/-! ## Relations that sharing respects -/

/-- A relation between an expansion and the expression that it stands for.  It
holds of atoms, passes from arguments to operations, and is kept when a shared
expression takes the place of an equal one. -/
structure Respects (outputs : List Expr) (relates : Expr → Expr → Prop) :
    Prop where
  atom : ∀ expr : Expr, expr.isAtom = true → relates expr expr
  op : ∀ (operation : Operation) {expansions arguments : List Expr},
    List.Forall₂ relates expansions arguments →
      relates (.op operation expansions) (.op operation arguments)
  merge : ∀ {expansion source expr : Expr},
    Expr.Occurs outputs source → Expr.Occurs outputs expr →
      source.isShareable = true → source.same expr = true →
        relates expansion source → relates expansion expr

/-- Each temporary of a list mentions earlier ones only, and its expansion stands
for an expression of the outputs that is worth sharing. -/
inductive Sound (naming : Naming) (outputs : List Expr)
    (relates : Expr → Expr → Prop) : List Hoisted → Prop where
  | nil : Sound naming outputs relates []
  | concat {hoisted : List Hoisted} {source definition : Expr} :
      Sound naming outputs relates hoisted →
      Expr.Occurs outputs source →
      source.isShareable = true →
      Settled naming hoisted definition →
      relates (expanded naming hoisted definition) source →
      Sound naming outputs relates (hoisted ++ [⟨source, definition⟩])

/-- An expression and its replacement, with the temporaries there are now. -/
structure Expands (naming : Naming) (relates : Expr → Expr → Prop)
    (hoisted : List Hoisted) (replacement expr : Expr) : Prop where
  settled : Settled naming hoisted replacement
  relates : relates (expanded naming hoisted replacement) expr

section Walk

variable {outputs : List Expr} {relates : Expr → Expr → Prop}

theorem Expands.mono {shorter longer : List Hoisted} {replacement expr : Expr}
    (expands : Expands naming relates shorter replacement expr)
    (grows : shorter <+: longer) :
    Expands naming relates longer replacement expr :=
  ⟨expands.settled.mono grows, by
    rw [expands.settled.expanded_eq grows]
    exact expands.relates⟩

/-- The temporary at a position stands for the expression that got it. -/
theorem Sound.exists_expansion {hoisted : List Hoisted}
    (sound : Sound naming outputs relates hoisted) {position : Nat}
    {entry : Hoisted} (found : hoisted[position]? = some entry) :
    ∃ expansion,
      (expansions naming hoisted).get? (naming.temporary position) =
          some expansion ∧
        relates expansion entry.source ∧
          Expr.Occurs outputs entry.source ∧
            entry.source.isShareable = true := by
  induction sound with
  | nil =>
      simp at found
  | @concat hoisted source definition _ occurs shareable _ related
      inductionHypothesis =>
      rw [get?_expansions_concat]
      by_cases last : position = hoisted.length
      · subst last
        have entryEq : ⟨source, definition⟩ = entry := by simpa using found
        subst entryEq
        exact ⟨_, if_pos rfl, related, occurs, shareable⟩
      · have earlier : hoisted[position]? = some entry := by
          rw [List.getElem?_append] at found
          split at found
          · exact found
          · rw [List.getElem?_singleton] at found
            split at found
            · omega
            · cases found
        rw [if_neg (by simpa using last)]
        exact inductionHypothesis earlier

/-- Putting a known temporary in the place of an equal expression. -/
theorem Sound.expands_of_position? {hoisted : List Hoisted}
    (sound : Sound naming outputs relates hoisted)
    (respects : Respects outputs relates) {expr : Expr}
    (occurs : Expr.Occurs outputs expr) {position : Nat}
    (known : position? hoisted expr = some position) :
    Expands naming relates hoisted
      (.symbol (naming.temporary position)) expr := by
  obtain ⟨inBounds, same, _⟩ := List.findIdx?_eq_some_iff_getElem.mp known
  obtain ⟨expansion, bound, related, sourceOccurs, shareable⟩ :=
    sound.exists_expansion (List.getElem?_eq_getElem inBounds)
  refine ⟨settled_temporary_iff.mpr inBounds, ?_⟩
  rw [expanded_temporary bound]
  exact respects.merge sourceOccurs occurs shareable same related

theorem replaceAll_expands_of_forall {exprs : List Expr}
    (each : ∀ expr ∈ exprs, ∀ hoisted,
      Sound naming outputs relates hoisted →
        Sound naming outputs relates (replace naming repeated expr hoisted).2 ∧
          Expands naming relates (replace naming repeated expr hoisted).2
            (replace naming repeated expr hoisted).1 expr)
    {hoisted : List Hoisted} (sound : Sound naming outputs relates hoisted) :
    Sound naming outputs relates
        (replaceAll naming repeated exprs hoisted).2 ∧
      List.Forall₂
        (Expands naming relates (replaceAll naming repeated exprs hoisted).2)
        (replaceAll naming repeated exprs hoisted).1 exprs := by
  induction exprs generalizing hoisted with
  | nil =>
      exact ⟨sound, .nil⟩
  | cons expr others inductionHypothesis =>
      rw [replaceAll_cons]
      obtain ⟨firstSound, firstExpands⟩ :=
        each expr List.mem_cons_self hoisted sound
      obtain ⟨restSound, restExpands⟩ :=
        inductionHypothesis
          (fun other member => each other (List.mem_cons_of_mem _ member))
          firstSound
      have grows :
          (replace naming repeated expr hoisted).2 <+:
            (replaceAll naming repeated others
              (replace naming repeated expr hoisted).2).2 :=
        replaceAll_grows (fun other _ => replace_grows other) _
      exact ⟨restSound, .cons (firstExpands.mono grows) restExpands⟩

theorem replace_expands (respects : Respects outputs relates)
    (shareable : ∀ expr : Expr, expr.memberOf repeated = true →
      expr.isShareable = true)
    {expr : Expr} (occurs : Expr.Occurs outputs expr)
    (unreserved : naming.Unreserved expr) {hoisted : List Hoisted}
    (sound : Sound naming outputs relates hoisted) :
    Sound naming outputs relates (replace naming repeated expr hoisted).2 ∧
      Expands naming relates (replace naming repeated expr hoisted).2
        (replace naming repeated expr hoisted).1 expr := by
  induction expr generalizing hoisted with
  | symbol leaf =>
      refine ⟨sound, settled_of_unreserved unreserved, ?_⟩
      rw [replace, expanded_symbol_of_unreserved _ unreserved]
      exact respects.atom _ rfl
  | literal constant =>
      exact ⟨sound, settled_of_unreserved unreserved, respects.atom _ rfl⟩
  | op operation arguments each =>
      obtain ⟨argumentsSound, argumentsExpand⟩ :=
        replaceAll_expands_of_forall
          (fun argument member _ sound =>
            each argument member (occurs.argument member)
              (fun symbol mentioned => unreserved symbol
                (Expr.mem_symbols_op.mpr ⟨argument, member, mentioned⟩))
              sound)
          sound
      have rebuilt :
          Expands naming relates
            (replaceAll naming repeated arguments hoisted).2
            (.op operation (replaceAll naming repeated arguments hoisted).1)
            (.op operation arguments) := by
        obtain ⟨settled, related⟩ := (List.forall₂_and_left _ _).mp
          (argumentsExpand.imp fun _ _ expands =>
            ⟨expands.settled, expands.relates⟩)
        refine ⟨settled_op_iff.mpr settled, ?_⟩
        rw [expanded_op]
        exact respects.op operation (List.forall₂_map_left_iff.mpr related)
      rcases replace_op_cases naming repeated operation arguments hoisted with
        ⟨position, known, result⟩ | ⟨again, result⟩ | ⟨_, result⟩
      · rw [result]
        exact ⟨sound, sound.expands_of_position? respects occurs known⟩
      · rw [result]
        have extended := Sound.concat argumentsSound occurs
          (shareable _ again) rebuilt.settled rebuilt.relates
        refine ⟨extended, settled_temporary_iff.mpr (by simp), ?_⟩
        rw [expanded_temporary
          ((get?_expansions_concat _ _ _).trans (if_pos rfl))]
        exact rebuilt.relates
      · rw [result]
        exact ⟨argumentsSound, rebuilt⟩

/-- The replaced outputs expand to the outputs, up to any relation that sharing
respects, and every temporary to an expression in them. -/
theorem replaceAll_expands (respects : Respects outputs relates)
    (unreserved : ∀ output ∈ outputs, naming.Unreserved output) :
    Sound naming outputs relates
        (replaceAll naming (Survey.repeatedIn outputs) outputs []).2 ∧
      List.Forall₂
        (Expands naming relates
          (replaceAll naming (Survey.repeatedIn outputs) outputs []).2)
        (replaceAll naming (Survey.repeatedIn outputs) outputs []).1
        outputs :=
  replaceAll_expands_of_forall
    (fun output member _ sound =>
      replace_expands respects
        (fun _ => Survey.isShareable_of_memberOf_repeatedIn)
        (.root member) (unreserved output member) sound)
    .nil

end Walk

end Hoisted

namespace Program

variable {naming : Naming}

theorem expansions_shared (outputs : List Expr) :
    (shared naming outputs).expansions =
      Hoisted.expansions naming
        (Hoisted.replaceAll naming (Survey.repeatedIn outputs) outputs []).2 :=
  rfl

/-- Expanding a shared program gives its outputs back, up to any relation that
sharing respects. -/
theorem forall₂_inline_shared {outputs : List Expr}
    {relates : Expr → Expr → Prop} (respects : Hoisted.Respects outputs relates)
    (unreserved : ∀ output ∈ outputs, naming.Unreserved output) :
    List.Forall₂ relates (shared naming outputs).inline outputs := by
  obtain ⟨_, expands⟩ := Hoisted.replaceAll_expands respects unreserved
  rw [inline, expansions_shared, List.forall₂_map_left_iff]
  exact expands.imp fun _ _ expands => expands.relates

/-- A request that is shared under the names of its inputs passed its check. -/
theorem share_eq_ok_iff {inputs : List Symbol} {outputs : List Expr}
    {program : Program} (inputsNamed : naming.linear = false) :
    share naming inputs outputs = .ok program ↔
      naming.checkRequest inputs outputs = .ok () ∧
        shared naming outputs = program := by
  simp only [share, Outcome.bind_eq_ok_iff, Outcome.pure_eq_ok_iff, arrange,
    inputsNamed, Bool.false_eq_true, if_false]
  constructor
  · rintro ⟨_, checked, result⟩
    exact ⟨checked, result⟩
  · rintro ⟨checked, result⟩
    exact ⟨(), checked, result⟩

end Program

end LieScribe
