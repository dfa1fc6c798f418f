import LieScribe.Proofs.Sharing.Faithful

/-!
# The two walks of sharing, side by side

The survey notes an expression when it comes to it, and the replacement gives it a
temporary only after its arguments; yet both walk into the same expressions.  An
expression that the survey meets again is not inside itself, so by then the replacement
has left it and made its temporary.

`Hoisted.Walks` describes both walks over a list of expressions at once, and
`Hoisted.walks_outputs` shows that the walks over the outputs of a request are of this
kind.  What is said about shared programs is then shown by induction on `Walks`.
-/

namespace LieScribe

namespace Survey

/-- What one step of the survey does at an operation. -/
theorem visitAll_op (survey : Survey) (operation : Operation) (arguments others : List Expr) :
    survey.visitAll (.op operation arguments :: others) =
      if Expr.isShareable (.op operation arguments) = false then
        survey.visitAll others
      else if Expr.memberOf (.op operation arguments) survey.seen = true then
        visitAll { survey with repeated := .op operation arguments :: survey.repeated } others
      else
        (visitAll { survey with seen := .op operation arguments :: survey.seen }
          arguments).visitAll others := by
  rw [visitAll, visit]
  cases Expr.isShareable (.op operation arguments) with
  | false => rfl
  | true =>
      cases Expr.memberOf (.op operation arguments) survey.seen <;> rfl

theorem visitAll_atom (survey : Survey) {expr : Expr} (atom : expr.isAtom = true)
    (others : List Expr) : survey.visitAll (expr :: others) = survey.visitAll others := by
  cases expr with
  | symbol leaf => rfl
  | literal constant => rfl
  | op operation arguments => cases atom

/-- The survey only adds to both of its lists. -/
theorem visitAll_grows (survey : Survey) (exprs : List Expr) :
    survey.seen ⊆ (survey.visitAll exprs).seen ∧
      survey.repeated ⊆ (survey.visitAll exprs).repeated := by
  induction exprs using Expr.forestInduct generalizing survey with
  | nil => exact ⟨List.Subset.refl _, List.Subset.refl _⟩
  | atom expr others atom ofOthers =>
      rw [visitAll_atom survey atom]
      exact ofOthers survey
  | op operation arguments others ofArguments ofOthers =>
      rw [visitAll_op]
      split
      · exact ofOthers survey
      · split
        · obtain ⟨seen, repeated⟩ := ofOthers
            { survey with repeated := .op operation arguments :: survey.repeated }
          exact ⟨seen, fun _ member => repeated (List.mem_cons_of_mem _ member)⟩
        · obtain ⟨seenBelow, repeatedBelow⟩ := ofArguments
            { survey with seen := .op operation arguments :: survey.seen }
          obtain ⟨seen, repeated⟩ := ofOthers
            (visitAll { survey with seen := .op operation arguments :: survey.seen } arguments)
          exact ⟨fun _ member => seen (seenBelow (List.mem_cons_of_mem _ member)),
            fun _ member => repeated (repeatedBelow member)⟩

end Survey

namespace Hoisted

variable {naming : Naming} {repeated : List Expr}

/-- How far the two walks have come. -/
structure Progress where
  survey : Survey
  hoisted : List Hoisted

/-- Where an operation goes after its arguments were replaced: it stays in its place, or
gets a temporary if it will be met again. -/
inductive Places (naming : Naming) (repeated : List Expr) (source definition : Expr)
    (hoisted : List Hoisted) : Expr → List Hoisted → Prop where
  | stays : source.memberOf repeated = false →
      Places naming repeated source definition hoisted definition hoisted
  | moves : source.memberOf repeated = true →
      Places naming repeated source definition hoisted
        (.symbol (naming.temporary hoisted.length)) (hoisted ++ [⟨source, definition⟩])

/-- Both walks over a list of expressions at once.  The last list is what the
expressions are replaced by, given all that the whole survey finds `repeated`. -/
inductive Walks (naming : Naming) (repeated : List Expr) :
    List Expr → Progress → Progress → List Expr → Prop where
  | done (progress : Progress) :
      Walks naming repeated [] progress progress []
  /-- Nothing worth sharing is kept as it stands. -/
  | passed {expr : Expr} {others replaced : List Expr} {before after : Progress} :
      expr.isShareable = false →
      Walks naming repeated others before after replaced →
      Walks naming repeated (expr :: others) before after (expr :: replaced)
  /-- What was met before has a temporary by now. -/
  | met {expr : Expr} {others replaced : List Expr} {before after : Progress}
      {position : Nat} :
      expr.isShareable = true →
      expr.memberOf before.survey.seen = true →
      position? before.hoisted expr = some position →
      Walks naming repeated others
        ⟨⟨before.survey.seen, expr :: before.survey.repeated⟩, before.hoisted⟩ after replaced →
      Walks naming repeated (expr :: others) before after
        (.symbol (naming.temporary position) :: replaced)
  /-- What is met for the first time is walked into. -/
  | entered {operation : Operation} {arguments arguments' others replaced : List Expr}
      {replacement : Expr} {hoisted : List Hoisted} {before middle after : Progress} :
      Expr.isShareable (.op operation arguments) = true →
      Expr.memberOf (.op operation arguments) before.survey.seen = false →
      Walks naming repeated arguments
        ⟨⟨.op operation arguments :: before.survey.seen, before.survey.repeated⟩, before.hoisted⟩
        middle arguments' →
      Places naming repeated (.op operation arguments) (.op operation arguments')
        middle.hoisted replacement hoisted →
      Walks naming repeated others ⟨middle.survey, hoisted⟩ after replaced →
      Walks naming repeated (.op operation arguments :: others) before after
        (replacement :: replaced)

/-! ## The two walks keep in step -/

theorem exists_position?_iff {hoisted : List Hoisted} {expr : Expr} :
    (∃ position, position? hoisted expr = some position) ↔
      ∃ entry ∈ hoisted, entry.source.same expr = true := by
  rw [← Option.isSome_iff_exists, position?, List.findIdx?_isSome, List.any_eq_true]

theorem position?_eq_none_iff {hoisted : List Hoisted} {expr : Expr} :
    position? hoisted expr = none ↔
      ∀ entry ∈ hoisted, ¬ entry.source.same expr = true := by
  rw [position?, List.findIdx?_eq_none_iff]
  simp

theorem replaceAll_atoms {exprs : List Expr} (atoms : ∀ expr ∈ exprs, expr.isAtom = true)
    (hoisted : List Hoisted) : replaceAll naming repeated exprs hoisted = (exprs, hoisted) := by
  induction exprs with
  | nil => rfl
  | cons expr others inductionHypothesis =>
      rw [List.forall_mem_cons] at atoms
      cases expr with
      | symbol leaf =>
          rw [replaceAll_cons, replace, inductionHypothesis atoms.2]
      | literal constant =>
          rw [replaceAll_cons, replace, inductionHypothesis atoms.2]
      | op operation arguments => cases atoms.1

/-- The state in which the walks keep in step.  No two expressions seen are the same, and
no two temporaries are for the same one.  What will be met again has its temporary, except
for the `pending` expressions, whose arguments are being walked over. -/
structure InStep (repeated pending : List Expr) (progress : Progress) : Prop where
  shareable : ∀ expr ∈ progress.survey.seen, expr.isShareable = true
  unique : progress.survey.seen.Pairwise fun left right => left.same right = false
  known : ∀ entry ∈ progress.hoisted, entry.source.memberOf progress.survey.seen = true
  again : ∀ entry ∈ progress.hoisted, entry.source.memberOf repeated = true
  distinct : progress.hoisted.Pairwise fun left right => left.source.same right.source = false
  finished : ∀ expr ∈ progress.survey.seen, expr.memberOf repeated = true →
    expr ∈ pending ∨ ∃ entry ∈ progress.hoisted, entry.source.same expr = true
  waiting : ∀ expr ∈ pending, ∀ entry ∈ progress.hoisted, entry.source.same expr = false

theorem InStep.exists_position? {pending : List Expr} {progress : Progress}
    (inStep : InStep repeated pending progress) {expr : Expr}
    (seen : expr.memberOf progress.survey.seen = true)
    (again : expr.memberOf repeated = true)
    (smaller : ∀ waiting ∈ pending, expr.nodeCount < waiting.nodeCount) :
    ∃ position, position? progress.hoisted expr = some position := by
  obtain ⟨first, firstSeen, same⟩ := Expr.memberOf_iff.mp seen
  have firstAgain := Expr.memberOf_of_same (Expr.same_symm same) again
  rcases inStep.finished first firstSeen firstAgain with waiting | ⟨entry, member, entrySame⟩
  · -- an expression does not occur inside itself
    have less := smaller first waiting
    have equal := Expr.nodeCount_eq_of_same same
    omega
  · exact exists_position?_iff.mpr ⟨entry, member, Expr.same_trans entrySame same⟩

theorem InStep.position?_eq_none {pending : List Expr} {progress : Progress}
    (inStep : InStep repeated pending progress) {expr : Expr}
    (unseen : expr.memberOf progress.survey.seen = false) :
    position? progress.hoisted expr = none := by
  rw [position?_eq_none_iff]
  intro entry member same
  have seen := Expr.memberOf_of_same same (inStep.known entry member)
  rw [unseen] at seen
  cases seen

theorem InStep.enter {pending : List Expr} {before : Progress}
    (inStep : InStep repeated pending before) {expr : Expr}
    (shareable : expr.isShareable = true)
    (unseen : expr.memberOf before.survey.seen = false) :
    InStep repeated (expr :: pending)
      ⟨⟨expr :: before.survey.seen, before.survey.repeated⟩, before.hoisted⟩ where
  shareable := List.forall_mem_cons.mpr ⟨shareable, inStep.shareable⟩
  unique := by
    refine List.pairwise_cons.mpr ⟨fun earlier member => ?_, inStep.unique⟩
    rw [Bool.eq_false_iff]
    intro same
    rw [Expr.memberOf_iff.mpr ⟨earlier, member, Expr.same_symm same⟩] at unseen
    cases unseen
  known entry member := Expr.memberOf_mono (List.subset_cons_self _ _) (inStep.known entry member)
  again := inStep.again
  distinct := inStep.distinct
  finished seen member again := by
    rcases List.mem_cons.mp member with rfl | earlier
    · exact .inl List.mem_cons_self
    · exact (inStep.finished seen earlier again).imp_left (List.mem_cons_of_mem _)
  waiting := by
    refine List.forall_mem_cons.mpr ⟨fun entry member => ?_, inStep.waiting⟩
    have unknown := position?_eq_none_iff.mp (inStep.position?_eq_none unseen) entry member
    simpa using unknown

theorem InStep.leave {pending : List Expr} {expr : Expr} {progress : Progress}
    (inStep : InStep repeated (expr :: pending) progress)
    (seen : expr ∈ progress.survey.seen) (again : expr.memberOf repeated = true)
    (smaller : ∀ waiting ∈ pending, expr.nodeCount < waiting.nodeCount)
    (definition : Expr) :
    InStep repeated pending
      ⟨progress.survey, progress.hoisted ++ [⟨expr, definition⟩]⟩ where
  shareable := inStep.shareable
  unique := inStep.unique
  known := by
    have last := Expr.memberOf_of_mem seen
    exact List.forall_mem_append.mpr ⟨inStep.known, List.forall_mem_singleton.mpr last⟩
  again := List.forall_mem_append.mpr ⟨inStep.again, List.forall_mem_singleton.mpr again⟩
  distinct := by
    refine List.pairwise_append.mpr ⟨inStep.distinct, List.pairwise_singleton _ _, ?_⟩
    intro entry member
    exact List.forall_mem_singleton.mpr (inStep.waiting expr List.mem_cons_self entry member)
  finished other member again := by
    rcases inStep.finished other member again with waiting | ⟨entry, entryMember, same⟩
    · rcases List.mem_cons.mp waiting with rfl | later
      · exact .inr ⟨⟨other, definition⟩, List.mem_append_right _ List.mem_cons_self,
          Expr.same_refl other⟩
      · exact .inl later
    · exact .inr ⟨entry, List.mem_append_left _ entryMember, same⟩
  waiting other member := by
    have earlier := inStep.waiting other (List.mem_cons_of_mem _ member)
    refine List.forall_mem_append.mpr ⟨earlier, List.forall_mem_singleton.mpr ?_⟩
    rw [Bool.eq_false_iff]
    intro same
    have less := smaller other member
    have equal : expr.nodeCount = other.nodeCount := Expr.nodeCount_eq_of_same same
    omega

theorem InStep.drop {pending : List Expr} {expr : Expr} {progress : Progress}
    (inStep : InStep repeated (expr :: pending) progress)
    (once : expr.memberOf repeated = false) : InStep repeated pending progress where
  shareable := inStep.shareable
  unique := inStep.unique
  known := inStep.known
  again := inStep.again
  distinct := inStep.distinct
  finished other member again := by
    refine (inStep.finished other member again).imp_left fun waiting => ?_
    rcases List.mem_cons.mp waiting with rfl | later
    · rw [once] at again
      cases again
    · exact later
  waiting other member := inStep.waiting other (List.mem_cons_of_mem _ member)

theorem replace_of_not_shareable {pending : List Expr} {progress : Progress}
    (inStep : InStep repeated pending progress)
    (repeatedShareable : ∀ expr : Expr, expr.memberOf repeated = true →
      expr.isShareable = true)
    {operation : Operation} {arguments : List Expr}
    (worthless : Expr.isShareable (.op operation arguments) = false) :
    replace naming repeated (.op operation arguments) progress.hoisted =
      (.op operation arguments, progress.hoisted) := by
  have unseen : Expr.memberOf (.op operation arguments) progress.survey.seen = false := by
    rw [Bool.eq_false_iff]
    intro seen
    obtain ⟨found, member, same⟩ := Expr.memberOf_iff.mp seen
    have shareable := inStep.shareable found member
    rw [Expr.isShareable_eq_of_same same, worthless] at shareable
    cases shareable
  have once : Expr.memberOf (.op operation arguments) repeated = false := by
    rw [Bool.eq_false_iff]
    intro again
    rw [repeatedShareable _ again] at worthless
    cases worthless
  have atoms := Expr.isAtom_of_not_isShareable worthless
  rw [replace, inStep.position?_eq_none unseen]
  simp only [replaceAll_atoms atoms, once, Bool.false_eq_true, if_false]

theorem replace_of_memberOf {operation : Operation} {arguments : List Expr} {hoisted : List Hoisted}
    (unknown : position? hoisted (.op operation arguments) = none)
    (again : Expr.memberOf (.op operation arguments) repeated = true) :
    replace naming repeated (.op operation arguments) hoisted =
      (.symbol (naming.temporary (replaceAll naming repeated arguments hoisted).2.length),
        (replaceAll naming repeated arguments hoisted).2 ++
          [⟨.op operation arguments,
            .op operation (replaceAll naming repeated arguments hoisted).1⟩]) := by
  simp [replace, unknown, again]

theorem replace_of_not_memberOf {operation : Operation} {arguments : List Expr}
    {hoisted : List Hoisted}
    (unknown : position? hoisted (.op operation arguments) = none)
    (once : Expr.memberOf (.op operation arguments) repeated = false) :
    replace naming repeated (.op operation arguments) hoisted =
      (.op operation (replaceAll naming repeated arguments hoisted).1,
        (replaceAll naming repeated arguments hoisted).2) := by
  simp [replace, unknown, once]

/-- What is smaller than all pending expressions has smaller arguments still. -/
theorem nodeCount_lt_pending {operation : Operation} {arguments pending : List Expr}
    (smaller : ∀ waiting ∈ pending,
      (Expr.op operation arguments).nodeCount < waiting.nodeCount) :
    ∀ argument ∈ arguments, ∀ waiting ∈ Expr.op operation arguments :: pending,
      argument.nodeCount < waiting.nodeCount := by
  intro argument member
  have below := Expr.nodeCount_lt_of_mem member operation
  refine List.forall_mem_cons.mpr ⟨below, fun waiting waitingMember => ?_⟩
  exact Nat.lt_trans below (smaller waiting waitingMember)

/-- The survey and the replacement, started in step, walk over expressions together. -/
theorem walks_of_inStep
    (repeatedShareable : ∀ expr : Expr, expr.memberOf repeated = true →
      expr.isShareable = true)
    (exprs : List Expr) {pending : List Expr} {before : Progress}
    (inStep : InStep repeated pending before)
    (smaller : ∀ expr ∈ exprs, ∀ waiting ∈ pending, expr.nodeCount < waiting.nodeCount)
    (found : ∀ expr ∈ (before.survey.visitAll exprs).repeated, expr.memberOf repeated = true) :
    Walks naming repeated exprs before
        ⟨before.survey.visitAll exprs, (replaceAll naming repeated exprs before.hoisted).2⟩
        (replaceAll naming repeated exprs before.hoisted).1 ∧
      InStep repeated pending
        ⟨before.survey.visitAll exprs, (replaceAll naming repeated exprs before.hoisted).2⟩ := by
  induction exprs using Expr.forestInduct generalizing pending before with
  | nil =>
      exact ⟨.done before, inStep⟩
  | atom expr others atom ofOthers =>
      rw [List.forall_mem_cons] at smaller
      rw [Survey.visitAll_atom _ atom] at found ⊢
      obtain ⟨walks, after⟩ := ofOthers inStep smaller.2 found
      cases expr with
      | symbol leaf =>
          rw [replaceAll_cons, replace]
          exact ⟨.passed rfl walks, after⟩
      | literal constant =>
          rw [replaceAll_cons, replace]
          exact ⟨.passed rfl walks, after⟩
      | op operation arguments => cases atom
  | op operation arguments others ofArguments ofOthers =>
      rw [List.forall_mem_cons] at smaller
      rw [Survey.visitAll_op] at found ⊢
      rw [replaceAll_cons]
      split at found
      case isTrue worthless =>
        rw [if_pos worthless, replace_of_not_shareable inStep repeatedShareable worthless]
        obtain ⟨walks, after⟩ := ofOthers inStep smaller.2 found
        exact ⟨.passed worthless walks, after⟩
      case isFalse worthSharing =>
        have shareable : Expr.isShareable (.op operation arguments) = true := by
          simpa using worthSharing
        rw [if_neg worthSharing]
        split at found
        case isTrue seen =>
          rw [if_pos seen]
          have again := found _ ((Survey.visitAll_grows _ others).2 List.mem_cons_self)
          obtain ⟨position, known⟩ := inStep.exists_position? seen again smaller.1
          have replaced : replace naming repeated (.op operation arguments) before.hoisted =
              (.symbol (naming.temporary position), before.hoisted) := by
            rw [replace, known]
          rw [replaced]
          have next : InStep repeated pending
              ⟨⟨before.survey.seen, .op operation arguments :: before.survey.repeated⟩,
                before.hoisted⟩ :=
            { inStep with }
          obtain ⟨walks, after⟩ := ofOthers next smaller.2 found
          exact ⟨.met shareable seen known walks, after⟩
        case isFalse unseen =>
          rw [if_neg unseen]
          rw [Bool.not_eq_true] at unseen
          have entered := inStep.enter shareable unseen
          obtain ⟨argumentsWalk, middle⟩ := ofArguments entered (nodeCount_lt_pending smaller.1)
            fun expr member => found expr ((Survey.visitAll_grows _ others).2 member)
          have stillSeen := (Survey.visitAll_grows
            ⟨.op operation arguments :: before.survey.seen, before.survey.repeated⟩
            arguments).1 List.mem_cons_self
          have unknown := inStep.position?_eq_none unseen
          cases again : Expr.memberOf (.op operation arguments) repeated with
          | true =>
              rw [replace_of_memberOf unknown again]
              have left := middle.leave stillSeen again smaller.1
                (.op operation (replaceAll naming repeated arguments before.hoisted).1)
              obtain ⟨walks, after⟩ := ofOthers left smaller.2 found
              have entered := Walks.entered shareable unseen argumentsWalk (.moves again) walks
              exact ⟨entered, after⟩
          | false =>
              rw [replace_of_not_memberOf unknown again]
              obtain ⟨walks, after⟩ := ofOthers (middle.drop again) smaller.2 found
              have entered := Walks.entered shareable unseen argumentsWalk (.stays again) walks
              exact ⟨entered, after⟩

/-- The two walks over the outputs of a request, from beginning to end. -/
theorem walks_outputs (naming : Naming) (outputs : List Expr) :
    Walks naming (Survey.repeatedIn outputs) outputs ⟨Survey.empty, []⟩
        ⟨Survey.empty.visitAll outputs,
          (replaceAll naming (Survey.repeatedIn outputs) outputs []).2⟩
        (replaceAll naming (Survey.repeatedIn outputs) outputs []).1 ∧
      InStep (Survey.repeatedIn outputs) []
        ⟨Survey.empty.visitAll outputs,
          (replaceAll naming (Survey.repeatedIn outputs) outputs []).2⟩ := by
  have start : InStep (Survey.repeatedIn outputs) [] ⟨Survey.empty, []⟩ := by
    constructor <;> simp [Survey.empty]
  have nothingPending : ∀ expr ∈ outputs, ∀ waiting ∈ ([] : List Expr),
      expr.nodeCount < waiting.nodeCount :=
    fun _ _ _ => (nomatch ·)
  have all : ∀ expr ∈ (Survey.empty.visitAll outputs).repeated,
      expr.memberOf (Survey.repeatedIn outputs) = true :=
    fun _ member => Expr.memberOf_of_mem member
  exact walks_of_inStep (fun _ => Survey.isShareable_of_memberOf_repeatedIn) outputs start
    nothingPending all

/-! ## What the walks leave behind -/

theorem Places.grows {source definition replacement : Expr} {hoisted longer : List Hoisted}
    (places : Places naming repeated source definition hoisted replacement longer) :
    hoisted <+: longer := by
  cases places with
  | stays _ => exact List.prefix_rfl
  | moves _ => exact List.prefix_append _ _

namespace Walks

variable {exprs replaced : List Expr} {before after : Progress}

theorem seen_subset (walks : Walks naming repeated exprs before after replaced) :
    before.survey.seen ⊆ after.survey.seen := by
  induction walks with
  | done progress => exact List.Subset.refl _
  | passed _ _ ofOthers => exact ofOthers
  | met _ _ _ _ ofOthers => exact ofOthers
  | entered _ _ _ _ _ ofArguments ofOthers =>
      exact fun _ member => ofOthers (ofArguments (List.mem_cons_of_mem _ member))

theorem hoisted_prefix (walks : Walks naming repeated exprs before after replaced) :
    before.hoisted <+: after.hoisted := by
  induction walks with
  | done progress => exact List.prefix_rfl
  | passed _ _ ofOthers => exact ofOthers
  | met _ _ _ _ ofOthers => exact ofOthers
  | entered _ _ _ places _ ofArguments ofOthers =>
      exact ofArguments.trans (places.grows.trans ofOthers)

theorem length_eq (walks : Walks naming repeated exprs before after replaced) :
    replaced.length = exprs.length := by
  induction walks with
  | done progress => rfl
  | passed _ _ ofOthers | met _ _ _ _ ofOthers | entered _ _ _ _ _ _ ofOthers =>
      rw [List.length_cons, List.length_cons, ofOthers]

/-- What is seen occurs in the expressions and is worth sharing. -/
theorem occurs_of_mem_seen (walks : Walks naming repeated exprs before after replaced) :
    ∀ expr ∈ after.survey.seen, expr ∈ before.survey.seen ∨
      Expr.Occurs exprs expr ∧ expr.isShareable = true := by
  induction walks with
  | done progress => exact fun _ => .inl
  | passed _ _ ofOthers | met _ _ _ _ ofOthers =>
      exact fun expr member => (ofOthers expr member).imp_right (And.imp_left Expr.Occurs.tail)
  | entered shareable _ _ _ _ ofArguments ofOthers =>
      intro expr member
      rcases ofOthers expr member with earlier | ⟨occurs, worth⟩
      · rcases ofArguments expr earlier with first | ⟨occurs, worth⟩
        · rcases List.mem_cons.mp first with rfl | before
          · exact .inr ⟨.root List.mem_cons_self, shareable⟩
          · exact .inl before
        · exact .inr ⟨occurs.inside, worth⟩
      · exact .inr ⟨occurs.tail, worth⟩

/-- Every argument of what is seen, and every expression walked over, is seen if it is
worth sharing. -/
theorem covers (walks : Walks naming repeated exprs before after replaced) :
    (∀ expr ∈ exprs, expr.isShareable = true →
        expr.memberOf after.survey.seen = true) ∧
      ∀ parent ∈ after.survey.seen, parent ∈ before.survey.seen ∨
        ∀ argument ∈ parent.arguments, argument.isShareable = true →
          argument.memberOf after.survey.seen = true := by
  induction walks with
  | done progress => exact ⟨fun _ => (nomatch ·), fun _ => .inl⟩
  | passed worthless _ ofOthers =>
      refine ⟨List.forall_mem_cons.mpr ⟨fun shareable => ?_, ofOthers.1⟩, ofOthers.2⟩
      rw [worthless] at shareable
      cases shareable
  | met _ seen _ walks ofOthers =>
      refine ⟨List.forall_mem_cons.mpr ⟨fun _ => ?_, ofOthers.1⟩, ofOthers.2⟩
      exact Expr.memberOf_mono walks.seen_subset seen
  | @entered operation arguments _ _ _ _ _ _ _ _ _ _ argumentsWalk _ othersWalk ofArguments ofOthers =>
      have within : ∀ expr : Expr, _ → expr.memberOf _ = true := fun expr =>
        Expr.memberOf_mono othersWalk.seen_subset
      refine ⟨List.forall_mem_cons.mpr ⟨fun _ => ?_, ofOthers.1⟩, fun parent member => ?_⟩
      · have entered := argumentsWalk.seen_subset List.mem_cons_self
        exact within _ (Expr.memberOf_of_mem entered)
      · rcases ofOthers.2 parent member with earlier | covered
        · rcases ofArguments.2 parent earlier with first | covered
          · rcases List.mem_cons.mp first with rfl | before
            · exact .inr fun argument isArgument shareable =>
                within _ (ofArguments.1 argument isArgument shareable)
            · exact .inl before
          · exact .inr fun argument isArgument shareable =>
              within _ (covered argument isArgument shareable)
        · exact .inr covered

end Walks

/-! ## The temporaries of a program -/

/-- The temporaries made for outputs, with what they are for. -/
def table (naming : Naming) (outputs : List Expr) : List Hoisted :=
  (replaceAll naming (Survey.repeatedIn outputs) outputs []).2

theorem walks_table (naming : Naming) (outputs : List Expr) :
    Walks naming (Survey.repeatedIn outputs) outputs ⟨Survey.empty, []⟩
      ⟨Survey.empty.visitAll outputs, table naming outputs⟩
      (Program.shared naming outputs).outputs :=
  (walks_outputs naming outputs).1

theorem sound_table {outputs : List Expr}
    (unreserved : ∀ output ∈ outputs, naming.Unreserved output) :
    Sound naming outputs (fun expansion expr => expansion.same expr = true)
      (table naming outputs) :=
  (replaceAll_expands (respects_same outputs) unreserved).1

theorem inStep_table (naming : Naming) (outputs : List Expr) :
    InStep (Survey.repeatedIn outputs) []
      ⟨Survey.empty.visitAll outputs, table naming outputs⟩ :=
  (walks_outputs naming outputs).2

theorem exists_getElem?_of_position? {hoisted final : List Hoisted} {expr : Expr} {position : Nat}
    (known : position? hoisted expr = some position) (reaches : hoisted <+: final) :
    ∃ entry, final[position]? = some entry ∧ entry.source.same expr = true := by
  obtain ⟨inside, same, _⟩ := List.findIdx?_eq_some_iff_getElem.mp known
  exact ⟨_, List.prefix_iff_getElem?.mp reaches position inside, same⟩

theorem getElem?_length_of_prefix {hoisted final : List Hoisted} {entry : Hoisted}
    (reaches : hoisted ++ [entry] <+: final) : final[hoisted.length]? = some entry := by
  obtain ⟨later, rfl⟩ := reaches
  simp

theorem source_same_iff {hoisted : List Hoisted}
    (distinct : hoisted.Pairwise fun left right => left.source.same right.source = false)
    {position position' : Nat} {entry entry' : Hoisted}
    (found : hoisted[position]? = some entry) (found' : hoisted[position']? = some entry') :
    entry'.source.same entry.source = true ↔ position' = position := by
  obtain ⟨inside, rfl⟩ := List.getElem?_eq_some_iff.mp found
  obtain ⟨inside', rfl⟩ := List.getElem?_eq_some_iff.mp found'
  rw [List.pairwise_iff_getElem] at distinct
  constructor
  · intro same
    rcases Nat.lt_trichotomy position' position with earlier | equal | later
    · rw [distinct _ _ inside' inside earlier] at same
      cases same
    · exact equal
    · have reversed := Expr.same_symm same
      rw [distinct _ _ inside inside' later] at reversed
      cases reversed
  · rintro rfl
    exact Expr.same_refl _

end Hoisted

end LieScribe
