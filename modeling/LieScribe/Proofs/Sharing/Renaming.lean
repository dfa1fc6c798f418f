import LieScribe.Proofs.Applications
import LieScribe.Proofs.Sharing.Arrangement
import LieScribe.Proofs.Sharing.Walk
import Mathlib.Data.List.Nodup

/-!
# Sharing renamed expressions

Sharing looks at the shape of expressions only.  If the inputs of a request are renamed, no
two of them alike, the survey and the replacement take the same steps as before: they find
the same expressions repeated, renamed, and give them the same temporaries.  So renaming the
inputs and sharing can be done in either order, and arranging the inputs in an array is one
such renaming, even if some inputs are elements of that array already.
-/

namespace LieScribe

/-- All symbols of the expression are inputs. -/
def Expr.Over (inputs : List Symbol) (expr : Expr) : Prop :=
  ∀ symbol ∈ expr.symbols, symbol ∈ inputs

theorem Expr.Over.arguments {inputs : List Symbol} {operation : Operation} {arguments : List Expr}
    (declared : Expr.Over inputs (.op operation arguments)) :
    ∀ argument ∈ arguments, argument.Over inputs :=
  Expr.forall_symbols_op.mp declared

/-- Inputs are renamed, no two of them alike, and temporaries of one naming become those of
another. -/
structure Bindings.RenamesInputs (bindings : Bindings Expr) (rename : Symbol → Symbol)
    (inputs : List Symbol) (naming renamed : Naming) : Prop where
  renames : bindings.Renames rename
  injective : ∀ left ∈ inputs, ∀ right ∈ inputs, rename left = rename right → left = right
  temporary : ∀ position, rename (naming.temporary position) = renamed.temporary position

variable {bindings : Bindings Expr} {rename : Symbol → Symbol} {inputs : List Symbol}
  {naming renamed : Naming}

/-! ## Comparing renamed expressions -/

namespace Expr

theorem isShareable_substitute (renames : bindings.Renames rename) (expr : Expr) :
    (expr.substitute bindings).isShareable = expr.isShareable := by
  cases expr with
  | symbol leaf => rw [renames leaf]; rfl
  | literal constant => rfl
  | op operation arguments =>
      rw [substitute_op]
      cases operation <;>
        simp [isShareable, List.all_map, Function.comp_def, isAtom_substitute renames]

theorem same_substitute_eq (apart : bindings.RenamesInputs rename inputs naming renamed)
    {left right : Expr} (leftOver : left.Over inputs) (rightOver : right.Over inputs) :
    (left.substitute bindings).same (right.substitute bindings) = left.same right := by
  rw [Bool.eq_iff_iff]
  apply same_substitute_iff apart.renames
  intro symbol mentioned symbol' mentioned'
  exact apart.injective symbol (leftOver symbol mentioned) symbol' (rightOver symbol' mentioned')

theorem memberOf_map_substitute (apart : bindings.RenamesInputs rename inputs naming renamed)
    {expr : Expr} (declared : expr.Over inputs) {exprs : List Expr}
    (each : ∀ member ∈ exprs, member.Over inputs) :
    (expr.substitute bindings).memberOf (exprs.map (substitute bindings)) =
      expr.memberOf exprs := by
  induction exprs with
  | nil =>
      rfl
  | cons first others inductionHypothesis =>
      rw [List.forall_mem_cons] at each
      have tail := inductionHypothesis each.2
      rw [memberOf, memberOf] at tail ⊢
      rw [List.map_cons, List.any_cons, List.any_cons, tail,
        same_substitute_eq apart each.1 declared]

end Expr

/-! ## The survey -/

namespace Survey

/-- Everything on both lists is an expression over the inputs. -/
def Over (inputs : List Symbol) (survey : Survey) : Prop :=
  (∀ expr ∈ survey.seen, expr.Over inputs) ∧ ∀ expr ∈ survey.repeated, expr.Over inputs

theorem Over.visitAll {exprs : List Expr} (each : ∀ expr ∈ exprs, expr.Over inputs)
    {survey : Survey} (declared : survey.Over inputs) : (survey.visitAll exprs).Over inputs := by
  induction exprs using Expr.forestInduct generalizing survey with
  | nil =>
      exact declared
  | atom expr others atom ofOthers =>
      rw [visitAll_atom survey atom]
      exact ofOthers (List.forall_mem_cons.mp each).2 declared
  | op operation arguments others ofArguments ofOthers =>
      rw [List.forall_mem_cons] at each
      rw [visitAll_op]
      split
      · exact ofOthers each.2 declared
      · split
        · exact ofOthers each.2 ⟨declared.1, List.forall_mem_cons.mpr ⟨each.1, declared.2⟩⟩
        · refine ofOthers each.2 (ofArguments each.1.arguments ?_)
          exact ⟨List.forall_mem_cons.mpr ⟨each.1, declared.1⟩, declared.2⟩

/-- A survey of renamed expressions. -/
def substitute (bindings : Bindings Expr) (survey : Survey) : Survey :=
  ⟨survey.seen.map (Expr.substitute bindings), survey.repeated.map (Expr.substitute bindings)⟩

/-- The survey of renamed expressions takes the same steps. -/
theorem visitAll_map_substitute (apart : bindings.RenamesInputs rename inputs naming renamed)
    {exprs : List Expr} (each : ∀ expr ∈ exprs, expr.Over inputs) {survey : Survey}
    (declared : survey.Over inputs) :
    (survey.substitute bindings).visitAll (exprs.map (Expr.substitute bindings)) =
      (survey.visitAll exprs).substitute bindings := by
  induction exprs using Expr.forestInduct generalizing survey with
  | nil =>
      rfl
  | atom expr others atom ofOthers =>
      rw [List.map_cons, visitAll_atom _ ((Expr.isAtom_substitute apart.renames expr).trans atom),
        visitAll_atom survey atom, ofOthers (List.forall_mem_cons.mp each).2 declared]
  | op operation arguments others ofArguments ofOthers =>
      rw [List.forall_mem_cons] at each
      have shareable := Expr.isShareable_substitute apart.renames (.op operation arguments)
      have member := Expr.memberOf_map_substitute apart each.1 declared.1
      rw [Expr.substitute_op] at shareable member
      rw [List.map_cons, Expr.substitute_op, visitAll_op, visitAll_op, shareable]
      have seen : (survey.substitute bindings).seen =
          survey.seen.map (Expr.substitute bindings) := rfl
      rw [seen, member]
      split
      · exact ofOthers each.2 declared
      · split
        · have noted : Over inputs
              { survey with repeated := .op operation arguments :: survey.repeated } :=
            ⟨declared.1, List.forall_mem_cons.mpr ⟨each.1, declared.2⟩⟩
          rw [← ofOthers each.2 noted, substitute, substitute, List.map_cons, Expr.substitute_op]
        · have entered : Over inputs
              { survey with seen := .op operation arguments :: survey.seen } :=
            ⟨List.forall_mem_cons.mpr ⟨each.1, declared.1⟩, declared.2⟩
          rw [← ofOthers each.2 (entered.visitAll each.1.arguments),
            ← ofArguments each.1.arguments entered, substitute, substitute, List.map_cons,
            Expr.substitute_op]

theorem over_empty (inputs : List Symbol) : empty.Over inputs :=
  ⟨fun _ => (nomatch ·), fun _ => (nomatch ·)⟩

theorem repeatedIn_map_substitute (apart : bindings.RenamesInputs rename inputs naming renamed)
    {outputs : List Expr} (each : ∀ output ∈ outputs, output.Over inputs) :
    repeatedIn (outputs.map (Expr.substitute bindings)) =
      (repeatedIn outputs).map (Expr.substitute bindings) := by
  have surveys := visitAll_map_substitute apart each (over_empty inputs)
  exact congrArg Survey.repeated surveys

end Survey

/-! ## The replacement -/

namespace Hoisted

/-- A temporary for a renamed expression. -/
def substitute (bindings : Bindings Expr) (entry : Hoisted) : Hoisted :=
  ⟨entry.source.substitute bindings, entry.definition.substitute bindings⟩

theorem position?_map_substitute (apart : bindings.RenamesInputs rename inputs naming renamed)
    {expr : Expr} (declared : expr.Over inputs) {hoisted : List Hoisted}
    (each : ∀ entry ∈ hoisted, entry.source.Over inputs) :
    position? (hoisted.map (substitute bindings)) (expr.substitute bindings) =
      position? hoisted expr := by
  induction hoisted with
  | nil =>
      rfl
  | cons first others inductionHypothesis =>
      rw [List.forall_mem_cons] at each
      have tail := inductionHypothesis each.2
      have head : (substitute bindings first).source.same (expr.substitute bindings) =
          first.source.same expr := Expr.same_substitute_eq apart each.1 declared
      rw [position?, position?] at tail ⊢
      rw [List.map_cons, List.findIdx?_cons, List.findIdx?_cons, tail, head]

variable {repeated : List Expr}

/-- All sources are expressions over the inputs. -/
theorem over_replaceAll {exprs : List Expr} (each : ∀ expr ∈ exprs, expr.Over inputs)
    {hoisted : List Hoisted} (declared : ∀ entry ∈ hoisted, entry.source.Over inputs) :
    ∀ entry ∈ (replaceAll naming repeated exprs hoisted).2, entry.source.Over inputs := by
  induction exprs using Expr.forestInduct generalizing hoisted with
  | nil =>
      exact declared
  | atom expr others atom ofOthers =>
      have rest := ofOthers (List.forall_mem_cons.mp each).2 declared
      cases expr with
      | symbol leaf => exact rest
      | literal constant => exact rest
      | op operation arguments => cases atom
  | op operation arguments others ofArguments ofOthers =>
      rw [List.forall_mem_cons] at each
      have below := ofArguments each.1.arguments declared
      rw [replaceAll_cons]
      apply ofOthers each.2
      rcases replace_op_cases naming repeated operation arguments hoisted with
        ⟨position, _, result⟩ | ⟨_, result⟩ | ⟨_, result⟩
      · rw [result]
        exact declared
      · rw [result]
        exact List.forall_mem_append.mpr ⟨below, List.forall_mem_singleton.mpr each.1⟩
      · rw [result]
        exact below

/-- One step of the replacement, once the arguments were replaced alike. -/
theorem replace_op_substitute (apart : bindings.RenamesInputs rename inputs naming renamed)
    (repeatedOver : ∀ expr ∈ repeated, expr.Over inputs) {operation : Operation}
    {arguments : List Expr} (sourceOver : Expr.Over inputs (.op operation arguments))
    {hoisted : List Hoisted} (declared : ∀ entry ∈ hoisted, entry.source.Over inputs)
    (ofArguments : replaceAll renamed (repeated.map (Expr.substitute bindings))
        (arguments.map (Expr.substitute bindings)) (hoisted.map (substitute bindings)) =
      ((replaceAll naming repeated arguments hoisted).1.map (Expr.substitute bindings),
        (replaceAll naming repeated arguments hoisted).2.map (substitute bindings))) :
    replace renamed (repeated.map (Expr.substitute bindings))
        (.op operation (arguments.map (Expr.substitute bindings)))
        (hoisted.map (substitute bindings)) =
      ((replace naming repeated (.op operation arguments) hoisted).1.substitute bindings,
        (replace naming repeated (.op operation arguments) hoisted).2.map
          (substitute bindings)) := by
  have temporary (position : Nat) :
      (Expr.symbol (naming.temporary position)).substitute bindings =
        .symbol (renamed.temporary position) := by
    rw [apart.renames, apart.temporary]
  have positions := position?_map_substitute apart sourceOver declared
  have members := Expr.memberOf_map_substitute apart sourceOver repeatedOver
  rw [Expr.substitute_op] at positions members
  cases known : position? hoisted (.op operation arguments) with
  | some position =>
      rw [known] at positions
      simp only [replace, known, positions, temporary]
  | none =>
      rw [known] at positions
      cases again : Expr.memberOf (.op operation arguments) repeated with
      | true =>
          rw [again] at members
          rw [replace_of_memberOf positions members, replace_of_memberOf known again, ofArguments,
            temporary, List.length_map, List.map_append, List.map_singleton, substitute,
            Expr.substitute_op, Expr.substitute_op]
      | false =>
          rw [again] at members
          rw [replace_of_not_memberOf positions members, replace_of_not_memberOf known again,
            ofArguments, Expr.substitute_op]

/-- The replacement of renamed expressions takes the same steps. -/
theorem replaceAll_map_substitute (apart : bindings.RenamesInputs rename inputs naming renamed)
    (repeatedOver : ∀ expr ∈ repeated, expr.Over inputs)
    {exprs : List Expr} (each : ∀ expr ∈ exprs, expr.Over inputs) {hoisted : List Hoisted}
    (declared : ∀ entry ∈ hoisted, entry.source.Over inputs) :
    replaceAll renamed (repeated.map (Expr.substitute bindings))
        (exprs.map (Expr.substitute bindings)) (hoisted.map (substitute bindings)) =
      ((replaceAll naming repeated exprs hoisted).1.map (Expr.substitute bindings),
        (replaceAll naming repeated exprs hoisted).2.map (substitute bindings)) := by
  induction exprs using Expr.forestInduct generalizing hoisted with
  | nil =>
      rfl
  | atom expr others atom ofOthers =>
      have rest := ofOthers (List.forall_mem_cons.mp each).2 declared
      cases expr with
      | symbol leaf =>
          rw [List.map_cons, apart.renames, replaceAll_cons, replaceAll_cons, replace, replace,
            rest, List.map_cons, apart.renames]
      | literal constant =>
          rw [List.map_cons, Expr.substitute_literal, replaceAll_cons, replaceAll_cons, replace,
            replace, rest, List.map_cons, Expr.substitute_literal]
      | op operation arguments => cases atom
  | op operation arguments others ofArguments ofOthers =>
      rw [List.forall_mem_cons] at each
      have head := replace_op_substitute apart repeatedOver each.1 declared
        (ofArguments each.1.arguments declared)
      have headOver : ∀ entry ∈ (replace naming repeated (.op operation arguments) hoisted).2,
          entry.source.Over inputs :=
        over_replaceAll (List.forall_mem_singleton.mpr each.1) declared
      rw [List.map_cons, Expr.substitute_op, replaceAll_cons, replaceAll_cons, head,
        ofOthers each.2 headOver, List.map_cons]

theorem temporaries_map_substitute
    (names : ∀ position, renamed.temporary position = naming.temporary position)
    (hoisted : List Hoisted) :
    temporaries renamed (hoisted.map (substitute bindings)) =
      (temporaries naming hoisted).map fun temporary =>
        { temporary with definition := temporary.definition.substitute bindings } := by
  simp [temporaries, List.zipIdx_map, names, substitute, Function.comp_def]

end Hoisted

/-! ## Programs -/

namespace Program

variable {outputs : List Expr}

/-- Sharing renamed outputs gives the renamed program. -/
theorem shared_map_substitute (apart : bindings.RenamesInputs rename inputs naming renamed)
    (names : ∀ position, renamed.temporary position = naming.temporary position)
    (each : ∀ output ∈ outputs, output.Over inputs) :
    shared renamed (outputs.map (Expr.substitute bindings)) =
      (shared naming outputs).substitute bindings := by
  have repeatedOver : ∀ expr ∈ Survey.repeatedIn outputs, expr.Over inputs :=
    ((Survey.over_empty inputs).visitAll each).2
  have start : ∀ entry ∈ ([] : List Hoisted), entry.source.Over inputs := fun _ => (nomatch ·)
  have walked := Hoisted.replaceAll_map_substitute apart repeatedOver each start
  rw [List.map_nil] at walked
  rw [shared, Survey.repeatedIn_map_substitute apart each, walked, shared, substitute]
  simp only [Hoisted.temporaries_map_substitute names]

/-- Of a naming only the names of temporaries matter to sharing. -/
theorem shared_congr
    (names : ∀ position, renamed.temporary position = naming.temporary position)
    (outputs : List Expr) : shared renamed outputs = shared naming outputs := by
  have unchanged : Bindings.empty.RenamesInputs id (Expr.symbolsOf outputs) naming renamed :=
    ⟨fun _ => rfl, fun _ _ _ _ => id, fun position => (names position).symm⟩
  have each : ∀ output ∈ outputs, output.Over (Expr.symbolsOf outputs) :=
    fun output member _ mentioned => Expr.mem_symbolsOf.mpr ⟨output, member, mentioned⟩
  have same := shared_map_substitute unchanged names each
  rwa [Expr.substitute_empty, List.map_id, substitute_empty] at same

end Program

/-! ## Requests -/

namespace Naming

variable {outputs : List Expr}

/-- A request whose inputs are renamed to free symbols, no two of them alike, passes its
check again. -/
theorem checkRequest_map_substitute (apart : bindings.RenamesInputs rename inputs naming renamed)
    (checked : naming.checkRequest inputs outputs = .ok ())
    (unreserved : ∀ input ∈ inputs, renamed.isReserved (rename input) = false) :
    renamed.checkRequest (inputs.map rename) (outputs.map (Expr.substitute bindings)) =
      .ok () := by
  obtain ⟨distinct, _, each⟩ := checkRequest_eq_ok_iff.mp checked
  refine checkRequest_eq_ok_iff.mpr ⟨?_, List.forall_mem_map.mpr unreserved, ?_⟩
  · exact List.Nodup.map_on apart.injective distinct
  · refine List.forall_mem_map.mpr fun output member => ⟨?_, ?_⟩
    · exact Expr.check_substitute_of_renames apart.renames (each output member).1
    · rw [Expr.symbols_substitute apart.renames]
      refine List.forall_mem_map.mpr fun symbol mentioned => ?_
      exact List.mem_map_of_mem ((each output member).2 symbol mentioned)

/-- Arranging the inputs renames them. -/
theorem renamesInputs_arrangement (distinct : inputs.Nodup)
    (free : ∀ position, naming.temporary position ∉ inputs)
    (names : ∀ position, renamed.temporary position = naming.temporary position) :
    (naming.arrangement inputs).RenamesInputs (naming.leaf inputs) inputs naming renamed where
  renames := renames_arrangement distinct
  injective _ leftDeclared _ rightDeclared := leaf_injective leftDeclared rightDeclared
  temporary position := by
    rw [names]
    exact (renamesApart_arrangement distinct free).fixed _ ⟨position, rfl⟩

end Naming

/-- Rename the symbols of a list and leave every other symbol alone. -/
def Symbol.renameAmong (inputs : List Symbol) (rename : Symbol → Symbol) (symbol : Symbol) :
    Symbol :=
  if symbol ∈ inputs then rename symbol else symbol

theorem Symbol.map_renameAmong (inputs : List Symbol) (rename : Symbol → Symbol) :
    inputs.map (Symbol.renameAmong inputs rename) = inputs.map rename :=
  List.map_congr_left fun _ declared => if_pos declared

namespace Bindings

/-- Put another symbol in the place of each input. -/
def ofRenaming (inputs : List Symbol) (rename : Symbol → Symbol) : Bindings Expr :=
  empty.bindAll (inputs.map fun input => (input, .symbol (rename input)))

theorem renames_ofRenaming (distinct : inputs.Nodup) (rename : Symbol → Symbol) :
    (ofRenaming inputs rename).Renames (Symbol.renameAmong inputs rename) := by
  have keys : (inputs.map fun input => (input, Expr.symbol (rename input))).map Prod.fst =
      inputs := by
    rw [List.map_map]
    exact List.map_id inputs
  intro symbol
  rw [Expr.substitute_symbol, ofRenaming, Symbol.renameAmong]
  by_cases declared : symbol ∈ inputs
  · have bound : (symbol, Expr.symbol (rename symbol)) ∈
        inputs.map fun input => (input, Expr.symbol (rename input)) :=
      List.mem_map.mpr ⟨symbol, declared, rfl⟩
    rw [if_pos declared, get?_bindAll_of_mem _ (by rwa [keys]) bound, Option.getD_some]
  · rw [if_neg declared, get?_bindAll_of_not_mem _ (by rwa [keys])]
    rfl

theorem renamesInputs_ofRenaming (distinct : inputs.Nodup)
    (free : ∀ position, naming.temporary position ∉ inputs)
    (injective : ∀ left ∈ inputs, ∀ right ∈ inputs, rename left = rename right → left = right) :
    (ofRenaming inputs rename).RenamesInputs (Symbol.renameAmong inputs rename) inputs naming
      naming where
  renames := renames_ofRenaming distinct rename
  injective left leftDeclared right rightDeclared := by
    rw [Symbol.renameAmong, Symbol.renameAmong, if_pos leftDeclared, if_pos rightDeclared]
    exact injective left leftDeclared right rightDeclared
  temporary position := if_neg (free position)

end Bindings

namespace Program

variable {outputs : List Expr} {program : Program}

/-- Renaming the inputs of an accepted request to free symbols, no two of them alike, renames
its program and changes nothing else.  So reading the inputs from an array gives the program
of the request whose inputs are the elements of that array. -/
theorem share_renamed_of_share (accepted : share naming inputs outputs = .ok program) :
    ∃ original, share { naming with linear := false } inputs outputs = .ok original ∧
      (∀ rename : Symbol → Symbol,
        (∀ left ∈ inputs, ∀ right ∈ inputs, rename left = rename right → left = right) →
          (∀ input ∈ inputs, naming.isReserved (rename input) = false) →
            share { naming with linear := false } (inputs.map rename)
                (outputs.map (Expr.substitute (Bindings.ofRenaming inputs rename))) =
              .ok (original.substitute (Bindings.ofRenaming inputs rename))) ∧
        ∃ arranged, share { naming with linear := true } inputs outputs = .ok arranged ∧
          share { naming with linear := false }
              (Symbol.array naming.inputArray inputs.length)
              (outputs.map (Expr.substitute (Bindings.empty.bindAll
                (inputs.zip (Expr.array naming.inputArray inputs.length))))) =
            .ok arranged := by
  obtain ⟨checked, -⟩ := share_eq_ok_iff_substitute.mp accepted
  obtain ⟨distinct, free, declared⟩ := Naming.declares_of_checkRequest checked
  have checkedAs := fun linear => (Naming.checkRequest_linear_iff linear).mpr checked
  refine ⟨_, (share_eq_ok_iff rfl).mpr ⟨checkedAs false, rfl⟩, ?_, ?_⟩
  · intro rename injective unreserved
    have apart : (Bindings.ofRenaming inputs rename).RenamesInputs
        (Symbol.renameAmong inputs rename) inputs { naming with linear := false }
          { naming with linear := false } :=
      Bindings.renamesInputs_ofRenaming distinct free injective
    refine (share_eq_ok_iff rfl).mpr ⟨?_, shared_map_substitute apart (fun _ => rfl) declared⟩
    rw [← Symbol.map_renameAmong]
    refine Naming.checkRequest_map_substitute apart (checkedAs false) fun input member => ?_
    rw [Symbol.renameAmong, if_pos member]
    exact unreserved input member
  · have apart : Bindings.RenamesInputs _ _ inputs { naming with linear := true }
        { naming with linear := false } :=
      Naming.renamesInputs_arrangement distinct free fun _ => rfl
    refine ⟨_, share_eq_ok_iff_substitute.mpr ⟨checkedAs true, rfl⟩,
      (share_eq_ok_iff rfl).mpr ⟨?_, shared_map_substitute apart (fun _ => rfl) declared⟩⟩
    have leaves : inputs.map (Naming.leaf { naming with linear := true } inputs) =
        Symbol.array naming.inputArray inputs.length := Naming.map_leaf distinct
    rw [← leaves]
    refine Naming.checkRequest_map_substitute apart (checkedAs true) fun input member => ?_
    rw [Naming.leaf, if_pos ⟨rfl, member⟩]
    rfl

/-- A product of two elements of one array, with a third input whose name is that of the
array, and the sine of the product. -/
def swayingProduct : List Expr :=
  let product := Expr.element "inp" 1 * Expr.element "inp" 0
  [product - .named "inp", Expr.sin product]

/-- Each of the three inputs takes the place of the next. -/
def rotated : Symbol → Symbol
  | .element "inp" 1 => .element "inp" 0
  | .element "inp" 0 => .named "inp"
  | _ => .element "inp" 1

theorem share_renamed_swayingProduct :
    ∃ arranged,
      share .arrayed [.element "inp" 1, .element "inp" 0, .named "inp"] swayingProduct =
          .ok arranged ∧
        share .named [.element "inp" 0, .element "inp" 1, .element "inp" 2]
            [Expr.element "inp" 0 * Expr.element "inp" 1 - .element "inp" 2,
              Expr.sin (Expr.element "inp" 0 * Expr.element "inp" 1)] = .ok arranged ∧
          share .named [.element "inp" 0, .named "inp", .element "inp" 1]
              [Expr.element "inp" 0 * Expr.named "inp" - .element "inp" 1,
                Expr.sin (Expr.element "inp" 0 * Expr.named "inp")] =
            .ok ⟨[⟨.named "tmp0", Expr.element "inp" 0 * Expr.named "inp"⟩],
              [.named "tmp0" - .element "inp" 1, Expr.sin (.named "tmp0")]⟩ := by
  have accepted :
      share .arrayed [.element "inp" 1, .element "inp" 0, .named "inp"] swayingProduct =
        .ok ((shared .arrayed swayingProduct).linearize
          [.element "inp" 1, .element "inp" 0, .named "inp"] "inp") := rfl
  obtain ⟨original, direct, renamed, arranged, isArranged, fromElements⟩ :=
    share_renamed_of_share accepted
  have rotation := renamed rotated (by decide) (by decide)
  obtain rfl : _ = original := Except.ok.inj direct
  exact ⟨arranged, isArranged, fromElements, rotation⟩

end Program

end LieScribe
