import LieScribe.Proofs.Sharing.Criterion
import LieScribe.Proofs.Sharing.Idempotence

/-!
# What sharing saves

Along the walks no operation is lost: each operation that is walked over is left in a
replacement, moved to a definition, or belongs to an expression that is met again and noted
as repeated.  So a shared program has the operations of its outputs less those of the
repeated expressions.  There are at least as many of these as temporaries, and each has an
operation, so every temporary saves one.
-/

namespace LieScribe

/-! ## Counting operations -/

/-- Applying an operation costs something. -/
theorem Operation.cost_pos {operation : Operation} {count : Nat}
    (accepted : operation.arity.accepts count = true) : 0 < operation.cost count := by
  cases operation with
  | add | mul | min | max =>
      have enough : 2 ≤ count := of_decide_eq_true accepted
      rw [cost]
      omega
  | _ => exact Nat.one_pos

namespace Expr

theorem opCounts_append (exprs others : List Expr) :
    opCounts (exprs ++ others) = opCounts exprs + opCounts others := by
  induction exprs with
  | nil =>
      rw [List.nil_append, opCounts, Nat.zero_add]
  | cons first rest inductionHypothesis =>
      rw [List.cons_append, opCounts, opCounts, inductionHypothesis, Nat.add_assoc]

theorem opCounts_eq_sum (exprs : List Expr) : opCounts exprs = (exprs.map opCount).sum := by
  induction exprs with
  | nil =>
      rfl
  | cons first rest inductionHypothesis =>
      rw [opCounts, List.map_cons, List.sum_cons, inductionHypothesis]

/-- A renaming adds no operation and removes none. -/
theorem opCounts_map_substitute {bindings : Bindings Expr} {rename : Symbol → Symbol}
    (renames : bindings.Renames rename) (exprs : List Expr) :
    opCounts (exprs.map (substitute bindings)) = opCounts exprs := by
  induction exprs using forestInduct with
  | nil =>
      rfl
  | atom first others atom ofOthers =>
      rw [List.map_cons, opCounts, opCounts, ofOthers]
      cases first with
      | symbol leaf => rw [renames leaf, opCount, opCount]
      | literal constant => rfl
      | op operation arguments => cases atom
  | op operation arguments others ofArguments ofOthers =>
      rw [List.map_cons, substitute_op, opCounts, opCounts, opCount, opCount, ofArguments,
        ofOthers, List.length_map]

theorem opCount_pos {expr : Expr} (checked : expr.check = .ok ())
    (isOperation : expr.isAtom = false) : 0 < expr.opCount := by
  cases expr with
  | symbol leaf => cases isOperation
  | literal constant => cases isOperation
  | op operation arguments =>
      rw [check, Outcome.check_eq_ok_iff, Operation.checkCount_eq_ok_iff] at checked
      have costs := Operation.cost_pos checked.1
      rw [opCount]
      omega

theorem length_le_opCounts {exprs : List Expr} (each : ∀ expr ∈ exprs, 0 < expr.opCount) :
    exprs.length ≤ opCounts exprs := by
  have counts := List.length_le_sum_of_one_le (exprs.map opCount) (List.forall_mem_map.mpr each)
  rwa [List.length_map, ← opCounts_eq_sum] at counts

theorem check_of_same {expr other : Expr} (same : expr.same other = true)
    (checked : expr.check = .ok ()) : other.check = .ok () := by
  rw [check_eq_ok_iff_applies] at checked ⊢
  intro operation count applies
  have alike : Applies [expr] operation count ↔ Applies [other] operation count :=
    applies_iff_of_same (.cons same .nil)
  exact checked operation count (alike.mpr applies)

/-- Expressions that are different from each other and all found in a list are no more than
the list has. -/
theorem length_le_of_memberOf {found exprs : List Expr}
    (distinct : found.Pairwise fun left right => left.same right = false)
    (inside : ∀ expr ∈ found, expr.memberOf exprs = true) : found.length ≤ exprs.length := by
  have subset : found.map canonical ⊆ exprs.map canonical := by
    intro representative member
    obtain ⟨expr, inFound, rfl⟩ := List.mem_map.mp member
    obtain ⟨other, inExprs, same⟩ := memberOf_iff.mp (inside expr inFound)
    exact List.mem_map.mpr ⟨other, inExprs, (same_iff other expr).mp same⟩
  have fits := ((nodup_map_canonical distinct).subperm subset).length_le
  rwa [List.length_map, List.length_map] at fits

end Expr

namespace Hoisted

variable {naming : Naming} {repeated exprs replaced outputs : List Expr} {before after : Progress}

/-! ## No operation is lost -/

/-- What is walked over is left in a replacement or a definition, or noted as repeated. -/
theorem Walks.opCounts_eq (walks : Walks naming repeated exprs before after replaced) :
    Expr.opCounts replaced + Expr.opCounts (after.hoisted.map (·.definition)) +
        Expr.opCounts after.survey.repeated =
      Expr.opCounts exprs + Expr.opCounts (before.hoisted.map (·.definition)) +
        Expr.opCounts before.survey.repeated := by
  induction walks with
  | done progress =>
      rfl
  | passed _ _ ofOthers =>
      rw [Expr.opCounts, Expr.opCounts]
      omega
  | met _ _ _ _ ofOthers =>
      rw [Expr.opCounts, Expr.opCount, Expr.opCounts]
      rw [Expr.opCounts] at ofOthers
      dsimp only at ofOthers
      omega
  | entered _ _ argumentsWalk places _ ofArguments ofOthers =>
      have sameCount := argumentsWalk.length_eq
      rw [Expr.opCounts, Expr.opCounts, Expr.opCount]
      dsimp only at ofArguments ofOthers
      cases places with
      | stays _ =>
          rw [Expr.opCount, sameCount]
          omega
      | moves _ =>
          rw [List.map_append, Expr.opCounts_append, List.map_singleton, Expr.opCounts,
            Expr.opCounts, Expr.opCount, sameCount] at ofOthers
          rw [Expr.opCount]
          omega

/-! ## Every temporary saves an operation -/

theorem opCount_pos_of_mem_repeatedIn (checked : ∀ output ∈ outputs, output.check = .ok ())
    {expr : Expr} (member : expr ∈ Survey.repeatedIn outputs) : 0 < expr.opCount := by
  obtain ⟨walks, _⟩ := walks_outputs Naming.named outputs
  obtain ⟨seen, shareable⟩ :=
    (walks.memberOf_seen_of_repeated expr member).resolve_left (nomatch ·)
  obtain ⟨first, firstSeen, same⟩ := Expr.memberOf_iff.mp seen
  obtain ⟨occurs, _⟩ := (walks.occurs_of_mem_seen first firstSeen).resolve_left (nomatch ·)
  exact Expr.opCount_pos (Expr.check_of_same same (occurs.check checked))
    (Expr.isAtom_of_isShareable shareable)

theorem length_table_le (naming : Naming) (outputs : List Expr) :
    (table naming outputs).length ≤ (Survey.repeatedIn outputs).length := by
  have inStep := inStep_table naming outputs
  have fits := Expr.length_le_of_memberOf (List.pairwise_map.mpr inStep.distinct)
    (List.forall_mem_map.mpr inStep.again)
  rwa [List.length_map] at fits

/-- What is repeated has a temporary. -/
theorem repeatedIn_eq_nil_of_table (nothing : table naming outputs = []) :
    Survey.repeatedIn outputs = [] := by
  rw [List.eq_nil_iff_forall_not_mem]
  intro expr member
  obtain ⟨walks, _⟩ := walks_outputs naming outputs
  obtain ⟨seen, _⟩ := (walks.memberOf_seen_of_repeated expr member).resolve_left (nomatch ·)
  obtain ⟨first, firstSeen, same⟩ := Expr.memberOf_iff.mp seen
  have again := Expr.memberOf_of_same (Expr.same_symm same) (Expr.memberOf_of_mem member)
  obtain ⟨entry, listed, _⟩ :=
    ((inStep_table naming outputs).finished first firstSeen again).resolve_left (nomatch ·)
  rw [nothing] at listed
  cases listed

end Hoisted

/-! ## Programs -/

namespace Program

variable {naming : Naming} {inputs : List Symbol} {outputs : List Expr} {program : Program}

theorem opCount_substitute {bindings : Bindings Expr} {rename : Symbol → Symbol}
    (renames : bindings.Renames rename) (program : Program) :
    (program.substitute bindings).opCount = program.opCount := by
  have definitions : (program.substitute bindings).temporaries.map (·.definition) =
      (program.temporaries.map (·.definition)).map (Expr.substitute bindings) := by
    rw [substitute, List.map_map, List.map_map]
    rfl
  rw [opCount, definitions, Expr.opCounts_map_substitute renames, substitute,
    Expr.opCounts_map_substitute renames, opCount]

/-- A shared program has the operations of the outputs, except for those of the expressions
that are met again. -/
theorem opCount_shared (naming : Naming) (outputs : List Expr) :
    (shared naming outputs).opCount + Expr.opCounts (Survey.repeatedIn outputs) =
      Expr.opCounts outputs := by
  have counts := (Hoisted.walks_table naming outputs).opCounts_eq
  have definitions : (shared naming outputs).temporaries.map (·.definition) =
      (Hoisted.table naming outputs).map (·.definition) :=
    Hoisted.map_definition_temporaries naming _
  have start : Expr.opCounts (([] : List Hoisted).map (·.definition)) = 0 ∧
      Expr.opCounts Survey.empty.repeated = 0 := ⟨rfl, rfl⟩
  rw [opCount, definitions, Survey.repeatedIn]
  dsimp only at counts
  omega

/-- Sharing never adds work: the operations of a shared program are at most those of the
outputs, and as many only if there is no temporary.  Every temporary saves at least one. -/
theorem opCount_le_of_share (accepted : share naming inputs outputs = .ok program) :
    program.opCount ≤ (outputs.map Expr.opCount).sum ∧
      (program.opCount = (outputs.map Expr.opCount).sum ↔ program.temporaries = []) ∧
        program.opCount + program.temporaries.length ≤ (outputs.map Expr.opCount).sum := by
  obtain ⟨checked, rfl⟩ := share_eq_ok_iff_substitute.mp accepted
  obtain ⟨distinct, _, _⟩ := Naming.declares_of_checkRequest checked
  rw [opCount_substitute (Naming.renames_arrangement distinct), ← Expr.opCounts_eq_sum]
  have saved := opCount_shared naming outputs
  have pays := Expr.length_le_opCounts fun expr =>
    Hoisted.opCount_pos_of_mem_repeatedIn (Naming.check_of_checkRequest checked)
  have enough := Hoisted.length_table_le naming outputs
  have lengths : ((shared naming outputs).substitute
      (naming.arrangement inputs)).temporaries.length = (Hoisted.table naming outputs).length := by
    rw [← List.length_map (·.definition), map_definition_substitute, List.length_map,
      List.length_map]
  refine ⟨by omega, ⟨fun unchanged => ?_, fun none => ?_⟩, by omega⟩
  · exact List.eq_nil_of_length_eq_zero (by omega)
  · rw [none, List.length_nil] at lengths
    have nothing := Hoisted.repeatedIn_eq_nil_of_table (List.eq_nil_of_length_eq_zero lengths.symm)
    rw [nothing, Expr.opCounts] at saved
    exact saved

/-- A difference of two angles, both of them and the difference itself in the outputs. -/
def anglesBetween : List Expr :=
  let first := Expr.op .atan2 [.named "y", .named "x"]
  let second := Expr.op .atan2 [.named "v", .named "u"]
  [first - second, Expr.sin (first - second), first * second]

theorem opCount_share_anglesBetween :
    ∃ program,
      share .arrayed [.named "x", .named "y", .named "u", .named "v"] anglesBetween =
          .ok program ∧
        program.temporaries.length = 3 ∧
          program.opCount = 5 ∧ (anglesBetween.map Expr.opCount).sum = 10 ∧
            program.opCount + 3 ≤ (anglesBetween.map Expr.opCount).sum := by
  have accepted :
      share .arrayed [.named "x", .named "y", .named "u", .named "v"] anglesBetween =
        .ok ((shared .arrayed anglesBetween).linearize
          [.named "x", .named "y", .named "u", .named "v"] "inp") := rfl
  exact ⟨_, accepted, rfl, rfl, rfl, (opCount_le_of_share accepted).2.2⟩

end Program

end LieScribe
