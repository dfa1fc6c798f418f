import LieScribe.Proofs.Applications
import LieScribe.Proofs.Sharing.Idempotence

/-!
# The applications of a program

Sharing and arranging move operations around and give arguments new names, but they apply
the operations of the request, each to the number of arguments it had there, and no others:
expanding a program applies nothing that the program does not, and what it expands to is the
request.
-/

namespace LieScribe.Program

variable {operation : Operation} {count : Nat}

/-! ## Expansions -/

/-- An expansion applies what definitions apply. -/
theorem applies_of_expandAll {expansions : Bindings Expr} {temporaries : List Temporary}
    {symbol : Symbol} {expansion : Expr}
    (found : (temporaries.foldl expandOne expansions).get? symbol = some expansion)
    (applies : Expr.Applies [expansion] operation count) :
    Expr.Applies (temporaries.map (·.definition)) operation count ∨
      ∃ earlier put, expansions.get? earlier = some put ∧ Expr.Applies [put] operation count := by
  induction temporaries generalizing expansions with
  | nil =>
      exact .inr ⟨symbol, expansion, found, applies⟩
  | cons temporary others inductionHypothesis =>
      rw [List.map_cons, Expr.applies_cons]
      rcases inductionHypothesis found with later | ⟨earlier, put, bound, inPut⟩
      · exact .inl (.inr later)
      · rw [expandOne, Bindings.get?_bind] at bound
        split at bound
        · obtain rfl := Option.some.inj bound
          rcases Expr.applies_map_substitute_iff.mp
              (show Expr.Applies ([temporary.definition].map (Expr.substitute expansions))
                operation count from inPut) with
            here | ⟨earlier, _, before⟩
          · exact .inl (.inl here)
          · exact .inr ⟨earlier, before⟩
        · exact .inr ⟨earlier, put, bound, inPut⟩

/-- Expanding a program applies nothing new. -/
theorem applies_exprs_of_applies_inline {program : Program}
    (applies : Expr.Applies program.inline operation count) :
    Expr.Applies program.exprs operation count := by
  rw [exprs, Expr.applies_append]
  rcases Expr.applies_map_substitute_iff.mp applies with
    inOutputs | ⟨symbol, _, expansion, found, inExpansion⟩
  · exact .inr inOutputs
  · refine .inl ((applies_of_expandAll found inExpansion).resolve_right ?_)
    rintro ⟨_, _, unbound, _⟩
    cases unbound

/-! ## Shared programs -/

variable {naming : Naming} {outputs : List Expr}

/-- A definition applies what the expression applies that its temporary is for. -/
theorem applies_of_definition (unreserved : ∀ output ∈ outputs, naming.Unreserved output)
    {entry : Hoisted} (member : entry ∈ Hoisted.table naming outputs)
    (applies : Expr.Applies [entry.definition] operation count) :
    Expr.Applies outputs operation count := by
  have sound := Hoisted.sound_table unreserved
  obtain ⟨position, found⟩ := List.mem_iff_getElem?.mp member
  obtain ⟨_, _, _, occurs, _⟩ := sound.exists_expansion found
  have same := (sound.expands_definition entry member).relates
  have inExpanded : Expr.Applies
      [Hoisted.expanded naming (Hoisted.table naming outputs) entry.definition]
      operation count := Expr.applies_map_substitute_iff.mpr (.inl applies)
  have inSource := (Expr.applies_iff_of_same (.cons same .nil)).mp inExpanded
  exact inSource.mono (List.forall_mem_singleton.mpr occurs)

/-- A shared program applies what its outputs apply. -/
theorem applies_shared_iff (unreserved : ∀ output ∈ outputs, naming.Unreserved output) :
    Expr.Applies (shared naming outputs).exprs operation count ↔
      Expr.Applies outputs operation count := by
  have pairwise := forall₂_inline_shared (Hoisted.respects_same outputs) unreserved
  have inlined : Expr.Applies (shared naming outputs).inline operation count ↔
      Expr.Applies outputs operation count := Expr.applies_iff_of_same pairwise
  constructor
  · intro applies
    rw [exprs, Expr.applies_append] at applies
    rcases applies with inDefinitions | inOutputs
    · obtain ⟨definition, member, inDefinition⟩ := inDefinitions.exists_mem
      rw [shared, Hoisted.map_definition_temporaries] at member
      obtain ⟨entry, entryMember, rfl⟩ := List.mem_map.mp member
      exact applies_of_definition unreserved entryMember inDefinition
    · exact inlined.mp (Expr.applies_map_substitute_iff.mpr (.inl inOutputs))
  · intro applies
    exact applies_exprs_of_applies_inline (inlined.mpr applies)

end LieScribe.Program
