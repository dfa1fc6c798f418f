import LieScribe.Proofs.Sharing.Expansion

/-!
# Sharing is faithful

Expanding the temporaries of a shared program gives the requested outputs back, up
to sameness of expressions.  It cannot give them back literally: of two equal
expressions that differ in the sign of a zero only one is kept.
-/

namespace LieScribe

namespace Hoisted

/-- Sameness of expressions is a relation that sharing respects. -/
theorem respects_same (outputs : List Expr) :
    Respects outputs fun expansion expr => expansion.same expr = true where
  atom expr _ := Expr.same_refl expr
  op _ _ _ pairwise := Expr.same_op_iff.mpr ⟨_, rfl, pairwise⟩
  merge _ _ _ same related := Expr.same_trans related same

end Hoisted

namespace Program

/-- A program that shares expressions under the names of its inputs expands to
the expressions it was made from. -/
theorem sameAll_inline_of_share {naming : Naming} {inputs : List Symbol}
    {outputs : List Expr} {program : Program}
    (inputsNamed : naming.linear = false)
    (accepted : share naming inputs outputs = .ok program) :
    Expr.sameAll program.inline outputs = true := by
  obtain ⟨checked, rfl⟩ := (share_eq_ok_iff inputsNamed).mp accepted
  rw [Expr.sameAll_iff_forall₂]
  exact forall₂_inline_shared (Hoisted.respects_same outputs)
    (Naming.unreserved_of_checkRequest checked)

/-- A cosine repeated on its own and, below an uninterpreted function, inside a
repeated quotient; the two quotients differ in the sign of a zero. -/
def repetitiveOutputs : List Expr :=
  let cosine := Expr.cos (.named "x")
  let product := Expr.op (.function "lift") [.op .mul [cosine, 2, .element "a" 0]]
  [product / .float 0.0, product / .float (-0.0), cosine]

theorem sameAll_inline_repetitiveOutputs :
    ∃ program,
      share ⟨false, "a", "inp"⟩ [.named "x", .element "a" 0] repetitiveOutputs =
          .ok program ∧
        program.temporaries.length = 2 ∧
          Expr.sameAll program.inline repetitiveOutputs = true := by
  have accepted :
      share ⟨false, "a", "inp"⟩ [.named "x", .element "a" 0] repetitiveOutputs =
        .ok (shared ⟨false, "a", "inp"⟩ repetitiveOutputs) := rfl
  exact ⟨_, accepted, rfl, sameAll_inline_of_share rfl accepted⟩

end Program

end LieScribe
