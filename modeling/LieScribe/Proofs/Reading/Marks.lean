import LieScribe.Proofs.Expr
import LieScribe.Proofs.Reading.Translation

/-!
# Trees and their marks

A text is marked as an integer or not, and the mark of an expression is known from the marks
of its arguments.  What is to be shown about trees together with their marks is shown for
symbols, literals, sums and differences of two trees, and the other operations; from there it
passes to the trees of all written expressions, with the terms of a sum joined one by one.
-/

namespace LieScribe.Target

variable {target : Target} {holds : ParseTree → Bool → Prop}

/-- What passes to two joined trees passes to trees joined from the left. -/
theorem holds_foldl {operator : Operator}
    (joined : ∀ {left right leftInteger rightInteger}, holds left leftInteger →
      holds right rightInteger →
        holds (.binary operator left right) (leftInteger && rightInteger))
    {operands : List TreeOperand} {left : ParseTree} {integer : Bool} (ofLeft : holds left integer)
    (each : ∀ operand ∈ operands, holds operand.tree (target.isInteger operand.source)) :
    holds ((operands.map (·.tree)).foldl (.binary operator) left)
      (integer && target.areIntegers (operands.map (·.source))) := by
  induction operands generalizing left integer with
  | nil =>
      rwa [List.map_nil, List.map_nil, areIntegers, Bool.and_true]
  | cons first others inductionHypothesis =>
      rw [List.forall_mem_cons] at each
      rw [List.map_cons, List.map_cons, List.foldl_cons, areIntegers, ← Bool.and_assoc]
      exact inductionHypothesis (joined ofLeft each.1) each.2

/-- What is to be shown holds of numbers and literals, and passes to sums and differences. -/
structure Joins (target : Target) (holds : ParseTree → Bool → Prop) : Prop where
  integer : ∀ value, holds (.integer value) true
  literal : ∀ constant, holds (target.literalTree constant) (target.isInteger (.literal constant))
  add : ∀ {left right leftInteger rightInteger}, holds left leftInteger →
    holds right rightInteger → holds (.binary .add left right) (leftInteger && rightInteger)
  sub : ∀ {left right leftInteger rightInteger}, holds left leftInteger →
    holds right rightInteger → holds (.binary .sub left right) (leftInteger && rightInteger)

theorem Joins.addLiteral (joins : target.Joins holds) {left : ParseTree} {integer : Bool}
    (ofLeft : holds left integer) (constant : Literal) :
    holds (target.addLiteral left constant)
      (integer && target.isInteger (.literal constant)) := by
  cases constant with
  | int value =>
      rw [Target.addLiteral]
      split
      · exact joins.sub ofLeft (joins.integer _)
      · exact joins.add ofLeft (joins.literal (.int value))
  | float value =>
      rw [Target.addLiteral]
      split
      · exact joins.sub ofLeft (joins.literal (.float (-value)))
      · exact joins.add ofLeft (joins.literal (.float value))

theorem Joins.addTerms (joins : target.Joins holds) {left : ParseTree} {integer : Bool}
    {others : List Expr} {terms : List Term}
    (each : List.Forall₂
      (target.WritesTerm fun expr _ =>
        (∀ leaf ∈ expr.symbols, holds (.ofSymbol leaf) false) →
          holds (target.tree expr) (target.isInteger expr))
      others terms)
    (symbols : ∀ other ∈ others, ∀ leaf ∈ other.symbols, holds (.ofSymbol leaf) false)
    (ofLeft : holds left integer) :
    holds (target.addTerms left others) (integer && target.areIntegers others) := by
  induction each generalizing left integer with
  | nil =>
      rwa [Target.addTerms, areIntegers, Bool.and_true]
  | cons writes _ inductionHypothesis =>
      rw [List.forall_mem_cons] at symbols
      rw [areIntegers, ← Bool.and_assoc]
      cases writes with
      | negated ofOperand =>
          have operand := ofOperand (Expr.forall_symbols_op.mp symbols.1 _ List.mem_cons_self)
          rw [Target.addTerms, isInteger_neg]
          exact inductionHypothesis symbols.2 (joins.sub ofLeft operand)
      | literal constant =>
          rw [Target.addTerms]
          exact inductionHypothesis symbols.2 (joins.addLiteral ofLeft constant)
      | plain notNegated notLiteral ofTerm =>
          rw [Target.addTerms.eq_4 _ _ _ _ notNegated notLiteral]
          exact inductionHypothesis symbols.2 (joins.add ofLeft (ofTerm symbols.1))

/-- What holds of symbols and passes to sums and to the other operations holds of the trees
of written expressions. -/
theorem Joins.tree (joins : target.Joins holds)
    (combined : ∀ {operation : Operation} {written : List Operand} {operands : List TreeOperand}
      {fragment : Fragment}, operation.arity.accepts operands.length = true →
      written.length = operands.length →
      (∀ operand ∈ operands, holds operand.tree (target.isInteger operand.source)) →
      target.combine? operation written = some fragment →
        holds (target.combineTree operation operands)
          (target.isInteger (.op operation (operands.map (·.source)))))
    {expr : Expr} {fragment : Fragment} (written : target.write expr = .ok fragment)
    (symbols : ∀ leaf ∈ expr.symbols, holds (.ofSymbol leaf) false) :
    holds (target.tree expr) (target.isInteger expr) := by
  refine write_induct
    (motive := fun expr _ => (∀ leaf ∈ expr.symbols, holds (.ofSymbol leaf) false) →
      holds (target.tree expr) (target.isInteger expr))
    ?symbol ?literal ?sum ?combined written symbols
  case symbol =>
    intro leaf symbols
    rw [Target.tree, isInteger]
    exact symbols leaf (Expr.mem_symbols_symbol.mpr rfl)
  case literal =>
    intro constant _
    rw [Target.tree]
    exact joins.literal constant
  case sum =>
    intro first others head terms ofFirst ofOthers symbols
    have each := Expr.forall_symbols_op.mp symbols
    rw [List.forall_mem_cons] at each
    rw [Target.tree, isInteger_add]
    exact joins.addTerms ofOthers each.2 (ofFirst each.1)
  case combined =>
    intro operation operands fragment accepted notSum each found symbols
    have operandsHold : ∀ argument ∈ target.treeOperands (operands.map Operand.source),
        holds argument.tree (target.isInteger argument.source) := by
      rw [treeOperands_eq_map, List.map_map, List.forall_mem_map]
      intro operand member
      exact (each operand member).2
        (Expr.forall_symbols_op.mp symbols _ (List.mem_map_of_mem member))
    have result := combined (by simpa [treeOperands_eq_map] using accepted)
      (by simp [treeOperands_eq_map]) operandsHold found
    rw [map_source_treeOperands] at result
    rw [tree_op notSum]
    exact result

end LieScribe.Target
