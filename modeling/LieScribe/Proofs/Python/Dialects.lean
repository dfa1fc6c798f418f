import LieScribe.Proofs.Reading.RoundTrip
import LieScribe.Proofs.Traversals

/-!
# The two dialects of Python

The older dialect floors a quotient of integers, so its numerator is written as a float there.
Nothing else differs.  The quotients of an expression are listed with what the older dialect does
to their numerators, from the root downward and from left to right; the tree of the older text is
that of the newer one with its quotients changed as the list says, one by one.
-/

namespace LieScribe

namespace Python

/-! ## Numerators -/

/-- What the older dialect does to the numerator of a quotient. -/
inductive NumeratorCast where
  | kept
  | converted
  | literal (value : Int64)
  deriving DecidableEq, Repr

/-- The numerator in the older dialect. -/
def NumeratorCast.apply : NumeratorCast → ParseTree → ParseTree
  | .kept, numerator => numerator
  | .converted, numerator => .call "float" [numerator]
  | .literal value, _ => literalTree (.float (Literal.doubleOfInt value))

/-- A quotient of two integers. -/
def isIntegerQuotient (isInteger : Expr → Bool) : Expr → Bool
  | .op .div [numerator, denominator] => isInteger numerator && isInteger denominator
  | _ => false

/-- An integer as a float: a literal becomes another literal. -/
def integerCast : Expr → NumeratorCast
  | .literal (.int value) => .literal value
  | _ => .converted

/-- What the older dialect does to the numerator, if the node is a quotient. -/
def numeratorCast? (isInteger : Expr → Bool) : Expr → Option NumeratorCast
  | .op .div [numerator, denominator] =>
      some (if isInteger numerator && isInteger denominator then integerCast numerator else .kept)
  | _ => none

/-- What the older dialect does to the quotients of an expression, in the order of its nodes. -/
def numeratorCasts (isInteger : Expr → Bool) (expr : Expr) : List NumeratorCast :=
  expr.nodes.filterMap (numeratorCast? isInteger)

section Casts

variable {isInteger : Expr → Bool}

theorem filterMap_nodesOf (exprs : List Expr) :
    (Expr.nodesOf exprs).filterMap (numeratorCast? isInteger) =
      exprs.flatMap (numeratorCasts isInteger) := by
  rw [Expr.nodesOf_eq_flatMap, List.filterMap_flatMap]
  rfl

theorem numeratorCasts_op {operation : Operation} (notQuotient : operation ≠ .div)
    (arguments : List Expr) :
    numeratorCasts isInteger (.op operation arguments) =
      arguments.flatMap (numeratorCasts isInteger) := by
  have nothing : numeratorCast? isInteger (.op operation arguments) = none := by
    rw [numeratorCast?]
    rintro numerator denominator ⟨⟩
    exact notQuotient rfl
  rw [numeratorCasts, Expr.nodes, List.filterMap_cons_none nothing, filterMap_nodesOf]

theorem numeratorCasts_quotient (numerator denominator : Expr) :
    numeratorCasts isInteger (.op .div [numerator, denominator]) =
      (if isInteger numerator && isInteger denominator then integerCast numerator else .kept) ::
        (numeratorCasts isInteger numerator ++ numeratorCasts isInteger denominator) := by
  have quotient : numeratorCast? isInteger (.op .div [numerator, denominator]) = some _ := rfl
  rw [numeratorCasts, Expr.nodes, List.filterMap_cons_some quotient, filterMap_nodesOf]
  simp only [List.flatMap_cons, List.flatMap_nil, List.append_nil]

end Casts

theorem floatTree_eq_apply (numerator : TreeOperand) :
    floatTree numerator = (integerCast numerator.source).apply numerator.tree := by
  rw [floatTree.eq_def, integerCast.eq_def]
  cases numerator.source with
  | literal constant => cases constant <;> rfl
  | _ => rfl

end Python

/-! ## Quotients of a tree -/

namespace ParseTree

open Python

mutual

/-- Change the numerators of a tree, one after the other, as the list says.  What is left of
the list is returned. -/
def castQuotients : ParseTree → List NumeratorCast → ParseTree × List NumeratorCast
  | .binary .div numerator denominator, cast :: casts =>
      let (castNumerator, later) := numerator.castQuotients casts
      let (castDenominator, remaining) := denominator.castQuotients later
      (.binary .div (cast.apply castNumerator) castDenominator, remaining)
  | .binary operator left right, casts =>
      let (castLeft, later) := left.castQuotients casts
      let (castRight, remaining) := right.castQuotients later
      (.binary operator castLeft castRight, remaining)
  | .negative operand, casts =>
      let (castOperand, remaining) := operand.castQuotients casts
      (.negative castOperand, remaining)
  | .call callee arguments, casts =>
      let (castArguments, remaining) := castQuotientsOf arguments casts
      (.call callee castArguments, remaining)
  | tree, casts => (tree, casts)

def castQuotientsOf : List ParseTree → List NumeratorCast → List ParseTree × List NumeratorCast
  | [], casts => ([], casts)
  | tree :: others, casts =>
      let (castTree, later) := tree.castQuotients casts
      let (castOthers, remaining) := castQuotientsOf others later
      (castTree :: castOthers, remaining)

end

end ParseTree

namespace Python

/-- The older tree is the newer one with its quotients changed, and it has all its decimals. -/
structure Recasts (newer older : ParseTree) (casts : List NumeratorCast) : Prop where
  recast : ∀ rest, newer.castQuotients (casts ++ rest) = (older, rest)
  decimals : ∀ number ∈ newer.decimals, number ∈ older.decimals

namespace Recasts

variable {newer older newerLeft newerRight olderLeft olderRight : ParseTree}
  {casts leftCasts rightCasts : List NumeratorCast}

theorem negative (operand : Recasts newer older casts) :
    Recasts (.negative newer) (.negative older) casts := by
  refine ⟨fun rest => ?_, operand.decimals⟩
  rw [ParseTree.castQuotients, operand.recast rest]

theorem decimals_binary (operator : Operator) (left : Recasts newerLeft olderLeft leftCasts)
    (right : Recasts newerRight olderRight rightCasts) :
    ∀ number ∈ (ParseTree.binary operator newerLeft newerRight).decimals,
      number ∈ (ParseTree.binary operator olderLeft olderRight).decimals := by
  intro number member
  rw [ParseTree.decimals, List.mem_append] at member ⊢
  exact member.imp (left.decimals number) (right.decimals number)

theorem binary {operator : Operator} (notQuotient : operator ≠ .div)
    (left : Recasts newerLeft olderLeft leftCasts)
    (right : Recasts newerRight olderRight rightCasts) :
    Recasts (.binary operator newerLeft newerRight) (.binary operator olderLeft olderRight)
      (leftCasts ++ rightCasts) := by
  refine ⟨fun rest => ?_, decimals_binary operator left right⟩
  rw [ParseTree.castQuotients, List.append_assoc]
  · simp only [left.recast, right.recast]
  · intro _ _ _ isQuotient
    exact notQuotient isQuotient

/-- A quotient takes the first entry of the list, and its sides the others. -/
theorem quotient {cast : NumeratorCast}
    (bare : ∀ value, cast = .literal value → newerLeft.decimals = [])
    (left : Recasts newerLeft olderLeft leftCasts)
    (right : Recasts newerRight olderRight rightCasts) :
    Recasts (.binary .div newerLeft newerRight) (.binary .div (cast.apply olderLeft) olderRight)
      (cast :: (leftCasts ++ rightCasts)) := by
  refine ⟨fun rest => ?_, ?_⟩
  · rw [List.cons_append, ParseTree.castQuotients, List.append_assoc]
    simp only [left.recast, right.recast]
  · intro number member
    rw [ParseTree.decimals, List.mem_append] at member ⊢
    refine member.imp (fun inLeft => ?_) (right.decimals number)
    cases cast with
    | kept => exact left.decimals number inLeft
    | converted => exact List.mem_append_left _ (left.decimals number inLeft)
    | literal value =>
        rw [bare value rfl] at inLeft
        exact absurd inLeft List.not_mem_nil

/-- The trees are the same and have no quotient. -/
theorem symbol (leaf : Symbol) : Recasts (.ofSymbol leaf) (.ofSymbol leaf) [] := by
  cases leaf with
  | _ => exact ⟨fun _ => rfl, fun _ => id⟩

section Lists

variable {exprs : List Expr} {newerOf olderOf : Expr → ParseTree}
  {castsOf : Expr → List NumeratorCast}

theorem castQuotientsOf_map
    (each : ∀ expr ∈ exprs, Recasts (newerOf expr) (olderOf expr) (castsOf expr))
    (rest : List NumeratorCast) :
    ParseTree.castQuotientsOf (exprs.map newerOf) (exprs.flatMap castsOf ++ rest) =
      (exprs.map olderOf, rest) := by
  induction exprs with
  | nil =>
      rfl
  | cons first others inductionHypothesis =>
      rw [List.forall_mem_cons] at each
      rw [List.map_cons, ParseTree.castQuotientsOf, List.flatMap_cons, List.append_assoc]
      simp only [each.1.recast, inductionHypothesis each.2, List.map_cons]

theorem mem_decimalsOf_map
    (each : ∀ expr ∈ exprs, Recasts (newerOf expr) (olderOf expr) (castsOf expr)) :
    ∀ number ∈ ParseTree.decimalsOf (exprs.map newerOf),
      number ∈ ParseTree.decimalsOf (exprs.map olderOf) := by
  induction exprs with
  | nil =>
      exact List.forall_mem_nil _
  | cons first others inductionHypothesis =>
      rw [List.forall_mem_cons] at each
      intro number member
      rw [List.map_cons, ParseTree.decimalsOf, List.mem_append] at member ⊢
      exact member.imp (each.1.decimals number) (inductionHypothesis each.2 number)

theorem call (callee : String)
    (each : ∀ expr ∈ exprs, Recasts (newerOf expr) (olderOf expr) (castsOf expr)) :
    Recasts (.call callee (exprs.map newerOf)) (.call callee (exprs.map olderOf))
      (exprs.flatMap castsOf) := by
  refine ⟨fun rest => ?_, mem_decimalsOf_map each⟩
  rw [ParseTree.castQuotients, castQuotientsOf_map each]

/-- Trees that are joined from the left are changed one after the other. -/
theorem foldl {operator : Operator} (notQuotient : operator ≠ .div)
    (left : Recasts newer older casts)
    (each : ∀ expr ∈ exprs, Recasts (newerOf expr) (olderOf expr) (castsOf expr)) :
    Recasts ((exprs.map newerOf).foldl (.binary operator) newer)
      ((exprs.map olderOf).foldl (.binary operator) older) (casts ++ exprs.flatMap castsOf) := by
  induction exprs generalizing newer older casts with
  | nil =>
      simpa using left
  | cons first others inductionHypothesis =>
      rw [List.forall_mem_cons] at each
      have joined := inductionHypothesis (binary notQuotient left each.1) each.2
      rwa [List.append_assoc] at joined

end Lists

end Recasts

theorem recasts_literalTree (constant : Literal) :
    Recasts (literalTree constant) (literalTree constant) [] := by
  have same {tree : ParseTree} (unchanged : ∀ rest, tree.castQuotients rest = (tree, rest)) :
      Recasts tree tree [] := ⟨unchanged, fun _ => id⟩
  have quoted (text : String) : Recasts (.call "float" [.quoted text]) _ [] :=
    same fun _ => rfl
  cases constant with
  | int value =>
      rw [literalTree, ParseTree.ofInt]
      split <;> exact same fun _ => rfl
  | float value =>
      rw [literalTree, ParseTree.ofFloat]
      split
      · exact quoted "nan"
      · split
        · split
          · exact quoted "inf"
          · exact (quoted "inf").negative
        · split <;> exact same fun _ => rfl

/-! ## Trees of the two dialects -/

/-- The tree of the expression in the older dialect is its tree in the newer one with the
numerators changed. -/
abbrev RecastsTree (expr : Expr) : Prop :=
  Recasts (Target.python3.tree expr) (Target.python2.tree expr)
    (numeratorCasts Target.python2.isInteger expr)

theorem recasts_addLiteral {newer older : ParseTree} {casts : List NumeratorCast}
    (left : Recasts newer older casts) (constant : Literal) :
    Recasts (Target.python3.addLiteral newer constant) (Target.python2.addLiteral older constant)
      casts := by
  have added {operator : Operator} {number : ParseTree} (notQuotient : operator ≠ .div)
      (same : Recasts number number []) :
      Recasts (.binary operator newer number) (.binary operator older number) casts := by
    have joined := left.binary notQuotient same
    rwa [List.append_nil] at joined
  cases constant with
  | int value =>
      rw [Target.addLiteral, Target.addLiteral]
      split
      · exact added (by decide) ⟨fun _ => rfl, fun _ => id⟩
      · exact added (by decide) (recasts_literalTree (.int value))
  | float value =>
      rw [Target.addLiteral, Target.addLiteral]
      split
      · exact added (by decide) (recasts_literalTree (.float (-value)))
      · exact added (by decide) (recasts_literalTree (.float value))

theorem recasts_addTerms {others : List Expr} {terms : List Term}
    (each : List.Forall₂
      (Target.python2.WritesTerm fun expr _ => RecastsTree expr) others terms)
    {newer older : ParseTree} {casts : List NumeratorCast} (left : Recasts newer older casts) :
    Recasts (Target.python3.addTerms newer others) (Target.python2.addTerms older others)
      (casts ++ others.flatMap (numeratorCasts Target.python2.isInteger)) := by
  induction each generalizing newer older casts with
  | nil =>
      simpa [Target.addTerms] using left
  | cons writes _ inductionHypothesis =>
      rw [List.flatMap_cons, ← List.append_assoc]
      cases writes with
      | negated ofOperand =>
          rw [Target.addTerms, Target.addTerms, numeratorCasts_op (by decide),
            List.flatMap_singleton]
          exact inductionHypothesis (left.binary (by decide) ofOperand)
      | literal constant =>
          have none : numeratorCasts Target.python2.isInteger (.literal constant) = [] := rfl
          rw [Target.addTerms, Target.addTerms, none, List.append_nil]
          exact inductionHypothesis (recasts_addLiteral left constant)
      | plain notNegated notLiteral ofTerm =>
          rw [Target.addTerms.eq_4 _ _ _ _ notNegated notLiteral,
            Target.addTerms.eq_4 _ _ _ _ notNegated notLiteral]
          exact inductionHypothesis (left.binary (by decide) ofTerm)

theorem decimals_tree_of_integerCast {numerator : Expr} {value : Int64}
    (literal : integerCast numerator = .literal value) :
    (Target.python3.tree numerator).decimals = [] := by
  rw [integerCast.eq_def] at literal
  split at literal
  · rw [Target.tree, Target.literalTree, literalTree, ParseTree.ofInt]
    split <;> rfl
  · cases literal

/-- Only quotients of integers differ, and they differ in their numerators. -/
theorem recasts_quotient {numerator denominator : Expr}
    (ofNumerator : RecastsTree numerator)
    (ofDenominator : RecastsTree denominator) :
    Recasts
      (Target.python3.combineTree .div (Target.python3.treeOperands [numerator, denominator]))
      (Target.python2.combineTree .div (Target.python2.treeOperands [numerator, denominator]))
      (numeratorCasts Target.python2.isInteger (.op .div [numerator, denominator])) := by
  rw [numeratorCasts_quotient]
  simp only [Target.treeOperands, Target.combineTree, combineTree, Bool.false_and, Bool.true_and,
    Bool.false_eq_true, if_false]
  split
  · rw [floatTree_eq_apply]
    exact ofNumerator.quotient (fun _ => decimals_tree_of_integerCast) ofDenominator
  · have kept : ∀ value, NumeratorCast.kept = .literal value →
        (Target.python3.tree numerator).decimals = [] := by
      rintro value ⟨⟩
    exact ofNumerator.quotient kept ofDenominator

theorem recasts_combineTree {operation : Operation} {operands : List Operand} {fragment : Fragment}
    (accepted : operation.arity.accepts operands.length = true)
    (each : ∀ operand ∈ operands, RecastsTree operand.source)
    (combined : combine? true operation operands = some fragment) :
    Recasts
      (Target.python3.combineTree operation
        (Target.python3.treeOperands (operands.map Operand.source)))
      (Target.python2.combineTree operation
        (Target.python2.treeOperands (operands.map Operand.source)))
      (numeratorCasts Target.python2.isInteger (.op operation (operands.map Operand.source))) := by
  have trees (target : Target) (exprs : List Expr) :
      (target.treeOperands exprs).map (·.tree) = exprs.map target.tree := by
    rw [Target.treeOperands_eq_map, List.map_map]
    rfl
  have sources : ∀ expr ∈ operands.map Operand.source, RecastsTree expr :=
    List.forall_mem_map.mpr each
  have pair (left right : Expr) : [left, right].flatMap (numeratorCasts Target.python2.isInteger) =
      numeratorCasts Target.python2.isInteger left ++
        numeratorCasts Target.python2.isInteger right := by
    simp only [List.flatMap_cons, List.flatMap_nil, List.append_nil]
  cases combines_of_combine? combined with
  | difference | product =>
      cases operands with
      | nil => cases accepted
      | cons first others =>
          rw [List.map_cons, List.forall_mem_cons] at sources
          rw [List.map_cons, numeratorCasts_op (by decide), List.flatMap_cons]
          simp only [Target.treeOperands, Target.combineTree, combineTree, trees]
          exact sources.1.foldl (by decide) sources.2
  | quotient numerator denominator =>
      rw [List.forall_mem_cons, List.forall_mem_singleton] at each
      exact recasts_quotient each.1 each.2
  | power base exponent =>
      rw [List.forall_mem_cons, List.forall_mem_singleton] at each
      rw [List.map_cons, List.map_singleton, numeratorCasts_op (by decide), pair]
      exact each.1.binary (by decide) each.2
  | negation operand =>
      rw [List.forall_mem_singleton] at each
      rw [List.map_singleton, numeratorCasts_op (by decide), List.flatMap_singleton]
      exact each.negative
  | comparison left right found =>
      obtain ⟨operator, isOperator, _, compares⟩ :=
        Operation.comparison?_of_comparisonSign? found
      rw [List.forall_mem_cons, List.forall_mem_singleton] at each
      have notDivision : operation ≠ .div := by
        rintro rfl
        cases found
      have notQuotient : operator ≠ .div := by
        rintro rfl
        cases compares
      rw [List.map_cons, List.map_singleton, numeratorCasts_op notDivision, pair]
      simp only [Target.treeOperands, Target.combineTree, combineTree_comparison isOperator]
      exact each.1.binary notQuotient each.2
  | call _ found =>
      have notDivision : operation ≠ .div := by
        rintro rfl
        cases found
      simp only [numeratorCasts_op notDivision, Target.combineTree,
        (combineTree_call found _).1, trees]
      exact .call _ sources

theorem recastsTree_write {expr : Expr} {fragment : Fragment}
    (written : Target.python2.write expr = .ok fragment) :
    RecastsTree expr := by
  refine Target.write_induct
    (motive := fun expr _ => RecastsTree expr)
    ?symbol ?literal ?sum ?combined written
  case symbol =>
    intro leaf
    exact .symbol leaf
  case literal =>
    intro constant
    exact recasts_literalTree constant
  case sum =>
    intro first others head terms ofFirst ofOthers
    rw [RecastsTree, numeratorCasts_op (by decide), List.flatMap_cons, Target.tree, Target.tree]
    exact recasts_addTerms ofOthers ofFirst
  case combined =>
    intro operation operands fragment accepted notSum each combined
    rw [RecastsTree, Target.tree_op notSum, Target.tree_op notSum]
    exact recasts_combineTree accepted (fun operand member => (each operand member).2) combined

/-! ## Fragments of the two dialects -/

/-- How tightly the text of an expression binds. -/
def precedence : Expr → Precedence
  | .symbol _ => .atom
  | .literal constant => (literal constant).precedence
  | .op .add _ | .op .sub _ => .sum
  | .op .mul _ | .op .div _ => .product
  | .op .pow _ => .power
  | .op .neg _ => .unary
  | .op .lt _ | .op .le _ | .op .gt _ | .op .ge _ => .comparison
  | .op _ _ => .atom

theorem precedence_combine? {floors : Bool} {operation : Operation} {operands : List Operand}
    {fragment : Fragment} (arguments : List Expr)
    (combined : combine? floors operation operands = some fragment) :
    fragment.precedence = precedence (.op operation arguments) := by
  cases combines_of_combine? combined with
  | difference | product => cases operands <;> rfl
  | quotient | power | negation => rfl
  | comparison _ _ found =>
      cases operation <;> first | rfl | cases found
  | call _ found =>
      cases operation <;> first | rfl | cases found

/-- Both dialects give a text the precedence of its expression. -/
theorem precedence_write {target : Target} (python : target.isPython = true) {expr : Expr}
    {fragment : Fragment} (written : target.write expr = .ok fragment) :
    fragment.precedence = precedence expr := by
  refine Target.write_induct
    (motive := fun expr fragment => fragment.precedence = precedence expr)
    ?symbol ?literal ?sum ?combined written
  case symbol =>
    intro leaf
    rfl
  case literal =>
    intro constant
    cases target with
    | python2 | python3 => rfl
    | cpp => cases python
  case sum =>
    intros
    rfl
  case combined =>
    intro operation operands fragment _ _ _ combined
    cases target with
    | python2 | python3 => exact precedence_combine? _ combined
    | cpp => cases python

/-- A quotient of integers is the only operation that the dialects write differently. -/
theorem combine?_eq_of_kept {operation : Operation} {operands : List Operand}
    (kept : ∀ numerator denominator, operation = .div → operands = [numerator, denominator] →
      (numerator.fragment.integer && denominator.fragment.integer) = false) :
    combine? true operation operands = combine? false operation operands := by
  rw [combine?.eq_def, combine?.eq_def]
  split
  case h_3 numerator denominator =>
    rw [quotient, quotient, Bool.true_and, kept numerator denominator rfl rfl, Bool.false_and,
      Bool.false_and]
  all_goals rfl

/-- No quotient in the expression is one of integers. -/
abbrev KeepsNumerators (expr : Expr) : Prop :=
  ∀ node ∈ expr.nodes, isIntegerQuotient Target.python2.isInteger node = false

theorem terms_eq_of_kept {others : List Expr} {terms newTerms : List Term}
    (each : List.Forall₂
      (Target.python2.WritesTerm fun expr older =>
        KeepsNumerators expr → ∀ newer, Target.python3.write expr = .ok newer → newer = older)
      others terms)
    (kept : ∀ other ∈ others, KeepsNumerators other)
    (written : Target.python3.writeTerms others = .ok newTerms) : newTerms = terms := by
  induction each generalizing newTerms with
  | nil =>
      cases written
      rfl
  | cons writes _ inductionHypothesis =>
      rw [List.forall_mem_cons] at kept
      cases writes with
      | negated ofOperand =>
          obtain ⟨fragment, further, ofFragment, ofFurther, rfl⟩ :=
            Target.writeTerms_neg_eq_ok_iff.mp written
          have operandKept := (Expr.forall_nodes_op.mp kept.1).2 _ List.mem_cons_self
          rw [ofOperand operandKept fragment ofFragment, inductionHypothesis kept.2 ofFurther]
      | literal constant =>
          obtain ⟨further, ofFurther, rfl⟩ := Target.writeTerms_literal_eq_ok_iff.mp written
          rw [inductionHypothesis kept.2 ofFurther]
          rfl
      | plain notNegated notLiteral ofTerm =>
          obtain ⟨fragment, further, ofFragment, ofFurther, rfl⟩ :=
            (Target.writeTerms_cons_eq_ok_iff notNegated notLiteral).mp written
          rw [ofTerm kept.1 fragment ofFragment, inductionHypothesis kept.2 ofFurther]

theorem operands_eq_of_kept {operands newOperands : List Operand}
    (each : ∀ operand ∈ operands, ∀ newer, Target.python3.write operand.source = .ok newer →
      newer = operand.fragment)
    (written : Target.python3.writeAll (operands.map Operand.source) = .ok newOperands) :
    newOperands = operands := by
  induction operands generalizing newOperands with
  | nil =>
      cases written
      rfl
  | cons operand others inductionHypothesis =>
      rw [List.forall_mem_cons] at each
      obtain ⟨fragment, further, ofFragment, ofFurther, rfl⟩ :=
        Target.writeAll_cons_eq_ok_iff.mp written
      rw [each.1 fragment ofFragment, inductionHypothesis each.2 ofFurther]

/-- Without quotients of integers, the dialects write the same. -/
theorem write_eq_of_kept {expr : Expr} {older : Fragment}
    (written : Target.python2.write expr = .ok older) (kept : KeepsNumerators expr) :
    ∀ newer, Target.python3.write expr = .ok newer → newer = older := by
  refine Target.write_induct
    (motive := fun expr older =>
      KeepsNumerators expr → ∀ newer, Target.python3.write expr = .ok newer → newer = older)
    ?symbol ?literal ?sum ?combined written kept
  case symbol =>
    rintro leaf _ newer ⟨⟩
    rfl
  case literal =>
    rintro constant _ newer ⟨⟩
    rfl
  case sum =>
    intro first others head terms ofFirst ofOthers kept newer newerWritten
    have each := (Expr.forall_nodes_op.mp kept).2
    rw [List.forall_mem_cons] at each
    obtain ⟨_, newHead, newTerms, ofHead, ofTerms, rfl⟩ :=
      Target.write_sum_eq_ok_iff.mp newerWritten
    rw [ofFirst each.1 newHead ofHead, terms_eq_of_kept ofOthers each.2 ofTerms]
  case combined =>
    intro operation operands fragment _ notSum each combined kept newer newerWritten
    obtain ⟨here, below⟩ := Expr.forall_nodes_op.mp kept
    rw [List.forall_mem_map] at below
    obtain ⟨_, _, newOperands, ofOperands, newCombined⟩ :=
      (Target.write_op_eq_ok_iff fun _ _ isSum _ => notSum isSum).mp newerWritten
    have same : newOperands = operands :=
      operands_eq_of_kept (fun operand member => (each operand member).2 (below operand member))
        ofOperands
    subst same
    have alike : combine? true operation newOperands = combine? false operation newOperands := by
      apply combine?_eq_of_kept
      rintro numerator denominator rfl rfl
      rw [List.forall_mem_cons, List.forall_mem_singleton] at each
      rw [Target.integer_write each.1.1, Target.integer_write each.2.1]
      exact here
    exact Option.some.inj (newCombined.symm.trans (alike.symm.trans combined))

/-! ## Printed integers -/

theorem isInteger_newer (expr : Expr) :
    Target.python3.isInteger expr = Target.python2.isInteger expr := by
  induction expr with
  | symbol leaf => rfl
  | literal constant => cases constant <;> rfl
  | op operation arguments each =>
      have kept : Target.python3.keepsIntegers operation =
          Target.python2.keepsIntegers operation := by
        cases operation <;> rfl
      have all : Target.python3.areIntegers arguments = Target.python2.areIntegers arguments := by
        induction arguments with
        | nil => rfl
        | cons first others inductionHypothesis =>
            rw [List.forall_mem_cons] at each
            rw [Target.areIntegers, Target.areIntegers, each.1, inductionHypothesis each.2]
      rw [Target.isInteger, Target.isInteger, kept, all]
      rfl

end Python

/-- Is the expression written, and marked as an integer? -/
def Target.writesInteger (target : Target) (expr : Expr) : Bool :=
  match target.write expr with
  | .ok fragment => fragment.integer
  | .error _ => false

namespace Python

variable {expr : Expr}

/-- In an expression that can be written, the marks of all arguments are the same in both
dialects. -/
theorem writesInteger_argument (written : ∃ fragment, Target.python3.write expr = .ok fragment)
    {operation : Operation} {arguments : List Expr} {argument : Expr}
    (inside : .op operation arguments ∈ expr.nodes) (isArgument : argument ∈ arguments) :
    Target.python3.writesInteger argument = Target.python2.isInteger argument := by
  have occurs : Expr.Occurs [expr] argument :=
    .argument (Expr.mem_nodes_iff.mp inside) isArgument
  have faultless : ∀ node ∈ argument.nodes, node.isFaulty = false := by
    intro node below
    refine Target.exists_write_eq_ok_iff.mp written node (Expr.mem_nodes_iff.mpr ?_)
    exact (Expr.mem_nodes_iff.mp below).mono (List.forall_mem_singleton.mpr occurs)
  obtain ⟨fragment, ofArgument⟩ := Target.exists_write_eq_ok_iff.mpr faultless
  rw [Target.writesInteger, ofArgument, ← isInteger_newer]
  exact Target.integer_write ofArgument

theorem isIntegerQuotient_writesInteger
    (written : ∃ fragment, Target.python3.write expr = .ok fragment) {node : Expr}
    (inside : node ∈ expr.nodes) :
    isIntegerQuotient Target.python3.writesInteger node =
      isIntegerQuotient Target.python2.isInteger node := by
  rw [isIntegerQuotient.eq_def, isIntegerQuotient.eq_def]
  split
  · rw [writesInteger_argument written inside (by simp),
      writesInteger_argument written inside (by simp)]
  · rfl

theorem numeratorCasts_writesInteger
    (written : ∃ fragment, Target.python3.write expr = .ok fragment) :
    numeratorCasts Target.python3.writesInteger expr =
      numeratorCasts Target.python2.isInteger expr := by
  refine List.filterMap_congr fun node inside => ?_
  rw [numeratorCast?.eq_def, numeratorCast?.eq_def]
  split
  · rw [writesInteger_argument written inside (by simp),
      writesInteger_argument written inside (by simp)]
  · rfl

/-! ## The dialects -/

/-- The dialects refuse the same expressions.  A function is reported with the dialect that
refuses it. -/
theorem write_eq_error_of_isFaulty {node : Expr}
    (found : expr.nodes.find? Expr.isFaulty = some node) :
    (∃ name,
        Target.python2.write expr = .error (.unsupportedOperation name .python2) ∧
          Target.python3.write expr = .error (.unsupportedOperation name .python3)) ∨
      ∃ name arity count,
        Target.python2.write expr = .error (.malformedOperation name arity count) ∧
          Target.python3.write expr = .error (.malformedOperation name arity count) := by
  cases node with
  | symbol leaf => cases List.find?_some found
  | literal constant => cases List.find?_some found
  | op operation arguments =>
      rw [Target.write_eq_error_of_find? found, Target.write_eq_error_of_find? found]
      split
      · exact .inl ⟨_, rfl, rfl⟩
      · exact .inr ⟨_, _, _, rfl, rfl⟩

/-- The texts of both dialects read as trees that differ in the numerators. -/
theorem read?_recast {older newer : Fragment} (olderWritten : Target.python2.write expr = .ok older)
    (newerWritten : Target.python3.write expr = .ok newer) {decimal? : String → Option Float}
    (identifiers : expr.UsesIdentifiers)
    (readsBack : Lexicon.ReadsBack ⟨true, decimal?⟩ (Target.python2.tree expr)) :
    ∃ olderTree newerTree,
      Lexicon.read? ⟨true, decimal?⟩ older.text = some olderTree ∧
        Lexicon.read? ⟨true, decimal?⟩ newer.text = some newerTree ∧
        newerTree.castQuotients (numeratorCasts Target.python3.writesInteger expr) =
          (olderTree, []) := by
  have recasts := recastsTree_write olderWritten
  have newerBack : Lexicon.ReadsBack ⟨true, decimal?⟩ (Target.python3.tree expr) :=
    fun number member => readsBack number (recasts.decimals number member)
  have dialect (target : Target) (python : target.isPython = true) :
      (Lexicon.mk true decimal?).python = target.isPython := python.symm
  have olderReads := Target.readsAs_write (dialect .python2 rfl) olderWritten identifiers
  have newerReads := Target.readsAs_write (dialect .python3 rfl) newerWritten identifiers
  refine ⟨_, _, olderReads.whole.read? readsBack, newerReads.whole.read? newerBack, ?_⟩
  have recast := recasts.recast []
  rwa [List.append_nil, ← numeratorCasts_writesInteger ⟨newer, newerWritten⟩] at recast

/-- The older and the newer dialect differ in the numerators of quotients of integers only.  Both
refuse an expression for the same reason, or both write it with the same precedence and mark.  What
they write is the same if there is no quotient of integers; in general the older text reads as the
tree of the newer one with the numerators of these quotients made floats. -/
theorem dialects_differ_in_numerators (expr : Expr) :
    (∃ older newer,
        Target.python2.write expr = .ok older ∧ Target.python3.write expr = .ok newer ∧
          older.precedence = newer.precedence ∧ older.integer = newer.integer ∧
          ((∀ node ∈ expr.nodes,
              isIntegerQuotient Target.python3.writesInteger node = false) →
            older = newer) ∧
          ∀ decimal?, expr.UsesIdentifiers →
            Lexicon.ReadsBack ⟨true, decimal?⟩ (Target.python2.tree expr) →
              ∃ olderTree newerTree,
                Lexicon.read? ⟨true, decimal?⟩ older.text = some olderTree ∧
                  Lexicon.read? ⟨true, decimal?⟩ newer.text = some newerTree ∧
                  newerTree.castQuotients (numeratorCasts Target.python3.writesInteger expr) =
                    (olderTree, [])) ∨
      (∃ name,
        Target.python2.write expr = .error (.unsupportedOperation name .python2) ∧
          Target.python3.write expr = .error (.unsupportedOperation name .python3)) ∨
      ∃ name arity count,
        Target.python2.write expr = .error (.malformedOperation name arity count) ∧
          Target.python3.write expr = .error (.malformedOperation name arity count) := by
  cases found : expr.nodes.find? Expr.isFaulty with
  | some node =>
      exact .inr (write_eq_error_of_isFaulty found)
  | none =>
      have faultless : ∀ node ∈ expr.nodes, node.isFaulty = false := by
        simpa using found
      have written (target : Target) : ∃ fragment, target.write expr = .ok fragment :=
        Target.exists_write_eq_ok_iff.mpr faultless
      obtain ⟨older, olderWritten⟩ := written .python2
      obtain ⟨newer, newerWritten⟩ := written .python3
      refine .inl ⟨older, newer, olderWritten, newerWritten, ?_, ?_, fun kept => ?_,
        fun decimal? identifiers readsBack =>
          read?_recast olderWritten newerWritten identifiers readsBack⟩
      · rw [precedence_write rfl olderWritten, precedence_write rfl newerWritten]
      · rw [Target.integer_write olderWritten, Target.integer_write newerWritten, isInteger_newer]
      · refine (write_eq_of_kept olderWritten (fun node inside => ?_) newer newerWritten).symm
        rw [← isIntegerQuotient_writesInteger ⟨newer, newerWritten⟩ inside]
        exact kept node inside

/-- A quotient of quotients: a sum over a negative literal, over a negative literal over a
comparison. -/
def nestedQuotients : Expr :=
  .op .div
    [.op .div [.op .add [.literal (.int 1), .literal (.int 2)], .literal (.int (-3))],
      .op .div [.literal (.int (-7)), .op .lt [.symbol (.named "x"), .literal (.float 0.5)]]]

theorem dialects_differ_in_nestedQuotients :
    Target.python2.write nestedQuotients =
        .ok ⟨"float(1 + 2)/-3/(-7.0/(x < 0.5))", .product, false⟩ ∧
      Target.python3.write nestedQuotients =
        .ok ⟨"(1 + 2)/-3/(-7/(x < 0.5))", .product, false⟩ ∧
      ∃ olderTree newerTree,
        Lexicon.read? ⟨true, ([("7.0", 7.0), ("0.5", 0.5)].lookup ·)⟩
            "float(1 + 2)/-3/(-7.0/(x < 0.5))" = some olderTree ∧
          Lexicon.read? ⟨true, ([("7.0", 7.0), ("0.5", 0.5)].lookup ·)⟩
            "(1 + 2)/-3/(-7/(x < 0.5))" = some newerTree ∧
          newerTree.castQuotients [.kept, .converted, .literal (-7)] = (olderTree, []) := by
  have olderWritten : Target.python2.write nestedQuotients =
      .ok ⟨"float(1 + 2)/-3/(-7.0/(x < 0.5))", .product, false⟩ := by
    decide +kernel
  have newerWritten : Target.python3.write nestedQuotients =
      .ok ⟨"(1 + 2)/-3/(-7/(x < 0.5))", .product, false⟩ := by
    decide +kernel
  have casts : numeratorCasts Target.python3.writesInteger nestedQuotients =
      [.kept, .converted, .literal (-7)] := by
    decide +kernel
  refine ⟨olderWritten, newerWritten, ?_⟩
  obtain ⟨older, newer, isOlder, isNewer, _, _, _, reads⟩ | ⟨_, fails, _⟩ | ⟨_, _, _, fails, _⟩ :=
    dialects_differ_in_numerators nestedQuotients
  · obtain rfl := Except.ok.inj (isOlder.symm.trans olderWritten)
    obtain rfl := Except.ok.inj (isNewer.symm.trans newerWritten)
    rw [casts] at reads
    exact reads _ (by decide) (by decide)
  · rw [olderWritten] at fails
    cases fails
  · rw [olderWritten] at fails
    cases fails

end Python

end LieScribe
