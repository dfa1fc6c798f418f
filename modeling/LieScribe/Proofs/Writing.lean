import LieScribe.Proofs.Outcome
import LieScribe.Target.Writing
import Mathlib.Data.List.Forall2

/-!
# What writing can do

What one step of the walk needs and gives is said once for each kind of step, and the
texts that an operation can have are listed once for each language.  A relation between
expressions and their texts is then shown for symbols, for literals, for sums with
their terms, and for the other operations with their operands: `Target.write_induct` is
this principle of induction, and no other statement about texts opens the walk.
-/

namespace LieScribe

/-! ## Operations -/

/-- The texts of operations in Python, where `floors` tells whether quotients of
integers are floored. -/
inductive Python.Combines (floors : Bool) : Operation → List Operand → Fragment → Prop
  | difference (operands : List Operand) :
      Combines floors .sub operands (.chain " - " .sum (operands.map (·.fragment)))
  | product (operands : List Operand) :
      Combines floors .mul operands (.chain "*" .product (operands.map (·.fragment)))
  | quotient (numerator denominator : Operand) :
      Combines floors .div [numerator, denominator] (quotient floors numerator denominator)
  | power (base exponent : Operand) :
      Combines floors .pow [base, exponent] (power base.fragment exponent.fragment)
  | negation (operand : Operand) :
      Combines floors .neg [operand] operand.fragment.negation
  | comparison {operation : Operation} {sign : String} (left right : Operand) :
      operation.comparisonSign? = some sign →
      Combines floors operation [left, right] (.comparison sign left.fragment right.fragment)
  | call {operation : Operation} {callee : String} {keepsInteger : Bool}
      (operands : List Operand) :
      callee? operation = some (callee, keepsInteger) →
      Combines floors operation operands (call callee keepsInteger (operands.map (·.fragment)))

theorem Python.combines_of_combine? {floors : Bool} {operation : Operation}
    {operands : List Operand} {fragment : Fragment}
    (combined : combine? floors operation operands = some fragment) :
    Combines floors operation operands fragment := by
  rw [combine?.eq_def] at combined
  split at combined
  · cases combined
    exact .difference _
  · cases combined
    exact .product _
  · cases combined
    exact .quotient _ _
  · cases combined
    exact .power _ _
  · cases combined
    exact .negation _
  · split at combined
    · next found _ _ _ =>
        cases combined
        exact .comparison _ _ found
    · obtain ⟨⟨callee, keepsInteger⟩, found, rfl⟩ := Option.map_eq_some_iff.mp combined
      exact .call _ found

/-- The texts of operations in C++. -/
inductive Cpp.Combines : Operation → List Operand → Fragment → Prop
  | difference (operands : List Operand) :
      Combines .sub operands (.chain " - " .sum (operands.map (·.fragment)))
  | product (operands : List Operand) :
      Combines .mul operands (.chain " * " .product (operands.map (·.fragment)))
  | quotient (numerator denominator : Operand) :
      Combines .div [numerator, denominator]
        (quotient numerator.fragment denominator.fragment)
  | power (base exponent : Operand) :
      Combines .pow [base, exponent]
        (.atom (Fragment.callText "std::pow" [scalarArgument base, scalarArgument exponent]))
  | negation (operand : Operand) :
      Combines .neg [operand] operand.fragment.negation
  | sign (operand : Operand) :
      Combines .sign [operand] (.atom (signText operand.fragment.text))
  | minimum (operands : List Operand) :
      Combines .min operands (foldedCall "std::min<Scalar>" operands)
  | maximum (operands : List Operand) :
      Combines .max operands (foldedCall "std::max<Scalar>" operands)
  | comparison {operation : Operation} {sign : String} (left right : Operand) :
      operation.comparisonSign? = some sign →
      Combines operation [left, right]
        (.atom (scalar (Fragment.comparison sign left.fragment right.fragment).text))
  | call {operation : Operation} {callee : String} (operands : List Operand) :
      callee? operation = some callee →
      Combines operation operands
        (.atom (Fragment.callText callee (operands.map (·.fragment.text))))

theorem Cpp.combines_of_combine? {operation : Operation} {operands : List Operand}
    {fragment : Fragment} (combined : combine? operation operands = some fragment) :
    Combines operation operands fragment := by
  rw [combine?.eq_def] at combined
  split at combined
  · cases combined
    exact .difference _
  · cases combined
    exact .product _
  · cases combined
    exact .quotient _ _
  · cases combined
    exact .power _ _
  · cases combined
    exact .negation _
  · cases combined
    exact .sign _
  · cases combined
    exact .minimum _
  · cases combined
    exact .maximum _
  · split at combined
    · next found _ _ _ _ =>
        cases combined
        exact .comparison _ _ found
    · obtain ⟨callee, found, rfl⟩ := Option.map_eq_some_iff.mp combined
      exact .call _ found

namespace Target

variable {target : Target} {fragment : Fragment} {others : List Expr}

/-! ## Steps of the walk -/

theorem write_sum_eq_ok_iff {first : Expr} :
    target.write (.op .add (first :: others)) = .ok fragment ↔
      Operation.add.arity.accepts (first :: others).length = true ∧
        ∃ head terms, target.write first = .ok head ∧ target.writeTerms others = .ok terms ∧
          Fragment.sum head terms = fragment := by
  simp only [write, Outcome.bind_eq_ok_iff, Outcome.pure_eq_ok_iff,
    ← Operation.checkCount_eq_ok_iff]
  grind

theorem write_op_eq_ok_iff {operation : Operation} {arguments : List Expr}
    (notSum : ∀ first others, operation = .add → arguments = first :: others → False) :
    target.write (.op operation arguments) = .ok fragment ↔
      operation.arity.accepts arguments.length = true ∧
        target.checkSupport operation = .ok () ∧
          ∃ operands, target.writeAll arguments = .ok operands ∧
            target.combine? operation operands = some fragment := by
  rw [write.eq_4 _ _ _ notSum]
  simp only [Outcome.bind_eq_ok_iff, ← Operation.checkCount_eq_ok_iff]
  grind

/-- A sum without a first term is not well formed. -/
theorem ne_add_of_accepts {operation : Operation} {arguments : List Expr}
    (accepted : operation.arity.accepts arguments.length = true)
    (notSum : ∀ first others, operation = .add → arguments = first :: others → False) :
    operation ≠ .add := by
  rintro rfl
  cases arguments with
  | nil =>
      cases accepted
  | cons first others =>
      exact notSum first others rfl rfl

theorem writeAll_cons_eq_ok_iff {argument : Expr} {operands : List Operand} :
    target.writeAll (argument :: others) = .ok operands ↔
      ∃ fragment further, target.write argument = .ok fragment ∧
        target.writeAll others = .ok further ∧ ⟨argument, fragment⟩ :: further = operands := by
  simp only [writeAll, Outcome.bind_eq_ok_iff, Outcome.pure_eq_ok_iff]
  grind

theorem writeTerms_neg_eq_ok_iff {operand : Expr} {terms : List Term} :
    target.writeTerms (.op .neg [operand] :: others) = .ok terms ↔
      ∃ fragment further, target.write operand = .ok fragment ∧
        target.writeTerms others = .ok further ∧ ⟨true, fragment⟩ :: further = terms := by
  simp only [writeTerms, Outcome.bind_eq_ok_iff, Outcome.pure_eq_ok_iff]
  grind

theorem writeTerms_literal_eq_ok_iff {constant : Literal} {terms : List Term} :
    target.writeTerms (.literal constant :: others) = .ok terms ↔
      ∃ further, target.writeTerms others = .ok further ∧
        target.literalTerm constant :: further = terms := by
  simp only [writeTerms, Outcome.bind_eq_ok_iff, Outcome.pure_eq_ok_iff]

theorem writeTerms_cons_eq_ok_iff {term : Expr} {terms : List Term}
    (notNegated : ∀ operand, term ≠ .op .neg [operand])
    (notLiteral : ∀ constant, term ≠ .literal constant) :
    target.writeTerms (term :: others) = .ok terms ↔
      ∃ fragment further, target.write term = .ok fragment ∧
        target.writeTerms others = .ok further ∧ ⟨false, fragment⟩ :: further = terms := by
  rw [writeTerms.eq_4 _ _ _ notNegated notLiteral]
  simp only [Outcome.bind_eq_ok_iff, Outcome.pure_eq_ok_iff]
  grind

/-! ## The walk -/

/-- How a term of a sum after the first one is written, when `motive` relates
expressions to their texts. -/
inductive WritesTerm (target : Target) (motive : Expr → Fragment → Prop) :
    Expr → Term → Prop
  | negated {operand : Expr} {fragment : Fragment} :
      motive operand fragment →
      WritesTerm target motive (.op .neg [operand]) ⟨true, fragment⟩
  | literal (constant : Literal) :
      WritesTerm target motive (.literal constant) (target.literalTerm constant)
  | plain {term : Expr} {fragment : Fragment} :
      (∀ operand, term ≠ .op .neg [operand]) →
      (∀ constant, term ≠ .literal constant) →
      motive term fragment →
      WritesTerm target motive term ⟨false, fragment⟩

/-- A property of written expressions holds if it passes from the terms of a sum and
from the operands of an operation to the whole. -/
theorem write_induct {motive : Expr → Fragment → Prop}
    (symbol : ∀ leaf, motive (.symbol leaf) (.atom leaf.text))
    (literal : ∀ constant, motive (.literal constant) (target.literal constant))
    (sum : ∀ first others head terms, motive first head →
      List.Forall₂ (target.WritesTerm motive) others terms →
        motive (.op .add (first :: others)) (.sum head terms))
    (combined : ∀ operation operands fragment,
      operation.arity.accepts operands.length = true →
      operation ≠ .add →
      (∀ operand ∈ operands, target.write operand.source = .ok operand.fragment ∧
        motive operand.source operand.fragment) →
      target.combine? operation operands = some fragment →
        motive (.op operation (operands.map Operand.source)) fragment)
    {expr : Expr} (written : target.write expr = .ok fragment) :
    motive expr fragment := by
  have walk := write.mutual_induct
    (fun expr => ∀ fragment, target.write expr = .ok fragment → motive expr fragment)
    (fun arguments => ∀ operands, target.writeAll arguments = .ok operands →
      operands.map Operand.source = arguments ∧
        ∀ operand ∈ operands, target.write operand.source = .ok operand.fragment ∧
          motive operand.source operand.fragment)
    (fun others => ∀ terms, target.writeTerms others = .ok terms →
      List.Forall₂ (target.WritesTerm motive) others terms)
  refine (walk ?symbol ?literal ?sum ?combined ?noOperands ?operands ?noTerms ?negated
    ?literalTerm ?plain).1 expr fragment written
  case symbol =>
    intro leaf fragment written
    rw [write, Except.ok.injEq] at written
    exact written ▸ symbol leaf
  case literal =>
    intro constant fragment written
    rw [write, Except.ok.injEq] at written
    exact written ▸ literal constant
  case sum =>
    intro first others ofFirst ofOthers fragment written
    obtain ⟨_, head, terms, ofHead, ofTerms, rfl⟩ := write_sum_eq_ok_iff.mp written
    exact sum first others head terms (ofFirst head ofHead) (ofOthers terms ofTerms)
  case combined =>
    intro operation arguments notSum ofArguments fragment written
    obtain ⟨accepted, _, operands, ofOperands, found⟩ :=
      (write_op_eq_ok_iff notSum).mp written
    have notAdd := ne_add_of_accepts accepted notSum
    obtain ⟨rfl, each⟩ := ofArguments operands ofOperands
    rw [List.length_map] at accepted
    exact combined operation operands fragment accepted notAdd each found
  case noOperands =>
    intro operands written
    rw [writeAll, Except.ok.injEq] at written
    subst written
    exact ⟨rfl, fun _ member => nomatch member⟩
  case operands =>
    intro argument others ofArgument ofOthers operands written
    obtain ⟨fragment, further, ofFragment, ofFurther, rfl⟩ :=
      writeAll_cons_eq_ok_iff.mp written
    obtain ⟨rfl, each⟩ := ofOthers further ofFurther
    exact ⟨rfl, List.forall_mem_cons.mpr ⟨⟨ofFragment, ofArgument fragment ofFragment⟩, each⟩⟩
  case noTerms =>
    intro terms written
    rw [writeTerms, Except.ok.injEq] at written
    subst written
    exact .nil
  case negated =>
    intro operand others ofOperand ofOthers terms written
    obtain ⟨fragment, further, ofFragment, ofFurther, rfl⟩ :=
      writeTerms_neg_eq_ok_iff.mp written
    exact .cons (.negated (ofOperand fragment ofFragment)) (ofOthers further ofFurther)
  case literalTerm =>
    intro constant others ofOthers terms written
    obtain ⟨further, ofFurther, rfl⟩ := writeTerms_literal_eq_ok_iff.mp written
    exact .cons (.literal constant) (ofOthers further ofFurther)
  case plain =>
    intro term others notNegated notLiteral ofTerm ofOthers terms written
    obtain ⟨fragment, further, ofFragment, ofFurther, rfl⟩ :=
      (writeTerms_cons_eq_ok_iff notNegated notLiteral).mp written
    exact .cons (.plain notNegated notLiteral (ofTerm fragment ofFragment))
      (ofOthers further ofFurther)

end Target

end LieScribe
