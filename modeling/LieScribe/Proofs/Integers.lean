import LieScribe.Proofs.Writing

/-!
# Integers in target texts

A fragment records whether the target computes its text with integers.  This is a
property of the expression alone: `Target.isInteger` says it without any text, and
`Target.integer_write` shows that every text records it.
-/

namespace LieScribe

def Operation.compares : Operation → Bool
  | .lt | .le | .gt | .ge => true
  | _ => false

namespace Target

/-- The operations that give an integer for integers. -/
def keepsIntegers (target : Target) : Operation → Bool
  | .add | .sub | .mul | .neg => true
  | .pow | .abs | .sign | .min | .max => target.isPython
  | _ => false

mutual

/-- Does the target compute the expression with integers?  Comparisons are integers
in Python only. -/
def isInteger (target : Target) : Expr → Bool
  | .symbol _ => false
  | .literal (.int _) => true
  | .literal (.float _) => false
  | .op operation arguments =>
      (target.isPython && operation.compares) ||
        (target.keepsIntegers operation && target.areIntegers arguments)

def areIntegers (target : Target) : List Expr → Bool
  | [] => true
  | expr :: others => target.isInteger expr && target.areIntegers others

end

variable {target : Target}

theorem isInteger_neg (operand : Expr) :
    target.isInteger (.op .neg [operand]) = target.isInteger operand := by
  simp [isInteger, areIntegers, keepsIntegers, Operation.compares]

theorem isInteger_add (first : Expr) (others : List Expr) :
    target.isInteger (.op .add (first :: others)) =
      (target.isInteger first && target.areIntegers others) := by
  simp [isInteger, areIntegers, keepsIntegers, Operation.compares]

/-! ## Fragments -/

theorem integer_literal (constant : Literal) :
    (target.literal constant).integer = target.isInteger (.literal constant) := by
  cases constant with
  | int value =>
      cases target <;> simp only [literal, Python.literal, Cpp.literal, isInteger]
      split <;> rfl
  | float value =>
      cases target <;> simp only [literal, Python.literal, Cpp.literal, isInteger]
      all_goals
        split
        · rfl
        · split
          · split <;> rfl
          · rfl

theorem integer_literalTerm (constant : Literal) :
    (target.literalTerm constant).fragment.integer = target.isInteger (.literal constant) := by
  rw [literalTerm]
  split
  · next positive subtracted =>
      rw [integer_literal]
      cases constant <;> simp only [Literal.subtracted?, Literal.negated?] at subtracted
      all_goals grind [isInteger]
  · exact integer_literal constant

theorem integer_chain (operator : String) (precedence : Precedence)
    (fragments : List Fragment) :
    (Fragment.chain operator precedence fragments).integer = fragments.all (·.integer) := by
  cases fragments <;> rfl

/-! ## Operands and terms -/

theorem areIntegers_sources {operands : List Operand}
    (each : ∀ operand ∈ operands, operand.fragment.integer = target.isInteger operand.source) :
    target.areIntegers (operands.map Operand.source) =
      (operands.map Operand.fragment).all (·.integer) := by
  induction operands with
  | nil =>
      rfl
  | cons operand others inductionHypothesis =>
      rw [List.forall_mem_cons] at each
      simp only [List.map_cons, areIntegers, List.all_cons, each.1,
        inductionHypothesis each.2]

theorem areIntegers_terms {others : List Expr} {terms : List Term}
    (each : List.Forall₂
      (target.WritesTerm fun expr fragment => fragment.integer = target.isInteger expr)
      others terms) :
    target.areIntegers others = terms.all (·.fragment.integer) := by
  induction each with
  | nil =>
      rfl
  | cons writes _ inductionHypothesis =>
      rw [areIntegers, List.all_cons, inductionHypothesis]
      congr 1
      cases writes with
      | negated holds =>
          rw [isInteger_neg, holds]
      | literal constant =>
          exact (integer_literalTerm constant).symm
      | plain _ _ holds =>
          exact holds.symm

/-! ## Operations -/

theorem compares_of_comparisonSign? {operation : Operation} {sign : String}
    (found : operation.comparisonSign? = some sign) : operation.compares = true := by
  cases operation with
  | lt | le | gt | ge =>
      rfl
  | _ =>
      cases found

theorem keepsIntegers_of_compares {operation : Operation}
    (compares : operation.compares = true) : target.keepsIntegers operation = false := by
  cases operation with
  | lt | le | gt | ge =>
      rfl
  | _ =>
      cases compares

/-- The table of functions agrees with the operations that keep integers. -/
theorem keepsIntegers_of_pythonCallee? (python : target.isPython = true)
    {operation : Operation} {callee : String} {keeps : Bool}
    (found : Python.callee? operation = some (callee, keeps)) :
    operation.compares = false ∧ target.keepsIntegers operation = keeps := by
  cases operation with
  | abs | sign | min | max =>
      cases found
      exact ⟨rfl, python⟩
  | _ =>
      cases found
      all_goals exact ⟨rfl, rfl⟩

theorem keepsIntegers_of_cppCallee? {operation : Operation} {callee : String}
    (found : Cpp.callee? operation = some callee) :
    Target.cpp.keepsIntegers operation = false := by
  cases operation with
  | add | sub | mul | neg =>
      cases found
  | _ =>
      rfl

theorem integer_pythonCombine? (python : target.isPython = true) {floors : Bool}
    {operation : Operation} {operands : List Operand} {fragment : Fragment}
    (each : ∀ operand ∈ operands, operand.fragment.integer = target.isInteger operand.source)
    (combined : Python.combine? floors operation operands = some fragment) :
    fragment.integer = target.isInteger (.op operation (operands.map Operand.source)) := by
  have sources := areIntegers_sources each
  rw [isInteger, sources, python, Bool.true_and]
  cases Python.combines_of_combine? combined with
  | difference | product =>
      rw [integer_chain]
      rfl
  | quotient =>
      rfl
  | power =>
      simp [Python.power, Operation.compares, keepsIntegers, python]
  | negation =>
      simp [Fragment.negation, Operation.compares, keepsIntegers]
  | comparison left right found =>
      rw [compares_of_comparisonSign? found, Bool.true_or]
      rfl
  | call _ found =>
      obtain ⟨notCompared, kept⟩ := keepsIntegers_of_pythonCallee? python found
      rw [notCompared, kept, Bool.false_or]
      rfl

theorem integer_cppCombine? {operation : Operation} {operands : List Operand}
    {fragment : Fragment}
    (each : ∀ operand ∈ operands, operand.fragment.integer = Target.cpp.isInteger operand.source)
    (combined : Cpp.combine? operation operands = some fragment) :
    fragment.integer = Target.cpp.isInteger (.op operation (operands.map Operand.source)) := by
  have sources := areIntegers_sources each
  rw [isInteger, sources]
  cases Cpp.combines_of_combine? combined with
  | difference | product =>
      rw [integer_chain]
      rfl
  | quotient | power | sign =>
      rfl
  | negation =>
      simp [Fragment.negation, keepsIntegers, isPython]
  | minimum | maximum =>
      cases operands <;> rfl
  | comparison left right found =>
      rw [keepsIntegers_of_compares (compares_of_comparisonSign? found)]
      rfl
  | call _ found =>
      rw [keepsIntegers_of_cppCallee? found]
      rfl

/-- Every text records whether its expression is an integer. -/
theorem integer_write {expr : Expr} {fragment : Fragment}
    (written : target.write expr = .ok fragment) :
    fragment.integer = target.isInteger expr := by
  refine write_induct
    (motive := fun expr fragment => fragment.integer = target.isInteger expr)
    ?symbol ?literal ?sum ?combined written
  case symbol =>
    intro leaf
    rfl
  case literal =>
    exact integer_literal
  case sum =>
    intro first others head terms ofFirst ofOthers
    rw [isInteger_add, areIntegers_terms ofOthers, ← ofFirst]
    rfl
  case combined =>
    intro operation operands fragment _ _ written combined
    have each : ∀ operand ∈ operands,
        operand.fragment.integer = target.isInteger operand.source :=
      fun operand member => (written operand member).2
    cases target with
    | python2 =>
        exact integer_pythonCombine? rfl each combined
    | python3 =>
        exact integer_pythonCombine? rfl each combined
    | cpp =>
        exact integer_cppCombine? each combined

end Target

end LieScribe
