import LieScribe.Proofs.Reading.Marks
import LieScribe.Proofs.Reading.RoundTrip

/-!
# Types of C++ texts

The compiler decides from the form of a text whether it is computed with integers.  Numerals
without a point are integers, and so are sums, products and changes of sign of integers; names
and calls are scalars.  A quotient of integers is an integer, which drops the remainder.

A text is marked as an integer when it is written.  The mark is the type that the compiler
finds, and every quotient in the text is one of scalars.
-/

namespace LieScribe

namespace Cpp

/-! ## Types -/

/-- The types of numbers: integers of some width, or the floating type. -/
inductive NumberType where
  | integral
  | floating
  deriving DecidableEq, Repr

namespace NumberType

/-- The type that the operands of an operator are converted to. -/
def common : NumberType → NumberType → NumberType
  | .integral, .integral => .integral
  | _, _ => .floating

/-- The type that a mark stands for. -/
def ofMark (integer : Bool) : NumberType :=
  if integer then .integral else .floating

theorem common_ofMark (left right : Bool) :
    (ofMark left).common (ofMark right) = ofMark (left && right) := by
  cases left <;> cases right <;> rfl

end NumberType

/-- The type of what an operator computes.  Quotients are no exception, and a comparison is
an integer whatever it compares.  There is no operator for powers. -/
def operatorType? : Operator → NumberType → NumberType → Option NumberType
  | .add, left, right => some (left.common right)
  | .sub, left, right => some (left.common right)
  | .mul, left, right => some (left.common right)
  | .div, left, right => some (left.common right)
  | .pow, _, _ => none
  | .lt, _, _ => some .integral
  | .le, _, _ => some .integral
  | .gt, _, _ => some .integral
  | .ge, _, _ => some .integral

/-- The functions that are known to a text, with the number of their arguments.  Each of
them returns a scalar for numbers of any type. -/
def scalarFunctions : List (String × Nat) :=
  [("Scalar", 1), ("std::numeric_limits<Scalar>::quiet_NaN", 0),
    ("std::numeric_limits<Scalar>::infinity", 0), ("std::min<Scalar>", 2),
    ("std::max<Scalar>", 2), ("std::pow", 2), ("std::atan2", 2), ("std::fabs", 1),
    ("std::sin", 1), ("std::cos", 1), ("std::tan", 1), ("std::asin", 1), ("std::acos", 1),
    ("std::atan", 1), ("std::sqrt", 1), ("std::exp", 1), ("std::log", 1)]

mutual

/-- The type of a text, if it is one of a number.  All names are those of scalars. -/
def type? : ParseTree → Option NumberType
  | .name _ => some .floating
  | .element _ _ => some .floating
  | .integer _ => some .integral
  | .decimal _ => some .floating
  | .quoted _ => none
  | .negative operand => type? operand
  | .binary operator left right => do
      let leftType ← type? left
      let rightType ← type? right
      operatorType? operator leftType rightType
  | .call callee arguments =>
      if areTyped arguments && decide ((callee, arguments.length) ∈ scalarFunctions) then
        some .floating
      else
        none

def areTyped : List ParseTree → Bool
  | [] => true
  | tree :: others => (type? tree).isSome && areTyped others

end

theorem type?_binary {operator : Operator} {left right : ParseTree}
    {leftType rightType : NumberType} (ofLeft : type? left = some leftType)
    (ofRight : type? right = some rightType) :
    type? (.binary operator left right) = operatorType? operator leftType rightType := by
  rw [type?, ofLeft, ofRight]
  rfl

theorem areTyped_iff {trees : List ParseTree} :
    areTyped trees = true ↔ ∀ tree ∈ trees, ∃ type, type? tree = some type := by
  induction trees with
  | nil =>
      simp [areTyped]
  | cons first others inductionHypothesis =>
      rw [areTyped, Bool.and_eq_true, inductionHypothesis, List.forall_mem_cons,
        Option.isSome_iff_exists]

/-- A quotient that is a scalar does not have integers on both sides. -/
theorem not_integral_of_quotient {left right : ParseTree}
    (scalar : type? (.binary .div left right) = some .floating) :
    ¬ (type? left = some .integral ∧ type? right = some .integral) := by
  rintro ⟨ofLeft, ofRight⟩
  rw [type?_binary ofLeft ofRight] at scalar
  cases scalar

/-! ## Marks -/

/-- The mark of a text is its type, and all quotients in the text are scalars. -/
structure Marks (tree : ParseTree) (integer : Bool) : Prop where
  type : type? tree = some (.ofMark integer)
  quotients : ∀ left right, .binary .div left right ∈ tree.nodes →
    type? (.binary .div left right) = some .floating

namespace Marks

variable {tree left right : ParseTree} {integer leftInteger rightInteger : Bool}

theorem ofInteger (value : Nat) : Marks (.integer value) true :=
  ⟨rfl, by simp [ParseTree.nodes]⟩

theorem decimal (value : Float) : Marks (.decimal value) false :=
  ⟨rfl, by simp [ParseTree.nodes]⟩

theorem symbol (leaf : Symbol) : Marks (.ofSymbol leaf) false := by
  cases leaf <;> exact ⟨rfl, by simp [ParseTree.ofSymbol, ParseTree.nodes]⟩

theorem negative (operand : Marks tree integer) : Marks (.negative tree) integer := by
  refine ⟨operand.type, fun left right member => ?_⟩
  rw [ParseTree.nodes] at member
  rcases List.mem_cons.mp member with here | below
  · cases here
  · exact operand.quotients left right below

/-- The quotients of an operation are those of its sides, and itself if it is one. -/
theorem binary_quotients {operator : Operator} (ofLeft : Marks left leftInteger)
    (ofRight : Marks right rightInteger)
    (whole : operator = .div → type? (.binary operator left right) = some .floating) :
    ∀ numerator denominator,
      .binary .div numerator denominator ∈ (ParseTree.binary operator left right).nodes →
        type? (.binary .div numerator denominator) = some .floating := by
  intro numerator denominator member
  rw [ParseTree.nodes] at member
  rcases List.mem_cons.mp member with here | below
  · cases here
    exact whole rfl
  · rcases List.mem_append.mp below with inLeft | inRight
    · exact ofLeft.quotients _ _ inLeft
    · exact ofRight.quotients _ _ inRight

/-- A sum, difference or product is an integer if both sides are. -/
theorem binary {operator : Operator}
    (combines : operator = .add ∨ operator = .sub ∨ operator = .mul)
    (ofLeft : Marks left leftInteger) (ofRight : Marks right rightInteger) :
    Marks (.binary operator left right) (leftInteger && rightInteger) := by
  refine ⟨?_, binary_quotients ofLeft ofRight ?_⟩
  · rw [type?_binary ofLeft.type ofRight.type, ← NumberType.common_ofMark]
    rcases combines with rfl | rfl | rfl <;> rfl
  · rintro rfl
    rcases combines with isSum | isDifference | isProduct
    · cases isSum
    · cases isDifference
    · cases isProduct

theorem quotient (ofLeft : Marks left leftInteger) (ofRight : Marks right rightInteger)
    (notBoth : (leftInteger && rightInteger) = false) : Marks (.binary .div left right) false := by
  have type : type? (.binary .div left right) = some (.ofMark false) := by
    rw [type?_binary ofLeft.type ofRight.type, operatorType?, NumberType.common_ofMark, notBoth]
  exact ⟨type, binary_quotients ofLeft ofRight fun _ => type⟩

theorem comparison {operator : Operator} (compares : operator.precedence = .comparison)
    (ofLeft : Marks left leftInteger) (ofRight : Marks right rightInteger) :
    Marks (.binary operator left right) true := by
  refine ⟨?_, binary_quotients ofLeft ofRight ?_⟩
  · rw [type?_binary ofLeft.type ofRight.type]
    cases operator with
    | lt | le | gt | ge => rfl
    | add | sub | mul | div | pow => cases compares
  · rintro rfl
    cases compares

theorem call {callee : String} {arguments : List ParseTree}
    (known : (callee, arguments.length) ∈ scalarFunctions)
    (each : ∀ argument ∈ arguments, ∃ integer, Marks argument integer) :
    Marks (.call callee arguments) false := by
  have typed : areTyped arguments = true := by
    rw [areTyped_iff]
    intro argument member
    obtain ⟨integer, marks⟩ := each argument member
    exact ⟨_, marks.type⟩
  refine ⟨?_, fun left right member => ?_⟩
  · rw [type?, typed, decide_eq_true known]
    rfl
  · rw [ParseTree.nodes] at member
    rcases List.mem_cons.mp member with here | below
    · cases here
    · obtain ⟨argument, isArgument, inside⟩ := ParseTree.mem_nodesOf.mp below
      obtain ⟨_, marks⟩ := each argument isArgument
      exact marks.quotients left right inside

/-- Any number is converted to a scalar. -/
theorem converted (marks : Marks tree integer) : Marks (.call "Scalar" [tree]) false := by
  have known : ("Scalar", 1) ∈ scalarFunctions := by decide
  exact call known (List.forall_mem_singleton.mpr ⟨integer, marks⟩)

theorem ofInt (value : Int) : Marks (.ofInt value) true := by
  rw [ParseTree.ofInt]
  split
  · exact (ofInteger _).negative
  · exact ofInteger _

theorem ofFloat (value : Float) : Marks (.ofFloat value) false := by
  rw [ParseTree.ofFloat]
  split
  · exact (decimal _).negative
  · exact decimal _

end Marks

/-! ## Literals and functions -/

theorem marks_literalTree (constant : Literal) :
    Marks (literalTree constant) (Target.cpp.isInteger (.literal constant)) := by
  cases constant with
  | int value =>
      rw [literalTree, Target.isInteger]
      split
      · exact .binary (.inr (.inl rfl)) (Marks.ofInteger _).negative (.ofInteger _)
      · exact .ofInt _
  | float value =>
      rw [literalTree, Target.isInteger]
      have infinity : Marks (.call "std::numeric_limits<Scalar>::infinity" []) false :=
        .call (by decide) (List.forall_mem_nil _)
      split
      · exact .call (by decide) (List.forall_mem_nil _)
      · split
        · split
          · exact infinity
          · exact infinity.negative
        · exact (Marks.ofFloat value).converted

section Calls

variable {argument first : TreeOperand} {others operands : List TreeOperand}

theorem exists_marks_scalarTree (marks : ∃ integer, Marks argument.tree integer) :
    ∃ integer, Marks (scalarTree argument) integer := by
  rw [scalarTree]
  split
  · exact ⟨false, (Marks.ofInt _).converted⟩
  · exact marks

theorem marks_pair {callee : String} {left right : ParseTree}
    (known : (callee, 2) ∈ scalarFunctions) (ofLeft : ∃ integer, Marks left integer)
    (ofRight : ∃ integer, Marks right integer) : Marks (.call callee [left, right]) false :=
  .call known (List.forall_mem_cons.mpr ⟨ofLeft, List.forall_mem_singleton.mpr ofRight⟩)

theorem marks_foldl_pair {callee : String} {inner : ParseTree}
    (known : (callee, 2) ∈ scalarFunctions) (ofInner : Marks inner false)
    (each : ∀ other ∈ others, ∃ integer, Marks other.tree integer) :
    Marks ((others.map scalarTree).foldl (fun inner argument => .call callee [inner, argument])
      inner) false := by
  induction others generalizing inner with
  | nil =>
      exact ofInner
  | cons second others inductionHypothesis =>
      rw [List.forall_mem_cons] at each
      have pair := marks_pair known ⟨false, ofInner⟩ (exists_marks_scalarTree each.1)
      exact inductionHypothesis pair each.2

/-- A minimum or maximum of at least two arguments is a scalar, whatever they are. -/
theorem marks_nestedCall {callee : String} {second : TreeOperand}
    (known : (callee, 2) ∈ scalarFunctions)
    (each : ∀ operand ∈ first :: second :: others, ∃ integer, Marks operand.tree integer) :
    Marks (nestedCall callee first (second :: others)) false := by
  rw [List.forall_mem_cons, List.forall_mem_cons] at each
  obtain ⟨ofFirst, ofSecond, ofOthers⟩ := each
  have innermost := marks_pair known (exists_marks_scalarTree ofFirst)
    (exists_marks_scalarTree ofSecond)
  rw [nestedCall, List.map_cons, List.foldl_cons]
  exact marks_foldl_pair known innermost ofOthers

/-- Every operation that is written as a call has a function that is known. -/
theorem known_of_callee? {operation : Operation} {callee : String} {count : Nat}
    (found : callee? operation = some callee)
    (accepted : operation.arity.accepts count = true) : (callee, count) ∈ scalarFunctions := by
  cases operation with
  | add | sub | mul | div | pow | neg | sign | min | max | lt | le | gt | ge | function =>
      cases found
  | _ =>
      cases found
      obtain rfl := beq_iff_eq.mp accepted
      decide

end Calls

/-! ## Operations -/

section Operations

variable {operands : List TreeOperand}

theorem marks_quotient {numerator denominator : TreeOperand}
    (ofNumerator : Marks numerator.tree (Target.cpp.isInteger numerator.source))
    (ofDenominator : Marks denominator.tree (Target.cpp.isInteger denominator.source)) :
    Marks (combineTree .cpp .div [numerator, denominator]) false := by
  rw [combineTree]
  split
  · exact .quotient ofNumerator.converted ofDenominator rfl
  · next notBoth =>
      exact .quotient ofNumerator ofDenominator (Bool.eq_false_iff.mpr notBoth)

theorem marks_sign {operand : ParseTree} {integer : Bool} (marks : Marks operand integer) :
    Marks (.call "Scalar"
      [.binary .sub (.binary .gt operand (.integer 0)) (.binary .lt operand (.integer 0))])
      false := by
  have zero := Marks.ofInteger 0
  have greater : Marks (.binary .gt operand (.integer 0)) true := .comparison rfl marks zero
  have less : Marks (.binary .lt operand (.integer 0)) true := .comparison rfl marks zero
  exact (Marks.binary (.inr (.inl rfl)) greater less).converted

/-- An operation is marked as its type is, if its operands are. -/
theorem marks_combineTree {operation : Operation} {written : List Operand} {fragment : Fragment}
    (accepted : operation.arity.accepts operands.length = true)
    (lengths : written.length = operands.length)
    (each : ∀ operand ∈ operands,
      Marks operand.tree (Target.cpp.isInteger operand.source))
    (combined : combine? operation written = some fragment) :
    Marks (combineTree .cpp operation operands)
      (Target.cpp.isInteger (.op operation (operands.map (·.source)))) := by
  have marked : ∀ operand ∈ operands, ∃ integer, Marks operand.tree integer :=
    fun operand member => ⟨_, each operand member⟩
  rw [Target.isInteger, Target.isPython, Bool.false_and, Bool.false_or]
  cases combines_of_combine? combined with
  | difference =>
      cases operands with
      | nil => cases accepted
      | cons first others =>
          rw [List.forall_mem_cons] at each
          exact Target.holds_foldl (Marks.binary (.inr (.inl rfl))) each.1 each.2
  | product =>
      cases operands with
      | nil => cases accepted
      | cons first others =>
          rw [List.forall_mem_cons] at each
          exact Target.holds_foldl (Marks.binary (.inr (.inr rfl))) each.1 each.2
  | quotient =>
      obtain ⟨numerator, denominator, rfl⟩ := List.length_eq_two.mp lengths.symm
      rw [List.forall_mem_cons, List.forall_mem_singleton] at each
      exact marks_quotient each.1 each.2
  | power =>
      obtain ⟨base, exponent, rfl⟩ := List.length_eq_two.mp lengths.symm
      rw [List.forall_mem_cons, List.forall_mem_singleton] at marked
      exact marks_pair (by decide) (exists_marks_scalarTree marked.1)
        (exists_marks_scalarTree marked.2)
  | negation =>
      obtain ⟨operand, rfl⟩ := List.length_eq_one_iff.mp lengths.symm
      have negation := (each operand List.mem_cons_self).negative
      rwa [List.map_singleton, Target.areIntegers, Target.areIntegers, Bool.and_true]
  | sign =>
      obtain ⟨operand, rfl⟩ := List.length_eq_one_iff.mp lengths.symm
      exact marks_sign (each operand List.mem_cons_self)
  | minimum =>
      obtain _ | ⟨first, _ | ⟨second, others⟩⟩ := operands
      · cases accepted
      · cases accepted
      · exact marks_nestedCall (by decide) marked
  | maximum =>
      obtain _ | ⟨first, _ | ⟨second, others⟩⟩ := operands
      · cases accepted
      · cases accepted
      · exact marks_nestedCall (by decide) marked
  | comparison _ _ found =>
      obtain ⟨left, right, rfl⟩ := List.length_eq_two.mp lengths.symm
      obtain ⟨operator, isOperator, _, compares⟩ :=
        Operation.comparison?_of_comparisonSign? found
      rw [List.forall_mem_cons, List.forall_mem_singleton] at each
      rw [combineTree_comparison isOperator,
        Target.keepsIntegers_of_compares (Target.compares_of_comparisonSign? found)]
      exact (Marks.comparison compares each.1 each.2).converted
  | call _ found =>
      rw [(combineTree_call found operands).1, Target.keepsIntegers_of_cppCallee? found]
      refine .call ?_ (List.forall_mem_map.mpr marked)
      rw [List.length_map]
      exact known_of_callee? found accepted

end Operations

/-! ## Expressions -/

theorem marks_tree {expr : Expr} {fragment : Fragment}
    (written : Target.cpp.write expr = .ok fragment) :
    Marks (Target.cpp.tree expr) (Target.cpp.isInteger expr) := by
  have joins : Target.cpp.Joins Marks :=
    ⟨.ofInteger, marks_literalTree, .binary (.inl rfl), .binary (.inr (.inl rfl))⟩
  exact joins.tree marks_combineTree written fun leaf _ => .symbol leaf

/-- The mark of a written text is the type that the compiler finds: it is an integer or a
scalar, as the mark says, and every quotient in it is a scalar, so that none has integers on
both sides.  These are the types of the text as it is read. -/
theorem integer_iff_type {expr : Expr} {fragment : Fragment}
    (written : Target.cpp.write expr = .ok fragment) :
    (fragment.integer = true ↔ type? (Target.cpp.tree expr) = some .integral) ∧
      (fragment.integer = false ↔ type? (Target.cpp.tree expr) = some .floating) ∧
      (∀ left right, .binary .div left right ∈ (Target.cpp.tree expr).nodes →
        type? (.binary .div left right) = some .floating ∧
          ¬ (type? left = some .integral ∧ type? right = some .integral)) ∧
      ∀ decimal?, expr.UsesIdentifiers →
        Lexicon.ReadsBack ⟨false, decimal?⟩ (Target.cpp.tree expr) →
          Lexicon.read? ⟨false, decimal?⟩ fragment.text = some (Target.cpp.tree expr) := by
  have marks := marks_tree written
  rw [← Target.integer_write written] at marks
  refine ⟨?_, ?_, fun left right member => ?_, fun decimal? identifiers readsBack => ?_⟩
  · rw [marks.type]
    cases fragment.integer <;> decide
  · rw [marks.type]
    cases fragment.integer <;> decide
  · have scalar := marks.quotients left right member
    exact ⟨scalar, not_integral_of_quotient scalar⟩
  · have dialect : (Lexicon.mk false decimal?).python = Target.cpp.isPython := rfl
    exact (Target.readsAs_write dialect written identifiers).whole.read? readsBack

/-- A sum of integers over a product of integers. -/
def ratioOfIntegers : Expr :=
  .op .div
    [.op .add [.literal (.int 1), .literal (.int (-2))],
      .op .mul [.literal (.int 3), .op .neg [.literal (.int 4)]]]

theorem integer_iff_type_ratioOfIntegers :
    ∃ fragment, Target.cpp.write ratioOfIntegers = .ok fragment ∧
      fragment.text = "Scalar(1 - 2) / (3 * -4)" ∧ fragment.integer = false ∧
      type? (Target.cpp.tree ratioOfIntegers) = some .floating ∧
      Lexicon.read? ⟨false, fun _ => none⟩ fragment.text =
        some (.binary .div (.call "Scalar" [.binary .sub (.integer 1) (.integer 2)])
          (.binary .mul (.integer 3) (.negative (.integer 4)))) := by
  have written : Target.cpp.write ratioOfIntegers =
      .ok ⟨"Scalar(1 - 2) / (3 * -4)", .product, false⟩ := by
    rfl
  obtain ⟨_, scalar, _, reads⟩ := integer_iff_type written
  exact ⟨_, written, rfl, rfl, scalar.mp rfl, reads _ (by decide) (by decide)⟩

end Cpp

end LieScribe
