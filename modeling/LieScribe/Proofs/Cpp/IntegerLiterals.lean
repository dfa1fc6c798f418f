import LieScribe.Proofs.FirstFault
import LieScribe.Proofs.Reading.Integers
import LieScribe.Proofs.Reading.RoundTrip

/-!
# Integer literals of C++ texts

The widest integer type of C++ holds the numbers up to 9223372036854775807, and a sign is no part
of a literal.  The least integer is therefore written as a difference.  An integer that is
converted as an argument of a power, a minimum or a maximum is written as it stands, however, and
there the least integer becomes a literal that is wider than any type.

A text is cut into tokens without asking what its decimals denote: the lexicon here reads all of
them as one number.
-/

namespace LieScribe

open Lexicon

namespace Cpp

/-! ## Arguments that are too wide -/

/-- The least integer, as a literal. -/
def isLeastInteger : Expr → Bool
  | .literal (.int value) => value == Int64.minValue
  | _ => false

/-- The operations whose integer literals are converted as they stand. -/
def convertsLiterals : Operation → Bool
  | .pow | .min | .max => true
  | _ => false

/-- An operation that converts the least integer as it stands. -/
def convertsLeast : Expr → Bool
  | .op operation arguments => convertsLiterals operation && arguments.any isLeastInteger
  | _ => false

/-- Somewhere in the expression the least integer is converted as it stands. -/
def WritesWide (expr : Expr) : Prop :=
  ∃ node ∈ expr.nodes, convertsLeast node = true

theorem not_writesWide_symbol (leaf : Symbol) : ¬ WritesWide (.symbol leaf) := by
  simp [WritesWide, Expr.nodes, convertsLeast]

theorem not_writesWide_literal (constant : Literal) : ¬ WritesWide (.literal constant) := by
  simp [WritesWide, Expr.nodes, convertsLeast]

theorem writesWide_op {operation : Operation} {arguments : List Expr} :
    WritesWide (.op operation arguments) ↔
      convertsLeast (.op operation arguments) = true ∨
        ∃ argument ∈ arguments, WritesWide argument := by
  rw [WritesWide, Expr.nodes, Expr.nodesOf_eq_flatMap, List.exists_mem_cons_iff]
  refine or_congr_right ⟨?_, ?_⟩
  · rintro ⟨node, member, converts⟩
    obtain ⟨argument, isArgument, inside⟩ := List.mem_flatMap.mp member
    exact ⟨argument, isArgument, node, inside, converts⟩
  · rintro ⟨argument, isArgument, node, inside, converts⟩
    exact ⟨node, List.mem_flatMap.mpr ⟨argument, isArgument, inside⟩, converts⟩

/-- An operation that does not convert literals is too wide where an argument is. -/
theorem writesWide_op_of_keeps {operation : Operation} {operands : List TreeOperand}
    (keeps : convertsLiterals operation = false) :
    WritesWide (.op operation (operands.map (·.source))) ↔
      ∃ operand ∈ operands, WritesWide operand.source := by
  rw [writesWide_op, convertsLeast, keeps, Bool.false_and]
  simp only [Bool.false_eq_true, false_or, List.mem_map, exists_exists_and_eq_and]

/-- An operation that converts literals is too wide where an argument is, or is the least
integer. -/
theorem writesWide_op_of_converts {operation : Operation} {operands : List TreeOperand}
    (converts : convertsLiterals operation = true) :
    WritesWide (.op operation (operands.map (·.source))) ↔
      ∃ operand ∈ operands,
        isLeastInteger operand.source = true ∨ WritesWide operand.source := by
  rw [writesWide_op, convertsLeast, converts, Bool.true_and, List.any_eq_true, ← exists_or]
  simp only [← and_or_left, List.mem_map, exists_exists_and_eq_and]

/-! ## Widths -/

/-- The decimals of the tree are read back, and it has no integer above the magnitude of the
least integer; this one it has just if it is wide. -/
structure Spans (lexicon : Lexicon) (tree : ParseTree) (wide : Prop) : Prop where
  readsBack : lexicon.ReadsBack tree
  bound : ∀ value ∈ tree.integers, value ≤ 9223372036854775808
  wide_iff : 9223372036854775808 ∈ tree.integers ↔ wide

namespace Spans

variable {lexicon : Lexicon} {tree left right : ParseTree} {wide leftWide rightWide : Prop}

theorem congr {other : Prop} (spans : Spans lexicon tree wide) (same : wide ↔ other) :
    Spans lexicon tree other :=
  ⟨spans.readsBack, spans.bound, spans.wide_iff.trans same⟩

/-- A tree without integers is not wide. -/
theorem of_integers_eq_nil (none : tree.integers = []) (readsBack : lexicon.ReadsBack tree) :
    Spans lexicon tree False := by
  refine ⟨readsBack, ?_, ?_⟩
  · rw [none]
    exact List.forall_mem_nil _
  · rw [none, List.mem_nil_iff]

theorem symbol (leaf : Symbol) : Spans lexicon (.ofSymbol leaf) False := by
  cases leaf <;> exact of_integers_eq_nil rfl (List.forall_mem_nil _)

theorem integer {value : Nat} (bound : value ≤ 9223372036854775808) :
    Spans lexicon (.integer value) (9223372036854775808 = value) := by
  refine ⟨List.forall_mem_nil _, ?_, ?_⟩
  · rw [ParseTree.integers]
    exact List.forall_mem_singleton.mpr bound
  · rw [ParseTree.integers, List.mem_singleton]

theorem negative (operand : Spans lexicon tree wide) : Spans lexicon (.negative tree) wide :=
  ⟨operand.readsBack, operand.bound, operand.wide_iff⟩

theorem binary (operator : Operator) (ofLeft : Spans lexicon left leftWide)
    (ofRight : Spans lexicon right rightWide) :
    Spans lexicon (.binary operator left right) (leftWide ∨ rightWide) := by
  refine ⟨Lexicon.readsBack_binary.mpr ⟨ofLeft.readsBack, ofRight.readsBack⟩, ?_, ?_⟩
  · exact List.forall_mem_append.mpr ⟨ofLeft.bound, ofRight.bound⟩
  · rw [ParseTree.integers, List.mem_append, ofLeft.wide_iff, ofRight.wide_iff]

/-- A call is wide where one of its arguments is. -/
theorem call {α : Type} {items : List α} {argument : α → ParseTree} {wideOf : α → Prop}
    (callee : String) (each : ∀ item ∈ items, Spans lexicon (argument item) (wideOf item)) :
    Spans lexicon (.call callee (items.map argument)) (∃ item ∈ items, wideOf item) := by
  refine ⟨?_, ?_, ?_⟩
  · rw [Lexicon.readsBack_call, List.forall_mem_map]
    exact fun item member => (each item member).readsBack
  · rw [ParseTree.integers, ParseTree.integersOf_eq_flatMap, List.flatMap_map,
      List.forall_mem_flatMap]
    exact fun item member => (each item member).bound
  · rw [ParseTree.integers, ParseTree.integersOf_eq_flatMap, List.flatMap_map, List.mem_flatMap]
    exact exists_congr fun item => and_congr_right fun member => (each item member).wide_iff

theorem converted (callee : String) (argument : Spans lexicon tree wide) :
    Spans lexicon (.call callee [tree]) wide := by
  refine ⟨?_, ?_, ?_⟩
  · exact Lexicon.readsBack_call.mpr (List.forall_mem_singleton.mpr argument.readsBack)
  · simpa [ParseTree.integers, ParseTree.integersOf] using argument.bound
  · simpa [ParseTree.integers, ParseTree.integersOf] using argument.wide_iff

theorem pair (callee : String) (first : Spans lexicon left leftWide)
    (second : Spans lexicon right rightWide) :
    Spans lexicon (.call callee [left, right]) (leftWide ∨ rightWide) := by
  have joined := first.binary .add second
  refine ⟨?_, ?_, ?_⟩
  · rw [Lexicon.readsBack_call, List.forall_mem_cons, List.forall_mem_singleton]
    exact ⟨first.readsBack, second.readsBack⟩
  · simpa [ParseTree.integers, ParseTree.integersOf] using joined.bound
  · simpa [ParseTree.integers, ParseTree.integersOf] using joined.wide_iff

/-- Trees that are joined from the left are wide where one of them is. -/
theorem foldl {α : Type} {items : List α} {argument : α → ParseTree} {wideOf : α → Prop}
    {join : ParseTree → ParseTree → ParseTree}
    (joined : ∀ {left right leftWide rightWide}, Spans lexicon left leftWide →
      Spans lexicon right rightWide → Spans lexicon (join left right) (leftWide ∨ rightWide))
    (ofLeft : Spans lexicon left leftWide)
    (each : ∀ item ∈ items, Spans lexicon (argument item) (wideOf item)) :
    Spans lexicon ((items.map argument).foldl join left)
      (leftWide ∨ ∃ item ∈ items, wideOf item) := by
  induction items generalizing left leftWide with
  | nil =>
      exact ofLeft.congr (by simp)
  | cons first others inductionHypothesis =>
      rw [List.forall_mem_cons] at each
      exact (inductionHypothesis (joined ofLeft each.1) each.2).congr (by simp [or_assoc])

/-- A tree that is not wide has no integer above the greatest one that has a type. -/
theorem fits_iff (spans : Spans lexicon tree wide) :
    (∀ value ∈ tree.integers, value ≤ 9223372036854775807) ↔ ¬ wide := by
  rw [← spans.wide_iff]
  constructor
  · intro fits member
    have bound := fits _ member
    omega
  · intro absent value member
    have bound := spans.bound value member
    have other : value ≠ 9223372036854775808 := fun same => absent (same ▸ member)
    omega

end Spans

/-! ## Literals -/

section Literals

variable {lexicon : Lexicon}

theorem spans_ofInt (value : Int64) :
    Spans lexicon (.ofInt value.toInt) (value = Int64.minValue) := by
  have lower : Int64.minValue.toInt ≤ value.toInt := value.minValue_le_toInt
  have upper : value.toInt ≤ Int64.maxValue.toInt := value.toInt_le
  rw [Int64.toInt_minValue] at lower
  rw [Int64.toInt_maxValue] at upper
  have least : 9223372036854775808 = value.toInt.natAbs ↔ value = Int64.minValue := by
    rw [← Int64.toInt_inj, Int64.toInt_minValue]
    omega
  have magnitude : Spans lexicon (.integer value.toInt.natAbs) (value = Int64.minValue) :=
    (Spans.integer (by omega)).congr least
  rw [ParseTree.ofInt]
  split
  · exact magnitude.negative
  · exact magnitude

theorem spans_literalTree_int (value : Int64) :
    Spans lexicon (literalTree (.int value)) False := by
  rw [literalTree]
  split
  · have first : Spans lexicon (.integer 9223372036854775807) _ := .integer (by decide)
    have second : Spans lexicon (.integer 1) _ := .integer (by decide)
    exact (first.negative.binary .sub second).congr (by decide)
  · next greater =>
      exact (spans_ofInt value).congr (iff_false_intro greater)

/-- What is no finite number is a call without arguments. -/
theorem spans_literalTree_float {value : Float}
    (unbounded : ¬ (value.isNaN = false ∧ value.isInf = false)) :
    Spans lexicon (literalTree (.float value)) False := by
  have named (callee : String) : Spans lexicon (.call callee []) False :=
    .of_integers_eq_nil rfl (List.forall_mem_nil _)
  rw [literalTree]
  split
  · exact named _
  · next number =>
      split
      · split
        · exact named _
        · exact (named _).negative
      · next bounded =>
          exact absurd ⟨Bool.eq_false_of_not_eq_true number,
            Bool.eq_false_of_not_eq_true bounded⟩ unbounded

/-- A finite number is a numeral, of whichever number, with its own sign. -/
theorem exists_spans_scalar (decimal : Float) {value : Float} (number : value.isNaN = false)
    (bounded : value.isInf = false) :
    ∃ tree, Spells (uniform false decimal) (scalar (Literal.float value).text) .atom tree ∧
      Spans (uniform false decimal) tree False := by
  have spells : Spells (uniform false decimal) (Literal.float value).text _ _ :=
    Spells.signedNumeral number bounded fun _ => rfl
  refine ⟨_, spells_scalar rfl (spells.mono (Precedence.comparison_le _)), .converted _ ?_⟩
  have magnitude : Spans (uniform false decimal) (.decimal decimal) False :=
    .of_integers_eq_nil rfl (List.forall_mem_singleton.mpr rfl)
  split
  · exact magnitude.negative
  · exact magnitude

/-- No literal is too wide. -/
theorem exists_spans_literal (decimal : Float) (constant : Literal) :
    ∃ tree, (literal constant).ReadsAs (uniform false decimal) tree ∧
      Spans (uniform false decimal) tree False := by
  cases constant with
  | int value =>
      exact ⟨_, readsAs_literal rfl (.int value), spans_literalTree_int value⟩
  | float value =>
      by_cases finite : value.isNaN = false ∧ value.isInf = false
      · rw [literal, if_neg (Bool.eq_false_iff.mp finite.1), if_neg (Bool.eq_false_iff.mp finite.2)]
        exact exists_spans_scalar decimal finite.1 finite.2
      · exact ⟨_, readsAs_literal rfl (.float value), spans_literalTree_float finite⟩

end Literals

/-! ## Operations -/

section Operations

variable {lexicon : Lexicon} {operand first : TreeOperand} {operands others : List TreeOperand}

/-- An argument that is converted if it is an integer is wide if it is the least integer. -/
theorem spans_scalarTree (spans : Spans lexicon operand.tree (WritesWide operand.source)) :
    Spans lexicon (scalarTree operand)
      (isLeastInteger operand.source = true ∨ WritesWide operand.source) := by
  rw [scalarTree]
  split
  · next value isInteger =>
      have literal := not_writesWide_literal (.int value)
      refine ((spans_ofInt value).converted "Scalar").congr ?_
      rw [isInteger, isLeastInteger, beq_iff_eq, or_iff_left literal]
  · next notInteger =>
      refine spans.congr (or_iff_right ?_).symm
      intro least
      rw [isLeastInteger.eq_def] at least
      split at least
      · next value isInteger =>
          exact notInteger value isInteger
      · cases least

theorem spans_nestedCall (callee : String)
    (each : ∀ operand ∈ first :: others, Spans lexicon operand.tree (WritesWide operand.source)) :
    Spans lexicon (nestedCall callee first others)
      (∃ operand ∈ first :: others,
        isLeastInteger operand.source = true ∨ WritesWide operand.source) := by
  rw [List.forall_mem_cons] at each
  have nested := Spans.foldl (Spans.pair callee) (spans_scalarTree each.1)
    fun other member => spans_scalarTree (each.2 other member)
  exact nested.congr (by simp only [List.exists_mem_cons_iff])

theorem spans_chain (operator : Operator)
    (each : ∀ operand ∈ first :: others, Spans lexicon operand.tree (WritesWide operand.source)) :
    Spans lexicon ((others.map (·.tree)).foldl (.binary operator) first.tree)
      (∃ operand ∈ first :: others, WritesWide operand.source) := by
  rw [List.forall_mem_cons] at each
  have joined := Spans.foldl (Spans.binary operator) each.1 each.2
  exact joined.congr (by simp only [List.exists_mem_cons_iff])

theorem convertsLiterals_of_comparisonSign? {operation : Operation} {sign : String}
    (found : operation.comparisonSign? = some sign) : convertsLiterals operation = false := by
  cases operation <;> first | rfl | cases found

theorem convertsLiterals_of_callee? {operation : Operation} {callee : String}
    (found : callee? operation = some callee) : convertsLiterals operation = false := by
  cases operation <;> first | rfl | cases found

/-- An operation is wide where an argument is, and where it converts the least integer. -/
theorem spans_combineTree {operation : Operation} {written : List Operand} {fragment : Fragment}
    (accepted : operation.arity.accepts operands.length = true)
    (lengths : written.length = operands.length)
    (each : ∀ operand ∈ operands, Spans lexicon operand.tree (WritesWide operand.source))
    (combined : combine? operation written = some fragment) :
    Spans lexicon (combineTree .cpp operation operands)
      (WritesWide (.op operation (operands.map (·.source)))) := by
  -- The least integer among the arguments counts for three of the operations only.
  have kept {tree : ParseTree} (keeps : convertsLiterals operation = false)
      (spans : Spans lexicon tree (∃ operand ∈ operands, WritesWide operand.source)) :
      Spans lexicon tree (WritesWide (.op operation (operands.map (·.source)))) :=
    spans.congr (writesWide_op_of_keeps keeps).symm
  have converted {tree : ParseTree} (converts : convertsLiterals operation = true)
      (spans : Spans lexicon tree (∃ operand ∈ operands,
        isLeastInteger operand.source = true ∨ WritesWide operand.source)) :
      Spans lexicon tree (WritesWide (.op operation (operands.map (·.source)))) :=
    spans.congr (writesWide_op_of_converts converts).symm
  cases combines_of_combine? combined with
  | difference | product =>
      cases operands with
      | nil => cases accepted
      | cons first others => exact kept rfl (spans_chain _ each)
  | quotient =>
      obtain ⟨numerator, denominator, rfl⟩ := List.length_eq_two.mp lengths.symm
      rw [List.forall_mem_cons, List.forall_mem_singleton] at each
      refine kept rfl ?_
      rw [combineTree]
      split
      · exact ((each.1.converted _).binary .div each.2).congr (by simp)
      · exact (each.1.binary .div each.2).congr (by simp)
  | power =>
      obtain ⟨base, exponent, rfl⟩ := List.length_eq_two.mp lengths.symm
      rw [List.forall_mem_cons, List.forall_mem_singleton] at each
      have called := (spans_scalarTree each.1).pair "std::pow" (spans_scalarTree each.2)
      exact converted rfl (called.congr (by simp))
  | negation =>
      obtain ⟨operand, rfl⟩ := List.length_eq_one_iff.mp lengths.symm
      rw [List.forall_mem_singleton] at each
      exact kept rfl (each.negative.congr (by simp))
  | sign =>
      obtain ⟨operand, rfl⟩ := List.length_eq_one_iff.mp lengths.symm
      rw [List.forall_mem_singleton] at each
      have zero : Spans lexicon (.integer 0) _ := .integer (by decide)
      have compared := (each.binary .gt zero).binary .sub (each.binary .lt zero)
      exact kept rfl ((compared.converted "Scalar").congr (by simp))
  | minimum | maximum =>
      cases operands with
      | nil => cases accepted
      | cons first others => exact converted rfl (spans_nestedCall _ each)
  | comparison _ _ found =>
      obtain ⟨left, right, rfl⟩ := List.length_eq_two.mp lengths.symm
      obtain ⟨operator, isOperator, _, _⟩ := Operation.comparison?_of_comparisonSign? found
      rw [List.forall_mem_cons, List.forall_mem_singleton] at each
      refine kept (convertsLiterals_of_comparisonSign? found) ?_
      rw [combineTree_comparison isOperator]
      exact ((each.1.binary operator each.2).converted _).congr (by simp)
  | call _ found =>
      refine kept (convertsLiterals_of_callee? found) ?_
      rw [(combineTree_call found operands).1]
      exact .call _ each

end Operations

/-! ## Expressions -/

/-- The text reads as a tree that is wide just if the expression is. -/
def ReadsWide (decimal : Float) (expr : Expr) (fragment : Fragment) : Prop :=
  ∃ tree, fragment.ReadsAs (uniform false decimal) tree ∧
    Spans (uniform false decimal) tree (WritesWide expr)

theorem readsWide_literal (decimal : Float) (constant : Literal) :
    ReadsWide decimal (.literal constant) (literal constant) := by
  obtain ⟨tree, reads, spans⟩ := exists_spans_literal decimal constant
  exact ⟨tree, reads, spans.congr (iff_of_false id (not_writesWide_literal constant))⟩

/-- A term of a sum is wide where it would be outside of the sum. -/
theorem readsWide_term {decimal : Float} {expr : Expr} {term : Term}
    (writes : Target.cpp.WritesTerm
      (fun expr fragment => expr.UsesIdentifiers → ReadsWide decimal expr fragment) expr term)
    (identifiers : expr.UsesIdentifiers) : ReadsWide decimal expr term.fragment := by
  cases writes with
  | @negated operand _ holds =>
      obtain ⟨tree, reads, spans⟩ :=
        holds (Expr.usesIdentifiers_op.mp identifiers operand List.mem_cons_self)
      have same : WritesWide (.op .neg [operand]) ↔ WritesWide operand := by
        simp [writesWide_op, convertsLeast, convertsLiterals]
      exact ⟨tree, reads, spans.congr same.symm⟩
  | literal constant =>
      have written : ∃ number, (Target.cpp.literalTerm constant).fragment = literal number := by
        rw [Target.literalTerm]
        split
        · exact ⟨_, rfl⟩
        · exact ⟨_, rfl⟩
      obtain ⟨number, isNumber⟩ := written
      obtain ⟨tree, reads, spans⟩ := exists_spans_literal decimal number
      rw [isNumber]
      exact ⟨tree, reads, spans.congr (iff_of_false id (not_writesWide_literal constant))⟩
  | plain _ _ holds =>
      exact holds identifiers

theorem exists_spans_terms {decimal : Float} {others : List Expr} {terms : List Term}
    (each : List.Forall₂
      (Target.cpp.WritesTerm fun expr fragment =>
        expr.UsesIdentifiers → ReadsWide decimal expr fragment)
      others terms)
    (identifiers : ∀ other ∈ others, other.UsesIdentifiers)
    {text : String} {tree : ParseTree} {wide : Prop}
    (sum : Spells (uniform false decimal) text .sum tree)
    (spans : Spans (uniform false decimal) tree wide) :
    ∃ whole,
      Spells (uniform false decimal) (text ++ String.join (terms.map Term.text)) .sum whole ∧
        Spans (uniform false decimal) whole (wide ∨ ∃ other ∈ others, WritesWide other) := by
  induction each generalizing text tree wide with
  | nil =>
      exact ⟨tree, by simpa using sum, spans.congr (by simp)⟩
  | @cons other term others terms writes _ inductionHypothesis =>
      rw [List.forall_mem_cons] at identifiers
      obtain ⟨termTree, reads, termSpans⟩ := readsWide_term writes identifiers.1
      obtain ⟨whole, spells, wholeSpans⟩ := inductionHypothesis identifiers.2
        (sum.term term reads) (spans.binary term.operator termSpans)
      refine ⟨whole, ?_, wholeSpans.congr (by simp [or_assoc])⟩
      rwa [List.map_cons, String.join_cons, ← String.append_assoc]

/-- The operands of an operation, each with the tree that it is read as. -/
theorem exists_treeOperands {decimal : Float} {operands : List Operand}
    (written : ∀ operand ∈ operands, Target.cpp.write operand.source = .ok operand.fragment)
    (reads : ∀ operand ∈ operands, ReadsWide decimal operand.source operand.fragment) :
    ∃ arguments : List TreeOperand,
      List.Forall₂ (Operand.ReadsAs .cpp (uniform false decimal)) operands arguments ∧
        (∀ argument ∈ arguments,
          Spans (uniform false decimal) argument.tree (WritesWide argument.source)) ∧
        arguments.map (·.source) = operands.map Operand.source := by
  induction operands with
  | nil =>
      exact ⟨[], .nil, List.forall_mem_nil _, rfl⟩
  | cons operand others inductionHypothesis =>
      rw [List.forall_mem_cons] at written reads
      obtain ⟨tree, ofTree, spans⟩ := reads.1
      obtain ⟨arguments, each, allSpan, sources⟩ := inductionHypothesis written.2 reads.2
      refine ⟨⟨operand.source, tree⟩ :: arguments, ?_, ?_, ?_⟩
      · exact .cons ⟨rfl, Target.integer_write written.1, ofTree⟩ each
      · exact List.forall_mem_cons.mpr ⟨spans, allSpan⟩
      · rw [List.map_cons, List.map_cons, sources]

theorem readsWide_write (decimal : Float) {expr : Expr} {fragment : Fragment}
    (written : Target.cpp.write expr = .ok fragment) (identifiers : expr.UsesIdentifiers) :
    ReadsWide decimal expr fragment := by
  refine Target.write_induct
    (motive := fun expr fragment => expr.UsesIdentifiers → ReadsWide decimal expr fragment)
    ?symbol ?literal ?sum ?combined written identifiers
  case symbol =>
    intro leaf identifiers
    refine ⟨_, Spells.symbol (identifiers leaf List.mem_cons_self), ?_⟩
    exact (Spans.symbol leaf).congr (iff_of_false id (not_writesWide_symbol leaf))
  case literal =>
    intro constant _
    exact readsWide_literal decimal constant
  case sum =>
    intro first others head terms ofFirst ofOthers identifiers
    rw [Expr.usesIdentifiers_op, List.forall_mem_cons] at identifiers
    obtain ⟨tree, reads, spans⟩ := ofFirst identifiers.1
    obtain ⟨whole, spells, wholeSpans⟩ :=
      exists_spans_terms ofOthers identifiers.2 (reads.atLeast .sum) spans
    have same : WritesWide (.op .add (first :: others)) ↔
        WritesWide first ∨ ∃ other ∈ others, WritesWide other := by
      simp [writesWide_op, convertsLeast, convertsLiterals]
    exact ⟨whole, spells, wholeSpans.congr same.symm⟩
  case combined =>
    intro operation operands fragment accepted _ each combined identifiers
    rw [Expr.usesIdentifiers_op, List.forall_mem_map] at identifiers
    obtain ⟨arguments, reads, spans, sources⟩ := exists_treeOperands
      (fun operand member => (each operand member).1)
      fun operand member => (each operand member).2 (identifiers operand member)
    rw [← sources]
    refine ⟨_, readsAs_combineTree rfl accepted reads combined, ?_⟩
    exact spans_combineTree (reads.length_eq ▸ accepted) reads.length_eq spans combined

/-- The integers in a text that is written in C++, indices in brackets apart, are at most
the magnitude of the least integer.  They all have a type just if no power, minimum or maximum in
the expression has the least integer among its arguments. -/
theorem integers_of_render {expr : Expr} {text : String}
    (rendered : Target.cpp.render expr = .ok text) (identifiers : expr.UsesIdentifiers) :
    (∀ decimal, ∃ tokens, (uniform false decimal).tokenize? text.toList = some tokens) ∧
      ∀ decimal? tokens, tokenize? ⟨false, decimal?⟩ text.toList = some tokens →
        (∀ value ∈ Token.integers tokens, value ≤ 9223372036854775808) ∧
          ((∀ value ∈ Token.integers tokens, value ≤ 9223372036854775807) ↔
            ∀ node ∈ expr.nodes, convertsLeast node = false) := by
  obtain ⟨fragment, written, pureText⟩ := Outcome.bind_eq_ok_iff.mp rendered
  obtain rfl := Outcome.pure_eq_ok_iff.mp pureText
  have read (decimal : Float) : ∃ tree,
      (uniform false decimal).read? fragment.text = some tree ∧
        Spans (uniform false decimal) tree (WritesWide expr) := by
    obtain ⟨tree, reads, spans⟩ := readsWide_write decimal written identifiers
    exact ⟨tree, reads.whole.read? spans.readsBack, spans⟩
  refine ⟨fun decimal => ?_, fun decimal? tokens cut => ?_⟩
  · obtain ⟨tree, isTree, _⟩ := read decimal
    exact (integers_of_read? isTree).1
  · obtain ⟨tree, isTree, spans⟩ := read 0.0
    rw [(integers_of_read? isTree).2 decimal? tokens cut]
    refine ⟨spans.bound, spans.fits_iff.trans ?_⟩
    simp only [WritesWide, not_exists, not_and, Bool.not_eq_true]

/-- Sums, signs, differences and quotients of the least integer, and a maximum that has it in an
argument only. -/
def leastIntegers : Expr :=
  .op .add
    [.literal (.int Int64.minValue),
      .op .neg [.op .div [.literal (.int Int64.minValue), .literal (.int 3)]],
      .literal (.int Int64.minValue),
      .op .max
        [.symbol (.element "a" 9223372036854775808),
          .op .sub [.literal (.int Int64.minValue), .literal (.int 2)]]]

def leastIntegersText : String :=
  "(-9223372036854775807 - 1) - Scalar((-9223372036854775807 - 1)) / 3 + " ++
    "(-9223372036854775807 - 1) + " ++
    "std::max<Scalar>(a[9223372036854775808], (-9223372036854775807 - 1) - 2)"

theorem integers_of_render_leastIntegers :
    Target.cpp.render leastIntegers = .ok leastIntegersText ∧
      ∀ decimal? tokens, tokenize? ⟨false, decimal?⟩ leastIntegersText.toList = some tokens →
        ∀ value ∈ Token.integers tokens, value ≤ 9223372036854775807 := by
  have rendered : Target.cpp.render leastIntegers = .ok leastIntegersText := by
    decide +kernel
  refine ⟨rendered, fun decimal? tokens cut => ?_⟩
  exact ((integers_of_render rendered (by decide)).2 decimal? tokens cut).2.mpr (by decide)

/-- A power with the least integer as its exponent has a literal that is too wide. -/
theorem wide_power_of_least :
    Target.cpp.render (.op .pow [.symbol (.named "x"), .literal (.int Int64.minValue)]) =
        .ok "std::pow(x, Scalar(-9223372036854775808))" ∧
      (tokenize? ⟨false, fun _ => none⟩
          "std::pow(x, Scalar(-9223372036854775808))".toList).map Token.integers =
        some [9223372036854775808] := by
  decide +kernel

end Cpp

end LieScribe
