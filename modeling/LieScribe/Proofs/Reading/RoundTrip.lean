import LieScribe.Proofs.Expr
import LieScribe.Proofs.Reading.Operations

/-!
# Written texts read back

The text of an expression is cut into tokens and read as a whole by the grammar of
its target, and what is read is the tree of the expression.  The names of symbols have
to be identifiers, and the decimals of the tree have to be read back.
-/

namespace LieScribe

open Lexicon

/-! ## Names -/

/-- All symbols are identifiers or elements of arrays named by identifiers. -/
def Expr.UsesIdentifiers (expr : Expr) : Prop :=
  ∀ symbol ∈ expr.symbols, isIdentifier symbol.baseName = true

instance (expr : Expr) : Decidable expr.UsesIdentifiers :=
  inferInstanceAs (Decidable (∀ symbol ∈ expr.symbols, isIdentifier symbol.baseName = true))

theorem Expr.usesIdentifiers_op {operation : Operation} {arguments : List Expr} :
    (Expr.op operation arguments).UsesIdentifiers ↔
      ∀ argument ∈ arguments, argument.UsesIdentifiers := by
  simp only [Expr.UsesIdentifiers, Expr.mem_symbols_op]
  grind

theorem Spells.symbol {lexicon : Lexicon} {leaf : Symbol}
    (identifier : isIdentifier leaf.baseName = true) :
    Spells lexicon leaf.text .atom (.ofSymbol leaf) := by
  have named := isName_of_isIdentifier lexicon.python identifier
  cases leaf with
  | named text =>
      exact Spells.name named
  | element array index =>
      exact Spells.element index named

/-- A text that spells a tree is read as the tree. -/
theorem Spells.read? {lexicon : Lexicon} {text : String} {tree : ParseTree}
    (spells : Spells lexicon text .comparison tree) (readsBack : lexicon.ReadsBack tree) :
    lexicon.read? text = some tree := by
  obtain ⟨tokens, lexes, reads⟩ := spells.tokens readsBack
  have tokenized := lexes [] [] trivial (by rw [tokenize?])
  rw [List.append_nil, List.append_nil] at tokenized
  simp only [Lexicon.read?, tokenized, Option.bind_eq_bind, Option.bind_some, reads.readAll]

namespace Target

variable {target : Target} {lexicon : Lexicon}

/-! ## Sums and operations -/

theorem spells_addTerms (dialect : lexicon.python = target.isPython) {others : List Expr}
    {terms : List Term} {text : String} {tree : ParseTree}
    (each : List.Forall₂
      (target.WritesTerm fun expr fragment =>
        expr.UsesIdentifiers → fragment.ReadsAs lexicon (target.tree expr))
      others terms)
    (identifiers : ∀ other ∈ others, other.UsesIdentifiers)
    (sum : Spells lexicon text .sum tree) :
    Spells lexicon (text ++ String.join (terms.map Term.text)) .sum
      (target.addTerms tree others) := by
  induction each generalizing text tree with
  | nil =>
      simpa [addTerms] using sum
  | cons writes _ inductionHypothesis =>
      rw [List.forall_mem_cons] at identifiers
      rw [List.map_cons, String.join_cons, ← String.append_assoc]
      cases writes with
      | negated holds =>
          have operand := Expr.usesIdentifiers_op.mp identifiers.1 _ List.mem_cons_self
          rw [addTerms]
          exact inductionHypothesis identifiers.2 (sum.term ⟨true, _⟩ (holds operand))
      | literal constant =>
          rw [addTerms]
          exact inductionHypothesis identifiers.2 (spells_literalTerm dialect sum constant)
      | plain notNegated notLiteral holds =>
          rw [addTerms.eq_4 _ _ _ _ notNegated notLiteral]
          exact inductionHypothesis identifiers.2
            (sum.term ⟨false, _⟩ (holds identifiers.1))

theorem readsAs_treeOperands {operands : List Operand}
    (written : ∀ operand ∈ operands, target.write operand.source = .ok operand.fragment)
    (reads : ∀ operand ∈ operands,
      operand.fragment.ReadsAs lexicon (target.tree operand.source)) :
    List.Forall₂ (Operand.ReadsAs target lexicon) operands
      (target.treeOperands (operands.map Operand.source)) := by
  induction operands with
  | nil =>
      exact .nil
  | cons operand others inductionHypothesis =>
      rw [List.forall_mem_cons] at written reads
      exact .cons ⟨rfl, integer_write written.1, reads.1⟩
        (inductionHypothesis written.2 reads.2)

theorem readsAs_combineTree (dialect : lexicon.python = target.isPython)
    {operation : Operation} {operands : List Operand} {arguments : List TreeOperand}
    {fragment : Fragment} (accepted : operation.arity.accepts operands.length = true)
    (each : List.Forall₂ (Operand.ReadsAs target lexicon) operands arguments)
    (combined : target.combine? operation operands = some fragment) :
    fragment.ReadsAs lexicon (target.combineTree operation arguments) := by
  cases target with
  | python2 | python3 =>
      exact Python.readsAs_combineTree dialect accepted each combined
  | cpp =>
      exact Cpp.readsAs_combineTree dialect accepted each combined

/-! ## Expressions -/

theorem readsAs_write (dialect : lexicon.python = target.isPython) {expr : Expr}
    {fragment : Fragment} (written : target.write expr = .ok fragment)
    (identifiers : expr.UsesIdentifiers) :
    fragment.ReadsAs lexicon (target.tree expr) := by
  refine write_induct
    (motive := fun expr fragment =>
      expr.UsesIdentifiers → fragment.ReadsAs lexicon (target.tree expr))
    ?symbol ?literal ?sum ?combined written identifiers
  case symbol =>
    intro leaf identifiers
    exact Spells.symbol (identifiers leaf List.mem_cons_self)
  case literal =>
    intro constant _
    exact readsAs_literal dialect constant
  case sum =>
    intro first others head terms ofFirst ofOthers identifiers
    rw [Expr.usesIdentifiers_op, List.forall_mem_cons] at identifiers
    rw [tree]
    exact spells_addTerms dialect ofOthers identifiers.2
      ((ofFirst identifiers.1).atLeast .sum)
  case combined =>
    intro operation operands fragment accepted notSum each combined identifiers
    rw [Expr.usesIdentifiers_op, List.forall_mem_map] at identifiers
    rw [tree_op notSum]
    have arguments := readsAs_treeOperands (fun operand member => (each operand member).1)
      fun operand member => (each operand member).2 (identifiers operand member)
    exact readsAs_combineTree dialect accepted arguments combined

theorem read?_of_render (dialect : lexicon.python = target.isPython) {expr : Expr}
    {text : String} (rendered : target.render expr = .ok text)
    (identifiers : expr.UsesIdentifiers) (readsBack : lexicon.ReadsBack (target.tree expr)) :
    lexicon.read? text = some (target.tree expr) := by
  obtain ⟨fragment, written, pureText⟩ := Outcome.bind_eq_ok_iff.mp rendered
  obtain rfl := Outcome.pure_eq_ok_iff.mp pureText
  exact (readsAs_write dialect written identifiers).whole.read? readsBack

/-! ## The targets -/

/-- In both dialects of Python, the text of an expression reads back as its tree. -/
theorem read_render_python (python : target.isPython = true)
    (decimal? : String → Option Float) {expr : Expr} {text : String}
    (rendered : target.render expr = .ok text) (identifiers : expr.UsesIdentifiers)
    (readsBack : Lexicon.ReadsBack ⟨true, decimal?⟩ (target.tree expr)) :
    Lexicon.read? ⟨true, decimal?⟩ text = some (target.tree expr) := by
  have dialect : (Lexicon.mk true decimal?).python = target.isPython := python.symm
  exact read?_of_render dialect rendered identifiers readsBack

/-- A sum with a negated product, a quotient of integers and a negative literal. -/
def shiftedQuotient : Expr :=
  .op .add
    [.symbol (.named "x"),
      .op .neg [.op .mul [.symbol (.element "a" 0), .literal (.float 1.5)]],
      .op .div [.literal (.int 2), .literal (.int 3)],
      .literal (.float (-2.5))]

theorem read_render_shiftedQuotient :
    Target.python2.render shiftedQuotient = .ok "x - a[0]*1.5 + 2.0/3 - 2.5" ∧
      Lexicon.read? ⟨true, ([("1.5", 1.5), ("2.0", 2.0), ("2.5", 2.5)].lookup ·)⟩
          "x - a[0]*1.5 + 2.0/3 - 2.5" =
        some (.binary .sub
          (.binary .add
            (.binary .sub (.name "x") (.binary .mul (.element "a" 0) (.decimal 1.5)))
            (.binary .div (.decimal 2.0) (.integer 3)))
          (.decimal 2.5)) := by
  have rendered : Target.python2.render shiftedQuotient =
      .ok "x - a[0]*1.5 + 2.0/3 - 2.5" := rfl
  exact ⟨rendered, read_render_python rfl _ rendered (by decide) (by decide)⟩

/-- In C++, the text of an expression reads back as its tree. -/
theorem read_render_cpp (decimal? : String → Option Float) {expr : Expr} {text : String}
    (rendered : Target.cpp.render expr = .ok text) (identifiers : expr.UsesIdentifiers)
    (readsBack : Lexicon.ReadsBack ⟨false, decimal?⟩ (Target.cpp.tree expr)) :
    Lexicon.read? ⟨false, decimal?⟩ text = some (Target.cpp.tree expr) := by
  have dialect : (Lexicon.mk false decimal?).python = Target.cpp.isPython := rfl
  exact read?_of_render dialect rendered identifiers readsBack

/-- A minimum of three less a product with a sign and the least integer. -/
def clampedSign : Expr :=
  .op .sub
    [.op .min [.symbol (.named "x"), .literal (.int 1), .symbol (.element "a" 0)],
      .op .mul
        [.op .sign [.symbol (.named "x")],
          .op .div [.literal (.int 1), .literal (.int Int64.minValue)],
          .literal (.float 2.5)]]

def clampedSignText : String :=
  "std::min<Scalar>(std::min<Scalar>(x, Scalar(1)), a[0]) - " ++
    "Scalar(((x) > 0) - ((x) < 0)) * (Scalar(1) / (-9223372036854775807 - 1)) * Scalar(2.5)"

theorem read_render_clampedSign :
    Target.cpp.render clampedSign = .ok clampedSignText ∧
      Lexicon.read? ⟨false, ([("2.5", 2.5)].lookup ·)⟩ clampedSignText =
        some (.binary .sub
          (.call "std::min<Scalar>"
            [.call "std::min<Scalar>" [.name "x", .call "Scalar" [.integer 1]],
              .element "a" 0])
          (.binary .mul
            (.binary .mul
              (.call "Scalar"
                [.binary .sub (.binary .gt (.name "x") (.integer 0))
                  (.binary .lt (.name "x") (.integer 0))])
              (.binary .div (.call "Scalar" [.integer 1])
                (.binary .sub (.negative (.integer 9223372036854775807)) (.integer 1))))
            (.call "Scalar" [.decimal 2.5]))) := by
  have rendered : Target.cpp.render clampedSign = .ok clampedSignText := by
    decide +kernel
  exact ⟨rendered, read_render_cpp _ rendered (by decide) (by decide)⟩

end Target

end LieScribe
