import LieScribe.Proofs.Evaluation
import LieScribe.Proofs.Python.Values
import LieScribe.Proofs.Reading.Marks
import LieScribe.Proofs.Reading.RoundTrip

/-!
# Integers and floats at run time

Whether a text is computed with integers is decided when it is written, from the
expression alone; whether its value is an integer shows when it runs.  A minimum or
maximum is marked only if all its arguments are, and its value may be that of a marked
one.  Apart from such mixtures, a text that is not marked has a float as its value if all
names are bound to floats.  Quotients of texts that are marked are written with a
conversion, so no quotient is one of integers then.
-/

namespace LieScribe

theorem Target.areIntegers_eq_all (target : Target) (exprs : List Expr) :
    target.areIntegers exprs = exprs.all target.isInteger := by
  induction exprs with
  | nil =>
      rfl
  | cons first others inductionHypothesis =>
      rw [areIntegers, inductionHypothesis, List.all_cons]

namespace Python

variable {α : Type} {floats : Floats α} {bindings : Bindings (Value α)}

/-! ## Values of single texts -/

theorem isInt_keep (ofInt : Int → Int) (ofFloat : α → α) (value : Value α) :
    (Floats.keep ofInt ofFloat value).isInt = value.isInt := by
  cases value <;> rfl

/-- An operation other than a comparison gives an integer for integers only. -/
theorem isInt_operate {operator : Operator} (combines : operator.precedence ≠ .comparison)
    {left right : Value α} (integer : (floats.operate operator left right).isInt = true) :
    left.isInt = true ∧ right.isInt = true := by
  cases operator with
  | lt | le | gt | ge => exact absurd rfl combines
  | add | sub | mul | div | pow =>
      cases left <;> cases right <;> first | exact ⟨rfl, rfl⟩ | cases integer

end Python

namespace ParseTree

open Python

variable {α : Type} {floats : Floats α} {bindings : Bindings (Value α)}

theorem isInt_eq_of_value? {tree : ParseTree} {value : Value α}
    (evaluated : tree.value? floats bindings = some value) :
    tree.isInt floats bindings = value.isInt := by
  rw [isInt, evaluated, Option.any_some]

theorem isInt_negative (operand : ParseTree) :
    (negative operand).isInt floats bindings = operand.isInt floats bindings := by
  rw [isInt, value?, Option.any_map, isInt]
  congr 1
  funext value
  exact isInt_keep _ _ value

theorem value?_binary {operator : Operator} {left right : ParseTree} {leftValue rightValue : Value α}
    (ofLeft : left.value? floats bindings = some leftValue)
    (ofRight : right.value? floats bindings = some rightValue) :
    (binary operator left right).value? floats bindings =
      some (floats.operate operator leftValue rightValue) := by
  rw [value?, ofLeft, ofRight]
  rfl

theorem exists_values? {trees : List ParseTree}
    (each : ∀ tree ∈ trees, ∃ value, tree.value? floats bindings = some value) :
    ∃ values, values? floats bindings trees = some values ∧ values.length = trees.length ∧
      ∀ value ∈ values, ∃ tree ∈ trees, tree.value? floats bindings = some value := by
  induction trees with
  | nil =>
      exact ⟨[], rfl, rfl, fun _ => (nomatch ·)⟩
  | cons first others inductionHypothesis =>
      rw [List.forall_mem_cons] at each
      obtain ⟨value, evaluated⟩ := each.1
      obtain ⟨values, evaluatedAll, lengths, sources⟩ := inductionHypothesis each.2
      refine ⟨value :: values, ?_, congrArg (· + 1) lengths, List.forall_mem_cons.mpr ⟨?_, ?_⟩⟩
      · rw [values?, evaluated, evaluatedAll]
        rfl
      · exact ⟨first, List.mem_cons_self, evaluated⟩
      · intro value later
        obtain ⟨tree, member, ofTree⟩ := sources value later
        exact ⟨tree, List.mem_cons_of_mem first member, ofTree⟩

theorem value?_call {callee : String} (notFloat : callee ≠ "float") (arguments : List ParseTree) :
    (call callee arguments).value? floats bindings =
      (values? floats bindings arguments).bind (floats.call? callee) := by
  rw [value?]
  · rfl
  · exact fun _ isFloat _ => notFloat isFloat

theorem value?_float {tree : ParseTree} {value : Value α}
    (evaluated : tree.value? floats bindings = some value) :
    (call "float" [tree]).value? floats bindings = some (.float (floats.ofValue value)) := by
  rw [value?, values?, evaluated, values?]
  · rfl
  · rintro text _ ⟨⟩
    cases evaluated

end ParseTree

namespace Python

variable {α : Type} {floats : Floats α} {bindings : Bindings (Value α)} {scope : List Symbol}

/-! ## Texts and their marks -/

/-- Nothing is an integer where a float was expected. -/
structure Calm (floats : Floats α) (bindings : Bindings (Value α)) (scope : List Symbol)
    (tree : ParseTree) : Prop where
  float : ∀ symbol ∈ scope, ∃ value, bindings.get? symbol = some (.float value)
  unmixed : ∀ node ∈ tree.nodes, node.isMixed floats bindings = false

/-- The mark of a text shows in its form, and says what happens when the text runs. -/
structure Typed (floats : Floats α) (bindings : Bindings (Value α)) (scope : List Symbol)
    (tree : ParseTree) (integer : Bool) : Prop where
  mark : tree.mayBeInt = integer
  evaluates : ∃ value, tree.value? floats bindings = some value
  float : Calm floats bindings scope tree → integer = false →
    tree.isInt floats bindings = false
  unfloored : Calm floats bindings scope tree →
    ∀ node ∈ tree.nodes, node.isFloored floats bindings = false

theorem Calm.mono {inner outer : ParseTree} (calm : Calm floats bindings scope outer)
    (inside : inner.nodes ⊆ outer.nodes) : Calm floats bindings scope inner :=
  ⟨calm.float, fun node member => calm.unmixed node (inside member)⟩

theorem Calm.operand {operand : ParseTree}
    (calm : Calm floats bindings scope (.negative operand)) :
    Calm floats bindings scope operand := by
  apply calm.mono
  rw [ParseTree.nodes]
  exact List.subset_cons_self _ _

theorem Calm.sides {operator : Operator} {left right : ParseTree}
    (calm : Calm floats bindings scope (.binary operator left right)) :
    Calm floats bindings scope left ∧ Calm floats bindings scope right := by
  constructor
  · apply calm.mono
    rw [ParseTree.nodes]
    exact List.subset_cons_of_subset _ (List.subset_append_left _ _)
  · apply calm.mono
    rw [ParseTree.nodes]
    exact List.subset_cons_of_subset _ (List.subset_append_right _ _)

theorem Calm.argument {callee : String} {arguments : List ParseTree}
    (calm : Calm floats bindings scope (.call callee arguments)) :
    ∀ argument ∈ arguments, Calm floats bindings scope argument := by
  intro argument member
  apply calm.mono
  intro node below
  rw [ParseTree.nodes]
  exact List.mem_cons_of_mem _ (ParseTree.mem_nodesOf.mpr ⟨argument, member, below⟩)

namespace Typed

variable {tree left right : ParseTree} {integer leftInteger rightInteger : Bool}

theorem ofInteger (value : Nat) : Typed floats bindings scope (.integer value) true :=
  ⟨rfl, ⟨_, rfl⟩, fun _ => nofun, fun _ => List.forall_mem_singleton.mpr rfl⟩

theorem decimal (value : Float) : Typed floats bindings scope (.decimal value) false :=
  ⟨rfl, ⟨_, rfl⟩, fun _ _ => rfl, fun _ => List.forall_mem_singleton.mpr rfl⟩

theorem floatOfText (text : String) :
    Typed floats bindings scope (.call "float" [.quoted text]) false :=
  ⟨rfl, ⟨_, rfl⟩, fun _ _ => rfl,
    fun _ => by simp [ParseTree.nodes, ParseTree.nodesOf, ParseTree.isFloored]⟩

theorem symbol {leaf : Symbol} (member : leaf ∈ scope)
    (bound : ∀ symbol ∈ scope, ∃ value, bindings.get? symbol = some value) :
    Typed floats bindings scope (.ofSymbol leaf) false := by
  have evaluated : (ParseTree.ofSymbol leaf).value? floats bindings = bindings.get? leaf := by
    cases leaf <;> rfl
  refine ⟨by cases leaf <;> rfl, ?_, fun calm _ => ?_, fun _ => ?_⟩
  · rw [evaluated]
    exact bound leaf member
  · obtain ⟨value, isFloat⟩ := calm.float leaf member
    exact ParseTree.isInt_eq_of_value? (evaluated.trans isFloat)
  · cases leaf <;> exact List.forall_mem_singleton.mpr rfl

theorem negative (operand : Typed floats bindings scope tree integer) :
    Typed floats bindings scope (.negative tree) integer := by
  refine ⟨operand.mark, ?_, fun calm notMarked => ?_, fun calm => ?_⟩
  · obtain ⟨value, evaluated⟩ := operand.evaluates
    rw [ParseTree.value?, evaluated]
    exact ⟨_, rfl⟩
  · rw [ParseTree.isInt_negative]
    exact operand.float calm.operand notMarked
  · rw [ParseTree.nodes]
    exact List.forall_mem_cons.mpr ⟨rfl, operand.unfloored calm.operand⟩

theorem binary_evaluates (operator : Operator)
    (ofLeft : Typed floats bindings scope left leftInteger)
    (ofRight : Typed floats bindings scope right rightInteger) :
    ∃ value, (ParseTree.binary operator left right).value? floats bindings = some value := by
  obtain ⟨leftValue, leftEvaluated⟩ := ofLeft.evaluates
  obtain ⟨rightValue, rightEvaluated⟩ := ofRight.evaluates
  exact ⟨_, ParseTree.value?_binary leftEvaluated rightEvaluated⟩

/-- An operation other than a comparison is a float if one of its sides is. -/
theorem isInt_binary {operator : Operator} (combines : operator.precedence ≠ .comparison)
    (ofLeft : Typed floats bindings scope left leftInteger)
    (ofRight : Typed floats bindings scope right rightInteger)
    (calm : Calm floats bindings scope (.binary operator left right))
    (notMarked : (leftInteger && rightInteger) = false) :
    (left.isInt floats bindings && right.isInt floats bindings) = false ∧
      (ParseTree.binary operator left right).isInt floats bindings = false := by
  obtain ⟨leftValue, leftEvaluated⟩ := ofLeft.evaluates
  obtain ⟨rightValue, rightEvaluated⟩ := ofRight.evaluates
  have sides : (left.isInt floats bindings && right.isInt floats bindings) = false := by
    rw [Bool.and_eq_false_iff] at notMarked ⊢
    exact notMarked.imp (ofLeft.float calm.sides.1) (ofRight.float calm.sides.2)
  refine ⟨sides, ?_⟩
  rw [ParseTree.isInt_eq_of_value? (ParseTree.value?_binary leftEvaluated rightEvaluated),
    Bool.eq_false_iff]
  intro isInt
  obtain ⟨leftInt, rightInt⟩ := isInt_operate combines isInt
  rw [ParseTree.isInt_eq_of_value? leftEvaluated, ParseTree.isInt_eq_of_value? rightEvaluated,
    leftInt, rightInt] at sides
  cases sides

theorem binary_unfloored {operator : Operator}
    (ofLeft : Typed floats bindings scope left leftInteger)
    (ofRight : Typed floats bindings scope right rightInteger)
    (calm : Calm floats bindings scope (.binary operator left right))
    (whole : (ParseTree.binary operator left right).isFloored floats bindings = false) :
    ∀ node ∈ (ParseTree.binary operator left right).nodes,
      node.isFloored floats bindings = false := by
  rw [ParseTree.nodes]
  exact List.forall_mem_cons.mpr ⟨whole, List.forall_mem_append.mpr
    ⟨ofLeft.unfloored calm.sides.1, ofRight.unfloored calm.sides.2⟩⟩

theorem binary {operator : Operator} (combines : operator.precedence ≠ .comparison)
    (notQuotient : operator ≠ .div)
    (ofLeft : Typed floats bindings scope left leftInteger)
    (ofRight : Typed floats bindings scope right rightInteger) :
    Typed floats bindings scope (.binary operator left right) (leftInteger && rightInteger) := by
  refine ⟨?_, binary_evaluates operator ofLeft ofRight, fun calm notMarked => ?_, fun calm => ?_⟩
  · rw [ParseTree.mayBeInt, ofLeft.mark, ofRight.mark, decide_eq_false combines,
      decide_eq_true notQuotient, Bool.false_or, Bool.true_and]
  · exact (isInt_binary combines ofLeft ofRight calm notMarked).2
  · apply binary_unfloored ofLeft ofRight calm
    cases operator <;> first | rfl | exact absurd rfl notQuotient

theorem comparison {operator : Operator} (compares : operator.precedence = .comparison)
    (ofLeft : Typed floats bindings scope left leftInteger)
    (ofRight : Typed floats bindings scope right rightInteger) :
    Typed floats bindings scope (.binary operator left right) true := by
  refine ⟨?_, binary_evaluates operator ofLeft ofRight, fun _ => nofun, fun calm => ?_⟩
  · rw [ParseTree.mayBeInt, decide_eq_true compares, Bool.true_or]
  · apply binary_unfloored ofLeft ofRight calm
    cases operator <;> first | rfl | cases compares

theorem quotient (ofLeft : Typed floats bindings scope left leftInteger)
    (ofRight : Typed floats bindings scope right rightInteger)
    (notBoth : (leftInteger && rightInteger) = false) :
    Typed floats bindings scope (.binary .div left right) false := by
  have combines : Operator.div.precedence ≠ .comparison := by decide
  refine ⟨rfl, binary_evaluates .div ofLeft ofRight, fun calm _ => ?_, fun calm => ?_⟩
  · exact (isInt_binary combines ofLeft ofRight calm notBoth).2
  · exact binary_unfloored ofLeft ofRight calm
      (isInt_binary combines ofLeft ofRight calm notBoth).1

theorem call_unfloored {callee : String} {arguments : List ParseTree}
    (each : ∀ argument ∈ arguments, ∃ integer, Typed floats bindings scope argument integer)
    (calm : Calm floats bindings scope (.call callee arguments)) :
    ∀ node ∈ (ParseTree.call callee arguments).nodes, node.isFloored floats bindings = false := by
  rw [ParseTree.nodes]
  refine List.forall_mem_cons.mpr ⟨rfl, fun node member => ?_⟩
  obtain ⟨argument, isArgument, below⟩ := ParseTree.mem_nodesOf.mp member
  obtain ⟨_, typed⟩ := each argument isArgument
  exact typed.unfloored (calm.argument argument isArgument) node below

theorem converted (typed : Typed floats bindings scope tree integer) :
    Typed floats bindings scope (.call "float" [tree]) false := by
  obtain ⟨value, evaluated⟩ := typed.evaluates
  refine ⟨rfl, ⟨_, ParseTree.value?_float evaluated⟩, fun _ _ => ?_, fun calm => ?_⟩
  · exact ParseTree.isInt_eq_of_value? (ParseTree.value?_float evaluated)
  · exact call_unfloored (List.forall_mem_singleton.mpr ⟨_, typed⟩) calm

end Typed

/-! ## Literals and functions -/

theorem typed_literalTree (constant : Literal) :
    Typed floats bindings scope (literalTree constant)
      (Target.python2.isInteger (.literal constant)) := by
  cases constant with
  | int value =>
      rw [literalTree, ParseTree.ofInt, Target.isInteger]
      split
      · exact (Typed.ofInteger _).negative
      · exact Typed.ofInteger _
  | float value =>
      rw [literalTree, Target.isInteger]
      split
      · exact Typed.floatOfText _
      · split
        · split
          · exact Typed.floatOfText _
          · exact (Typed.floatOfText _).negative
        · rw [ParseTree.ofFloat]
          split
          · exact (Typed.decimal _).negative
          · exact Typed.decimal _

section Calls

variable {callee : String} {operands : List TreeOperand}

theorem exists_values?_operands
    (each : ∀ operand ∈ operands, Typed floats bindings scope operand.tree
      (Target.python2.isInteger operand.source)) :
    ∃ values, ParseTree.values? floats bindings (operands.map (·.tree)) = some values ∧
      values.length = operands.length ∧
        ∀ value ∈ values, ∃ operand ∈ operands,
          operand.tree.value? floats bindings = some value := by
  obtain ⟨values, evaluated, lengths, sources⟩ := ParseTree.exists_values?
    (List.forall_mem_map.mpr fun operand member => (each operand member).evaluates)
  refine ⟨values, evaluated, by rw [lengths, List.length_map], fun value member => ?_⟩
  obtain ⟨_, isTree, ofTree⟩ := sources value member
  obtain ⟨operand, isOperand, rfl⟩ := List.mem_map.mp isTree
  exact ⟨operand, isOperand, ofTree⟩

theorem operands_unfloored
    (each : ∀ operand ∈ operands, Typed floats bindings scope operand.tree
      (Target.python2.isInteger operand.source))
    (calm : Calm floats bindings scope (.call callee (operands.map (·.tree)))) :
    ∀ node ∈ (ParseTree.call callee (operands.map (·.tree))).nodes,
      node.isFloored floats bindings = false :=
  Typed.call_unfloored (List.forall_mem_map.mpr fun operand member => ⟨_, each operand member⟩) calm

theorem allMayBeInt_operands
    (each : ∀ operand ∈ operands, Typed floats bindings scope operand.tree
      (Target.python2.isInteger operand.source)) :
    ParseTree.allMayBeInt (operands.map (·.tree)) =
      Target.python2.areIntegers (operands.map (·.source)) := by
  induction operands with
  | nil =>
      rfl
  | cons first others inductionHypothesis =>
      rw [List.forall_mem_cons] at each
      rw [List.map_cons, List.map_cons, ParseTree.allMayBeInt, Target.areIntegers,
        each.1.mark, inductionHypothesis each.2]

theorem foldl_choice_mem (prefers : Value α → Value α → Bool) (first : Value α)
    (others : List (Value α)) :
    others.foldl (fun best value => if prefers best value then value else best) first ∈
      first :: others := by
  induction others generalizing first with
  | nil =>
      exact List.mem_cons_self
  | cons second others inductionHypothesis =>
      rw [List.foldl_cons]
      split
      · exact List.mem_cons_of_mem first (inductionHypothesis second)
      · rcases List.mem_cons.mp (inductionHypothesis first) with isFirst | later
        · rw [isFirst]
          exact List.mem_cons_self
        · exact List.mem_cons_of_mem first (List.mem_cons_of_mem second later)

/-- A minimum or maximum is the value of one of its arguments. -/
theorem exists_call?_choice (chooses : callee = "min" ∨ callee = "max")
    {values : List (Value α)} (nonempty : 0 < values.length) :
    ∃ value ∈ values, floats.call? callee values = some value := by
  cases values with
  | nil => cases nonempty
  | cons first others =>
      rcases chooses with rfl | rfl
      · exact ⟨_, foldl_choice_mem (fun best value => floats.less value best) first others, rfl⟩
      · exact ⟨_, foldl_choice_mem floats.less first others, rfl⟩

theorem typed_choice (chooses : callee = "min" ∨ callee = "max") (nonempty : 0 < operands.length)
    (each : ∀ operand ∈ operands, Typed floats bindings scope operand.tree
      (Target.python2.isInteger operand.source)) :
    Typed floats bindings scope (.call callee (operands.map (·.tree)))
      (Target.python2.areIntegers (operands.map (·.source))) := by
  have notFloat : callee ≠ "float" := by
    rcases chooses with rfl | rfl <;> decide
  have keeps : ParseTree.keepsInts callee = true := by
    rcases chooses with rfl | rfl <;> rfl
  obtain ⟨values, evaluated, lengths, sources⟩ := exists_values?_operands each
  obtain ⟨value, isValue, chosen⟩ : ∃ value ∈ values, floats.call? callee values = some value :=
    exists_call?_choice chooses (by rwa [lengths])
  have result : (ParseTree.call callee (operands.map (·.tree))).value? floats bindings =
      some value := by
    rw [ParseTree.value?_call notFloat, evaluated, Option.bind_some, chosen]
  refine ⟨?_, ⟨_, result⟩, fun calm notMarked => ?_, operands_unfloored each⟩
  · rw [ParseTree.mayBeInt, keeps, Bool.true_and, allMayBeInt_operands each]
  · by_cases marked : ∃ operand ∈ operands, Target.python2.isInteger operand.source = true
    · -- Some arguments are marked and some are not, so the choice is a mixture.
      obtain ⟨operand, member, isMarked⟩ := marked
      obtain ⟨other, otherMember, otherNotMarked⟩ : ∃ operand ∈ operands,
          Target.python2.isInteger operand.source = false := by
        simpa [Target.areIntegers_eq_all] using notMarked
      have mixture : (ParseTree.call callee (operands.map (·.tree))).isMixture = true := by
        rw [ParseTree.isMixture, Bool.and_eq_true, Bool.and_eq_true, List.any_eq_true,
          List.any_eq_true]
        refine ⟨⟨?_, operand.tree, List.mem_map_of_mem member, ?_⟩,
          other.tree, List.mem_map_of_mem otherMember, ?_⟩
        · rcases chooses with rfl | rfl <;> rfl
        · rw [(each operand member).mark, isMarked]
        · rw [(each other otherMember).mark, otherNotMarked]
          rfl
      have unmixed := calm.unmixed _ (ParseTree.mem_nodes_self _)
      rwa [ParseTree.isMixed, mixture, Bool.true_and] at unmixed
    · -- No argument is marked, so all of them are floats.
      obtain ⟨operand, member, ofOperand⟩ := sources value isValue
      have operandNotMarked : Target.python2.isInteger operand.source = false := by
        rw [Bool.eq_false_iff]
        exact fun isMarked => marked ⟨operand, member, isMarked⟩
      have isFloat := (each operand member).float
        (calm.argument _ (List.mem_map_of_mem member)) operandNotMarked
      rwa [ParseTree.isInt_eq_of_value? result, ← ParseTree.isInt_eq_of_value? ofOperand]

theorem typed_kept {tree : ParseTree} {integer : Bool}
    (keeps : ParseTree.keepsInts callee = true)
    {ofInt : Int → Int} {ofFloat : α → α}
    (computes : ∀ value, floats.call? callee [value] = some (Floats.keep ofInt ofFloat value))
    (typed : Typed floats bindings scope tree integer) :
    Typed floats bindings scope (.call callee [tree]) integer := by
  have notFloat : callee ≠ "float" := by
    rintro rfl
    cases keeps
  obtain ⟨value, evaluated⟩ := typed.evaluates
  have result : (ParseTree.call callee [tree]).value? floats bindings =
      some (Floats.keep ofInt ofFloat value) := by
    rw [ParseTree.value?_call notFloat, ParseTree.values?, evaluated, ParseTree.values?]
    exact computes value
  refine ⟨?_, ⟨_, result⟩, fun calm notMarked => ?_,
    Typed.call_unfloored (List.forall_mem_singleton.mpr ⟨_, typed⟩)⟩
  · rw [ParseTree.mayBeInt, keeps, Bool.true_and, ParseTree.allMayBeInt, typed.mark,
      ParseTree.allMayBeInt, Bool.and_true]
  · have isFloat := typed.float (calm.argument tree List.mem_cons_self) notMarked
    rw [ParseTree.isInt_eq_of_value? evaluated] at isFloat
    rw [ParseTree.isInt_eq_of_value? result, isInt_keep, isFloat]

theorem isFunction_of_elementary? {operation : Operation}
    (found : elementary? callee = some operation) : operation.isFunction = false := by
  rw [elementary?.eq_def] at found
  split at found <;> cases found <;> rfl

theorem keepsInts_of_elementary? {operation : Operation}
    (found : elementary? callee = some operation) : ParseTree.keepsInts callee = false := by
  rw [elementary?.eq_def] at found
  split at found <;> cases found <;> rfl

theorem call?_elementary {operation : Operation} (found : elementary? callee = some operation)
    (values : List (Value α)) :
    floats.call? callee values =
      (floats.arithmetic.value? operation (values.map floats.ofValue)).map .float := by
  rw [Floats.call?.eq_def]
  split
  · cases found
  · cases found
  · cases found
  · cases found
  · cases found
  · rw [found, Option.map_eq_bind]
    rfl

theorem typed_elementary {operation : Operation} (found : elementary? callee = some operation)
    (accepted : operation.arity.accepts operands.length = true)
    (each : ∀ operand ∈ operands, Typed floats bindings scope operand.tree
      (Target.python2.isInteger operand.source)) :
    Typed floats bindings scope (.call callee (operands.map (·.tree))) false := by
  have notFloat : callee ≠ "float" := by
    rintro rfl
    cases found
  obtain ⟨values, evaluated, lengths, _⟩ := exists_values?_operands each
  have acceptedValues : operation.arity.accepts (values.map floats.ofValue).length = true := by
    rwa [List.length_map, lengths]
  obtain ⟨value, computed⟩ := floats.arithmetic.exists_value?_eq_some acceptedValues
    (isFunction_of_elementary? found)
  have result : (ParseTree.call callee (operands.map (·.tree))).value? floats bindings =
      some (.float value) := by
    rw [ParseTree.value?_call notFloat, evaluated, Option.bind_some, call?_elementary found,
      computed]
    rfl
  refine ⟨?_, ⟨_, result⟩, fun _ _ => ParseTree.isInt_eq_of_value? result,
    operands_unfloored each⟩
  rw [ParseTree.mayBeInt, keepsInts_of_elementary? found, Bool.false_and]

/-- A function in a text keeps integers as its operation does. -/
theorem typed_call {operation : Operation} {keeps : Bool}
    (found : callee? operation = some (callee, keeps))
    (accepted : operation.arity.accepts operands.length = true)
    (each : ∀ operand ∈ operands, Typed floats bindings scope operand.tree
      (Target.python2.isInteger operand.source)) :
    Typed floats bindings scope (.call callee (operands.map (·.tree)))
      (keeps && Target.python2.areIntegers (operands.map (·.source))) := by
  cases operation with
  | add | sub | mul | div | pow | neg | lt | le | gt | ge | function => cases found
  | min =>
      cases found
      exact typed_choice (.inl rfl) (by simp_all [Operation.arity, Arity.accepts]; omega) each
  | max =>
      cases found
      exact typed_choice (.inr rfl) (by simp_all [Operation.arity, Arity.accepts]; omega) each
  | abs | sign =>
      cases found
      obtain ⟨operand, rfl⟩ : ∃ operand, operands = [operand] := by
        simpa [Operation.arity, Arity.accepts, List.length_eq_one_iff] using accepted
      have single := each operand List.mem_cons_self
      rw [List.map_singleton, List.map_singleton, Target.areIntegers, Target.areIntegers,
        Bool.and_true, Bool.true_and]
      exact typed_kept rfl (fun _ => rfl) single
  | sin | cos | tan | asin | acos | atan | atan2 | sqrt | exp | log =>
      cases found
      exact typed_elementary rfl accepted each

end Calls

/-! ## Operations -/

section Operations

variable {operands : List TreeOperand}

theorem typed_floatTree {numerator : TreeOperand}
    (typed : Typed floats bindings scope numerator.tree
      (Target.python2.isInteger numerator.source)) :
    Typed floats bindings scope (floatTree numerator) false := by
  rw [floatTree]
  split
  · exact typed_literalTree (.float _)
  · exact typed.converted

theorem typed_quotient {numerator denominator : TreeOperand}
    (ofNumerator : Typed floats bindings scope numerator.tree
      (Target.python2.isInteger numerator.source))
    (ofDenominator : Typed floats bindings scope denominator.tree
      (Target.python2.isInteger denominator.source)) :
    Typed floats bindings scope (combineTree .python2 true .div [numerator, denominator])
      false := by
  rw [combineTree]
  split
  · exact .quotient (typed_floatTree ofNumerator) ofDenominator rfl
  · next notBoth =>
      refine .quotient ofNumerator ofDenominator ?_
      rwa [Bool.true_and, Bool.not_eq_true] at notBoth

theorem typed_combineTree {operation : Operation} {written : List Operand} {fragment : Fragment}
    (accepted : operation.arity.accepts operands.length = true)
    (lengths : written.length = operands.length)
    (each : ∀ operand ∈ operands, Typed floats bindings scope operand.tree
      (Target.python2.isInteger operand.source))
    (combined : combine? true operation written = some fragment) :
    Typed floats bindings scope (combineTree .python2 true operation operands)
      (Target.python2.isInteger (.op operation (operands.map (·.source)))) := by
  rw [Target.isInteger, Target.isPython, Bool.true_and]
  cases combines_of_combine? combined with
  | difference =>
      cases operands with
      | nil => cases accepted
      | cons first others =>
          rw [List.forall_mem_cons] at each
          exact Target.holds_foldl (Typed.binary (by decide) (by decide)) each.1 each.2
  | product =>
      cases operands with
      | nil => cases accepted
      | cons first others =>
          rw [List.forall_mem_cons] at each
          exact Target.holds_foldl (Typed.binary (by decide) (by decide)) each.1 each.2
  | quotient =>
      obtain ⟨numerator, denominator, rfl⟩ := List.length_eq_two.mp lengths.symm
      exact typed_quotient (each _ List.mem_cons_self)
        (each _ (List.mem_cons_of_mem _ List.mem_cons_self))
  | power =>
      obtain ⟨base, exponent, rfl⟩ := List.length_eq_two.mp lengths.symm
      have power : Typed floats bindings scope (.binary .pow base.tree exponent.tree) _ :=
        .binary (by decide) (by decide) (each _ List.mem_cons_self)
          (each _ (List.mem_cons_of_mem _ List.mem_cons_self))
      simpa [combineTree, Operation.compares, Target.keepsIntegers, Target.isPython,
        Target.areIntegers] using power
  | negation =>
      obtain ⟨operand, rfl⟩ := List.length_eq_one_iff.mp lengths.symm
      have negation := (each _ List.mem_cons_self).negative
      simpa [combineTree, Operation.compares, Target.keepsIntegers, Target.areIntegers]
        using negation
  | comparison _ _ found =>
      obtain ⟨left, right, rfl⟩ := List.length_eq_two.mp lengths.symm
      obtain ⟨operator, isOperator, _, compares⟩ :=
        Operation.comparison?_of_comparisonSign? found
      rw [combineTree_comparison isOperator, Target.compares_of_comparisonSign? found,
        Bool.true_or]
      exact .comparison compares (each _ List.mem_cons_self)
        (each _ (List.mem_cons_of_mem _ List.mem_cons_self))
  | call _ found =>
      have python : Target.python2.isPython = true := rfl
      obtain ⟨notCompared, kept⟩ := Target.keepsIntegers_of_pythonCallee? python found
      rw [(combineTree_call found operands).1, notCompared, kept, Bool.false_or]
      exact typed_call found accepted each

end Operations

end Python

namespace Target

open Python

variable {α : Type} {floats : Floats α} {bindings : Bindings (Value α)} {scope : List Symbol}

/-! ## Expressions -/

/-- A written expression has a value when its symbols have; if they are floats and nothing
is mixed, it computes no quotient of integers and is a float unless marked otherwise. -/
theorem typed_tree {expr : Expr} {fragment : Fragment}
    (written : python2.write expr = .ok fragment)
    (bound : ∀ symbol ∈ scope, ∃ value, bindings.get? symbol = some value)
    (declared : ∀ symbol ∈ expr.symbols, symbol ∈ scope) :
    Typed floats bindings scope (python2.tree expr) (python2.isInteger expr) := by
  have joins : python2.Joins (Typed floats bindings scope) :=
    ⟨.ofInteger, typed_literalTree, .binary (by decide) (by decide),
      .binary (by decide) (by decide)⟩
  exact joins.tree typed_combineTree written fun leaf member => .symbol (declared leaf member) bound

end Target

end LieScribe
