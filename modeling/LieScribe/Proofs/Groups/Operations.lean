import LieScribe.Group.Definition
import LieScribe.Proofs.Applications
import LieScribe.Proofs.Degree
import LieScribe.Proofs.ExactArithmetic
import LieScribe.Proofs.Sharing.Linearization

/-!
# Group operations on numbers

An operation of a group is carried out on numbers by binding them to its inputs and evaluating
its outputs.  Every operation has a result under every arithmetic: its outputs mention its
inputs only and apply no function.  So operations are functions of coordinate vectors.  Their
results are found with `MotionGroup.results_eq_of_denotes`, which asks for the values of the
outputs wherever the arguments have given values.

Operations whose formulas are put together from others have the results put together in the
same way, under every arithmetic.
-/

namespace LieScribe

/-- The value of a computation that does not fail. -/
def Outcome.get {ε α : Type} : (outcome : Except ε α) → (∃ value, outcome = .ok value) → α
  | .ok value, _ => value
  | .error _, succeeds => nomatch succeeds

theorem Outcome.eq_ok_get {ε α : Type} {outcome : Except ε α}
    (succeeds : ∃ value, outcome = .ok value) : outcome = .ok (Outcome.get outcome succeeds) := by
  obtain ⟨value, rfl⟩ := succeeds
  rfl

/-- The coordinates of an argument as expressions. -/
def GroupArgument.exprs (group : MotionGroup) (argument : GroupArgument) : List Expr :=
  (argument.symbols group).map .symbol

theorem GroupArgument.length_exprs (group : MotionGroup) (argument : GroupArgument) :
    (argument.exprs group).length = (argument.dim? group).getD 1 := by
  cases argument <;> simp [exprs, symbols, dim?, Symbol.array]

namespace MotionGroup

variable {α : Type} (group : MotionGroup) (arithmetic : Arithmetic α)
  (operation : GroupOperation)

/-- The coordinates of an element. -/
abbrev Element (α : Type) : Type :=
  Fin group.storageDim → α

/-- The coordinates of a tangent vector. -/
abbrev Tangent (α : Type) : Type :=
  Fin group.tangentDim → α

instance : NeZero group.storageDim :=
  ⟨by cases group <;> decide⟩

instance : NeZero group.tangentDim :=
  ⟨by cases group <;> decide⟩

/-! ## Definitions of operations -/

/-- The outputs of an operation are well formed and mention its inputs only. -/
theorem checkRequest_outputs :
    Naming.arrayed.checkRequest (group.inputs operation) (group.outputs operation) = .ok () := by
  cases group <;> cases operation <;> rfl

theorem length_outputs : (group.outputs operation).length = group.outputDim operation := by
  cases group <;> cases operation <;> rfl

theorem isFunction_of_applies {applied : Operation} {count : Nat}
    (applies : Expr.Applies (group.outputs operation) applied count) :
    applied.isFunction = false := by
  have interpreted : ∀ expr ∈ Expr.operationsOf (group.outputs operation),
      expr.operation?.all (!·.isFunction) = true := by
    rw [← List.all_eq_true]
    cases group <;> cases operation <;> decide +kernel
  obtain ⟨arguments, -, occurs⟩ := applies
  simpa [Expr.operation?] using interpreted _ (Expr.mem_operationsOf_iff.mpr ⟨occurs, rfl⟩)

/-! ## Outcomes -/

/-- The inputs of an operation bound to values, in order. -/
def bound (values : List α) : Bindings α :=
  Bindings.empty.bindAll ((group.inputs operation).zip values)

/-- The outcome of an operation on values for its inputs. -/
def outcome (values : List α) : Except Fault (List α) :=
  Expr.evaluateAllIn arithmetic (group.bound operation values) (group.outputs operation)

variable {group operation} {values : List α}

theorem get?_bound (count : values.length = (group.inputs operation).length) {position : Nat}
    {symbol : Symbol} (found : (group.inputs operation)[position]? = some symbol) :
    (group.bound operation values).get? symbol = values[position]? := by
  obtain ⟨distinct, -⟩ :=
    Naming.declares_of_checkRequest (group.checkRequest_outputs operation)
  exact Bindings.get?_bindAll_zip distinct count found

theorem exists_get?_bound (count : values.length = (group.inputs operation).length)
    {symbol : Symbol} (isInput : symbol ∈ group.inputs operation) :
    ∃ value, (group.bound operation values).get? symbol = some value := by
  obtain ⟨position, inside, rfl⟩ := List.getElem_of_mem isInput
  rw [get?_bound count (List.getElem?_eq_getElem inside),
    List.getElem?_eq_getElem (count ▸ inside)]
  exact ⟨_, rfl⟩

/-- Every operation has a result. -/
theorem exists_outcome_eq_ok (count : values.length = (group.inputs operation).length) :
    ∃ results, group.outcome arithmetic operation values = .ok results := by
  have checked := group.checkRequest_outputs operation
  obtain ⟨-, -, declared⟩ := Naming.declares_of_checkRequest checked
  have wellFormed := Expr.checkAll_eq_ok_iff.mpr (Naming.check_of_checkRequest checked)
  rw [outcome, Expr.exists_evaluateAllIn_eq_ok_iff, Expr.forall_exists_evaluateIn_iff_applies]
  constructor
  · intro applied argumentCount applies
    exact ⟨Expr.checkAll_eq_ok_iff_applies.mp wellFormed _ _ applies,
      isFunction_of_applies group operation applies⟩
  · intro symbol occurs
    obtain ⟨output, member, mentioned⟩ := Expr.mem_symbolsOf.mp occurs
    exact exists_get?_bound count (declared output member symbol mentioned)

theorem length_of_outcome {results : List α}
    (computed : group.outcome arithmetic operation values = .ok results) :
    results.length = group.outputDim operation := by
  rw [← group.length_outputs operation]
  exact (Expr.evaluateAllIn_eq_ok_iff.mp computed).length_eq.symm

theorem denotes_inputs (count : values.length = (group.inputs operation).length) :
    List.Forall₂ (Expr.Denotes arithmetic (group.bound operation values))
      ((group.inputs operation).map .symbol) values := by
  rw [List.forall₂_iff_get]
  refine ⟨by rw [List.length_map, count], fun position inside insideValues => ?_⟩
  rw [List.length_map] at inside
  simp only [List.get_eq_getElem, List.getElem_map, Expr.Denotes, Expr.evaluateIn]
  rw [get?_bound count (List.getElem?_eq_getElem inside), List.getElem?_eq_getElem insideValues]

/-! ## Results -/

/-- There is a slice of values for each argument, and in it a value for each coordinate. -/
def Fits (group : MotionGroup) (operation : GroupOperation) (slices : List (List α)) : Prop :=
  List.Forall₂ (fun exprs slice => exprs.length = slice.length)
    (operation.arguments.map (GroupArgument.exprs group)) slices

variable {slices : List (List α)}

theorem map_symbol_inputs :
    (group.inputs operation).map .symbol =
      (operation.arguments.map (GroupArgument.exprs group)).flatten := by
  rw [inputs, List.map_flatMap]
  rfl

theorem Fits.count (fits : group.Fits operation slices) :
    slices.flatten.length = (group.inputs operation).length := by
  have lengths : (operation.arguments.map (GroupArgument.exprs group)).map List.length =
      slices.map List.length := by
    rw [← List.forall₂_eq_eq_eq, List.forall₂_map_left_iff, List.forall₂_map_right_iff]
    exact fits
  rw [List.length_flatten, ← lengths, ← List.length_flatten, ← map_symbol_inputs,
    List.length_map]

/-- Each coordinate of each argument has its value once the values are bound to the inputs. -/
theorem Fits.denotes (fits : group.Fits operation slices) :
    List.Forall₂ (List.Forall₂ (Expr.Denotes arithmetic (group.bound operation slices.flatten)))
      (operation.arguments.map (GroupArgument.exprs group)) slices := by
  have each := denotes_inputs arithmetic fits.count
  rw [map_symbol_inputs] at each
  generalize group.bound operation slices.flatten = bindings at each
  unfold Fits at fits
  generalize operation.arguments.map (GroupArgument.exprs group) = lists at each fits
  induction fits with
  | nil =>
      exact .nil
  | @cons exprs slice _ _ length _ inductionHypothesis =>
      rw [List.flatten_cons, List.flatten_cons] at each
      have here := List.forall₂_take_append _ _ _ each
      have later := List.forall₂_drop_append _ _ _ each
      rw [← length, List.take_left] at here
      rw [← length, List.drop_left] at later
      exact .cons here (inductionHypothesis later)

/-- The results of an operation, as many as it has outputs. -/
def results (fits : group.Fits operation slices) : Fin (group.outputDim operation) → α :=
  let succeeds := exists_outcome_eq_ok arithmetic fits.count
  fun i =>
    (Outcome.get _ succeeds).get
      (i.cast (length_of_outcome arithmetic (Outcome.eq_ok_get succeeds)).symm)

theorem outcome_eq_ok_results (fits : group.Fits operation slices) :
    group.outcome arithmetic operation slices.flatten =
      .ok (List.ofFn (results arithmetic fits)) := by
  have succeeds := exists_outcome_eq_ok arithmetic fits.count
  have length := length_of_outcome arithmetic (Outcome.eq_ok_get succeeds)
  rw [Outcome.eq_ok_get succeeds]
  congr 1
  apply List.ext_getElem
  · rw [length, List.length_ofFn]
  · intro position _ _
    simp [results]

variable {arithmetic}

/-- The results are what the outputs denote wherever the arguments denote their slices. -/
theorem results_eq_of_denotes (fits : group.Fits operation slices)
    {expected : Fin (group.outputDim operation) → α}
    (denotes : ∀ bindings : Bindings α,
      List.Forall₂ (List.Forall₂ (Expr.Denotes arithmetic bindings))
          (operation.arguments.map (GroupArgument.exprs group)) slices →
        List.Forall₂ (Expr.Denotes arithmetic bindings) (group.outputs operation)
          (List.ofFn expected)) :
    results arithmetic fits = expected := by
  have computed : group.outcome arithmetic operation slices.flatten = .ok (List.ofFn expected) :=
    Expr.evaluateAllIn_eq_ok_iff_denotes.mpr (denotes _ (fits.denotes arithmetic))
  rw [outcome_eq_ok_results arithmetic fits] at computed
  exact List.ofFn_injective (Except.ok.inj computed)

/-- Where expressions put in for the coordinates of the arguments denote the slices, the
outputs with those expressions put in denote the results. -/
theorem denotes_substitute (fits : group.Fits operation slices) {bindings : Bindings α}
    {expansions : Bindings Expr}
    (each : List.Forall₂ (List.Forall₂ (Expr.Denotes arithmetic bindings))
      (operation.arguments.map fun argument =>
        (argument.exprs group).map (Expr.substitute expansions)) slices) :
    List.Forall₂ (Expr.Denotes arithmetic bindings)
      ((group.outputs operation).map (Expr.substitute expansions))
      (List.ofFn (results arithmetic fits)) := by
  obtain ⟨-, -, declared⟩ :=
    Naming.declares_of_checkRequest (group.checkRequest_outputs operation)
  have putIn : List.Forall₂ (Expr.Denotes arithmetic bindings)
      (((group.inputs operation).map .symbol).map (Expr.substitute expansions))
      slices.flatten := by
    rw [map_symbol_inputs, List.map_flatten, List.map_map]
    exact List.rel_flatten each
  have asBound := denotes_inputs arithmetic fits.count
  rw [← Expr.evaluateAllIn_eq_ok_iff_denotes, ← outcome_eq_ok_results, outcome]
  apply Expr.evaluateAllIn_congr
  rw [List.forall₂_map_left_iff, List.forall₂_same]
  intro output member
  apply Expr.evaluateIn_substitute_of_forall
  intro symbol mentioned
  obtain ⟨position, inside, rfl⟩ := List.getElem_of_mem (declared output member symbol mentioned)
  have insideValues : position < slices.flatten.length := fits.count ▸ inside
  have here := putIn.get (by simpa using inside) insideValues
  have there := asBound.get (by simpa using inside) insideValues
  simp only [List.get_eq_getElem, List.getElem_map] at here there
  exact here.trans there.symm

theorem denotes_outputs (fits : group.Fits operation slices) {bindings : Bindings α}
    (each : List.Forall₂ (List.Forall₂ (Expr.Denotes arithmetic bindings))
      (operation.arguments.map (GroupArgument.exprs group)) slices) :
    List.Forall₂ (Expr.Denotes arithmetic bindings) (group.outputs operation)
      (List.ofFn (results arithmetic fits)) := by
  have unchanged (exprs : List Expr) : exprs.map (Expr.substitute Bindings.empty) = exprs := by
    rw [Expr.substitute_empty, List.map_id]
  rw [← unchanged (group.outputs operation)]
  apply denotes_substitute fits
  simpa only [unchanged] using each

/-! ## Operations of elements and tangent vectors -/

section Elements

variable (group) (arithmetic)

theorem fits_inverse (a : group.Element α) : group.Fits .inverse [List.ofFn a] :=
  .cons ((GroupArgument.length_exprs group .first).trans List.length_ofFn.symm) .nil

theorem fits_compose (a b : group.Element α) :
    group.Fits .compose [List.ofFn a, List.ofFn b] :=
  .cons ((GroupArgument.length_exprs group .first).trans List.length_ofFn.symm)
    (.cons ((GroupArgument.length_exprs group .second).trans List.length_ofFn.symm) .nil)

theorem fits_fromTangent (vector : group.Tangent α) (epsilon : α) :
    group.Fits .fromTangent [List.ofFn vector, [epsilon]] :=
  .cons ((GroupArgument.length_exprs group .tangent).trans List.length_ofFn.symm)
    (.cons rfl .nil)

theorem fits_toTangent (a : group.Element α) (epsilon : α) :
    group.Fits .toTangent [List.ofFn a, [epsilon]] :=
  .cons ((GroupArgument.length_exprs group .first).trans List.length_ofFn.symm) (.cons rfl .nil)

def identity : group.Element α :=
  results arithmetic (show group.Fits .identity [] from .nil)

def inverse (a : group.Element α) : group.Element α :=
  results arithmetic (group.fits_inverse a)

def compose (a b : group.Element α) : group.Element α :=
  results arithmetic (group.fits_compose a b)

def between (a b : group.Element α) : group.Element α :=
  results arithmetic (show group.Fits .between _ from group.fits_compose a b)

def fromTangent (vector : group.Tangent α) (epsilon : α) : group.Element α :=
  results arithmetic (group.fits_fromTangent vector epsilon)

def toTangent (a : group.Element α) (epsilon : α) : group.Tangent α :=
  results arithmetic (group.fits_toTangent a epsilon)

variable {group arithmetic}

/-- Where the arguments of an operation have values, their coordinates have. -/
theorem denotes_element {argument : GroupArgument} {dim : Nat}
    (hasDim : argument.dim? group = some dim) {bindings : Bindings α} {vector : Fin dim → α}
    (denotes : List.Forall₂ (Expr.Denotes arithmetic bindings) (argument.exprs group)
      (List.ofFn vector)) (i : Fin dim) :
    (Expr.element argument.name i).Denotes arithmetic bindings (vector i) := by
  have coordinates : argument.exprs group = Expr.array argument.name dim := by
    rw [GroupArgument.exprs, GroupArgument.symbols, hasDim, Expr.array]
  rw [coordinates] at denotes
  have here := denotes.get (i := i) (by simp [Expr.array, Symbol.array]) (by simp)
  simpa [Expr.array, Symbol.array, Expr.element] using here

theorem identity_eq_of_denotes {expected : group.Element α}
    (denotes : ∀ bindings : Bindings α,
      List.Forall₂ (Expr.Denotes arithmetic bindings) (group.outputs .identity)
        (List.ofFn expected)) :
    group.identity arithmetic = expected :=
  results_eq_of_denotes _ fun bindings _ => denotes bindings

theorem inverse_eq_of_denotes {a expected : group.Element α}
    (denotes : ∀ bindings : Bindings α,
      (∀ i : Fin group.storageDim, (Expr.element "a" i).Denotes arithmetic bindings (a i)) →
        List.Forall₂ (Expr.Denotes arithmetic bindings) (group.outputs .inverse)
          (List.ofFn expected)) :
    group.inverse arithmetic a = expected := by
  apply results_eq_of_denotes
  rintro bindings (_ | ⟨first, -⟩)
  exact denotes bindings (denotes_element rfl first)

theorem compose_eq_of_denotes {a b expected : group.Element α}
    (denotes : ∀ bindings : Bindings α,
      (∀ i : Fin group.storageDim, (Expr.element "a" i).Denotes arithmetic bindings (a i)) →
        (∀ i : Fin group.storageDim, (Expr.element "b" i).Denotes arithmetic bindings (b i)) →
          List.Forall₂ (Expr.Denotes arithmetic bindings) (group.outputs .compose)
            (List.ofFn expected)) :
    group.compose arithmetic a b = expected := by
  apply results_eq_of_denotes
  rintro bindings (_ | ⟨first, _ | ⟨second, -⟩⟩)
  exact denotes bindings (denotes_element rfl first) (denotes_element rfl second)

theorem fromTangent_eq_of_denotes {vector : group.Tangent α} {epsilon : α}
    {expected : group.Element α}
    (denotes : ∀ bindings : Bindings α,
      (∀ i : Fin group.tangentDim, (Expr.element "vec" i).Denotes arithmetic bindings (vector i)) →
        (Expr.named "epsilon").Denotes arithmetic bindings epsilon →
          List.Forall₂ (Expr.Denotes arithmetic bindings) (group.outputs .fromTangent)
            (List.ofFn expected)) :
    group.fromTangent arithmetic vector epsilon = expected := by
  apply results_eq_of_denotes
  rintro bindings (_ | ⟨tangent, _ | ⟨_ | ⟨amount, -⟩, -⟩⟩)
  exact denotes bindings (denotes_element rfl tangent) amount

theorem toTangent_eq_of_denotes {a : group.Element α} {epsilon : α}
    {expected : group.Tangent α}
    (denotes : ∀ bindings : Bindings α,
      (∀ i : Fin group.storageDim, (Expr.element "a" i).Denotes arithmetic bindings (a i)) →
        (Expr.named "epsilon").Denotes arithmetic bindings epsilon →
          List.Forall₂ (Expr.Denotes arithmetic bindings) (group.outputs .toTangent)
            (List.ofFn expected)) :
    group.toTangent arithmetic a epsilon = expected := by
  apply results_eq_of_denotes
  rintro bindings (_ | ⟨first, _ | ⟨_ | ⟨amount, -⟩, -⟩⟩)
  exact denotes bindings (denotes_element rfl first) amount

/-! ## The motion between two elements -/

variable (group) (arithmetic)

/-- The expressions of an inverse put in for the coordinates of the first argument. -/
def invertingFirst : Bindings Expr :=
  Bindings.empty.bindAll ((GroupArgument.first.symbols group).zip (group.outputs .inverse))

theorem outputs_between :
    group.outputs .between =
      (group.outputs .compose).map (Expr.substitute group.invertingFirst) := by
  cases group <;> rfl

theorem map_substitute_first :
    (GroupArgument.first.exprs group).map (Expr.substitute group.invertingFirst) =
      group.outputs .inverse := by
  cases group <;> rfl

theorem map_substitute_second :
    (GroupArgument.second.exprs group).map (Expr.substitute group.invertingFirst) =
      GroupArgument.second.exprs group := by
  cases group <;> rfl

/-- The motion between two elements is the inverse of the first, followed by the second. -/
theorem between_eq (a b : group.Element α) :
    group.between arithmetic a b =
      group.compose arithmetic (group.inverse arithmetic a) b := by
  apply results_eq_of_denotes
  intro bindings each
  rw [show GroupOperation.between.arguments = [.first, .second] from rfl, List.map_cons,
    List.map_singleton, List.forall₂_cons, List.forall₂_cons] at each
  obtain ⟨first, second, -⟩ := each
  rw [outputs_between]
  apply denotes_substitute (group.fits_compose (group.inverse arithmetic a) b)
  refine .cons ?_ (.cons ?_ .nil)
  · simp only [map_substitute_first]
    exact denotes_outputs (group.fits_inverse a) (.cons first .nil)
  · simpa only [map_substitute_second] using second

end Elements

end MotionGroup

end LieScribe
