import LieScribe.Evaluation
import LieScribe.Proofs.Expr
import LieScribe.Proofs.Outcome

/-!
# When an expression has a value, and on what the value depends

An operation has a value exactly when it is interpreted, accepts the number of its
arguments, and each of them has one.  So whether there is a value depends on an
expression up to sameness only, while the value itself depends on the outcomes of
the arguments.

Substituting expressions that have values and then evaluating is evaluating with
those values bound: `Expr.evaluateIn_substitute` says so for every outcome, faults
included.
-/

namespace LieScribe

variable {α : Type} {arithmetic : Arithmetic α} {bindings : Bindings α}

theorem Arithmetic.exists_value?_eq_some {operation : Operation} {values : List α}
    (accepted : operation.arity.accepts values.length = true)
    (interpreted : operation.isFunction = false) :
    ∃ value, arithmetic.value? operation values = some value := by
  rcases values with _ | ⟨first, _ | ⟨second, _ | ⟨third, others⟩⟩⟩ <;>
    cases operation <;>
    simp_all [Arithmetic.value?, Operation.arity, Arity.accepts,
      Operation.isFunction]

namespace Expr

theorem evaluateAllIn_eq_ok_iff {exprs : List Expr} {values : List α} :
    evaluateAllIn arithmetic bindings exprs = .ok values ↔
      List.Forall₂
        (fun expr value => expr.evaluateIn arithmetic bindings = .ok value)
        exprs values := by
  induction exprs generalizing values with
  | nil =>
      simp [evaluateAllIn, eq_comm]
  | cons expr others inductionHypothesis =>
      simp only [evaluateAllIn, Outcome.bind_eq_ok_iff, Outcome.pure_eq_ok_iff,
        inductionHypothesis, List.forall₂_cons_left_iff]
      grind

theorem exists_evaluateAllIn_eq_ok_iff {exprs : List Expr} :
    (∃ values, evaluateAllIn arithmetic bindings exprs = .ok values) ↔
      ∀ expr ∈ exprs, ∃ value, expr.evaluateIn arithmetic bindings = .ok value := by
  induction exprs with
  | nil =>
      simp [evaluateAllIn]
  | cons expr others inductionHypothesis =>
      simp only [evaluateAllIn, Outcome.bind_eq_ok_iff, Outcome.pure_eq_ok_iff,
        List.forall_mem_cons, ← inductionHypothesis]
      grind

theorem rejectFunction_eq_ok_iff {operation : Operation} :
    rejectFunction operation = .ok () ↔ operation.isFunction = false := by
  cases operation <;> simp [rejectFunction, Operation.isFunction]

/-- When an operation has a value. -/
theorem exists_evaluateIn_op_eq_ok_iff {operation : Operation}
    {arguments : List Expr} :
    (∃ value, (op operation arguments).evaluateIn arithmetic bindings =
        .ok value) ↔
      operation.arity.accepts arguments.length = true ∧
        operation.isFunction = false ∧
          ∀ argument ∈ arguments,
            ∃ value, argument.evaluateIn arithmetic bindings = .ok value := by
  simp only [evaluateIn, Outcome.bind_eq_ok_iff]
  constructor
  · rintro ⟨value, _, accepted, _, interpreted, values, evaluated, _⟩
    exact ⟨Operation.checkCount_eq_ok_iff.mp accepted,
      rejectFunction_eq_ok_iff.mp interpreted,
      exists_evaluateAllIn_eq_ok_iff.mp ⟨values, evaluated⟩⟩
  · rintro ⟨accepted, interpreted, each⟩
    obtain ⟨values, evaluated⟩ := exists_evaluateAllIn_eq_ok_iff.mpr each
    have lengths : arguments.length = values.length :=
      (evaluateAllIn_eq_ok_iff.mp evaluated).length_eq
    obtain ⟨value, computed⟩ :=
      arithmetic.exists_value?_eq_some (lengths ▸ accepted) interpreted
    exact ⟨value, (), Operation.checkCount_eq_ok_iff.mpr accepted,
      (), rejectFunction_eq_ok_iff.mpr interpreted,
      values, evaluated, by rw [computed]⟩

/-! ## On what values depend -/

/-- Lists whose members have values or lack them together. -/
theorem forall_exists_evaluateIn_iff {left right : List Expr}
    (pairwise : List.Forall₂
      (fun expr other =>
        (∃ value, expr.evaluateIn arithmetic bindings = .ok value) ↔
          ∃ value, other.evaluateIn arithmetic bindings = .ok value)
      left right) :
    (∀ expr ∈ left, ∃ value, expr.evaluateIn arithmetic bindings = .ok value) ↔
      ∀ expr ∈ right,
        ∃ value, expr.evaluateIn arithmetic bindings = .ok value := by
  induction pairwise with
  | nil =>
      rfl
  | cons heads _ inductionHypothesis =>
      rw [List.forall_mem_cons, List.forall_mem_cons, heads,
        inductionHypothesis]

/-- Equal expressions have values or lack them together. -/
theorem exists_evaluateIn_eq_ok_iff_of_same {left right : Expr}
    (same : left.same right = true) :
    (∃ value, left.evaluateIn arithmetic bindings = .ok value) ↔
      ∃ value, right.evaluateIn arithmetic bindings = .ok value := by
  induction left generalizing right with
  | symbol leaf =>
      cases right <;> simp_all [Expr.same]
  | literal constant =>
      cases right <;> simp_all [Expr.same, evaluateIn]
  | op operation arguments each =>
      obtain ⟨arguments', rfl, pairwise⟩ := same_op_iff.mp same
      have eachPair := (List.forall₂_and_left arguments arguments').mpr
        ⟨fun argument member => @each argument member, pairwise⟩
      have argumentsAgree := forall_exists_evaluateIn_iff
        (eachPair.imp fun _ _ pair => pair.1 pair.2)
      rw [exists_evaluateIn_op_eq_ok_iff, exists_evaluateIn_op_eq_ok_iff,
        pairwise.length_eq, argumentsAgree]

theorem evaluateAllIn_congr {bindings' : Bindings α} {left right : List Expr}
    (pairwise : List.Forall₂
      (fun expr other => expr.evaluateIn arithmetic bindings =
        other.evaluateIn arithmetic bindings') left right) :
    evaluateAllIn arithmetic bindings left =
      evaluateAllIn arithmetic bindings' right := by
  induction pairwise with
  | nil =>
      rfl
  | cons heads _ inductionHypothesis =>
      rw [evaluateAllIn, evaluateAllIn, heads, inductionHypothesis]

/-- The outcome of an operation depends on the outcomes of its arguments only. -/
theorem evaluateIn_op_congr {bindings' : Bindings α} {operation : Operation}
    {left right : List Expr}
    (pairwise : List.Forall₂
      (fun expr other => expr.evaluateIn arithmetic bindings =
        other.evaluateIn arithmetic bindings') left right) :
    (op operation left).evaluateIn arithmetic bindings =
      (op operation right).evaluateIn arithmetic bindings' := by
  rw [evaluateIn, evaluateIn, evaluateAllIn_congr pairwise, pairwise.length_eq]

/-- The outcome of an expression depends on the values of the symbols in it only. -/
theorem evaluateIn_congr {bindings' : Bindings α} {expr : Expr}
    (agree : ∀ symbol ∈ expr.symbols, bindings.get? symbol = bindings'.get? symbol) :
    expr.evaluateIn arithmetic bindings = expr.evaluateIn arithmetic bindings' := by
  induction expr with
  | symbol leaf =>
      rw [evaluateIn, evaluateIn, agree leaf (mem_symbols_symbol.mpr rfl)]
  | literal constant =>
      rfl
  | op operation arguments each =>
      apply evaluateIn_op_congr
      rw [List.forall₂_same]
      exact fun argument member => each argument member (forall_symbols_op.mp agree argument member)

/-! ## Substitution -/

/-- The second bindings give each substituted symbol the value of the expression
put in its place, and agree with the first ones elsewhere. -/
structure Agrees (arithmetic : Arithmetic α) (bindings : Bindings α)
    (expansions : Bindings Expr) (bound : Bindings α) : Prop where
  substituted : ∀ symbol expr, expansions.get? symbol = some expr →
    ∃ value, expr.evaluateIn arithmetic bindings = .ok value ∧
      bound.get? symbol = some value
  kept : ∀ symbol, expansions.get? symbol = none →
    bound.get? symbol = bindings.get? symbol

theorem Agrees.empty (arithmetic : Arithmetic α) (bindings : Bindings α) :
    Agrees arithmetic bindings Bindings.empty bindings :=
  ⟨fun _ _ found => by simp at found, fun _ _ => rfl⟩

variable {expansions : Bindings Expr} {bound : Bindings α}

/-- Evaluating after a substitution is evaluating with the values bound. -/
theorem evaluateIn_substitute
    (agrees : Agrees arithmetic bindings expansions bound) (expr : Expr) :
    (expr.substitute expansions).evaluateIn arithmetic bindings =
      expr.evaluateIn arithmetic bound := by
  induction expr with
  | symbol leaf =>
      rw [substitute_symbol]
      cases substituted : expansions.get? leaf with
      | none =>
          simp [evaluateIn, agrees.kept leaf substituted]
      | some expr =>
          obtain ⟨value, evaluated, isBound⟩ :=
            agrees.substituted leaf expr substituted
          simp [evaluateIn, evaluated, isBound]
  | literal constant =>
      rfl
  | op operation arguments each =>
      rw [substitute_op]
      apply evaluateIn_op_congr
      rw [List.forall₂_map_left_iff, List.forall₂_same]
      exact each

/-- It is enough that the symbols of the expression have the outcomes of what is put in for
them. -/
theorem evaluateIn_substitute_of_forall {expr : Expr}
    (agree : ∀ symbol ∈ expr.symbols,
      ((Expr.symbol symbol).substitute expansions).evaluateIn arithmetic bindings =
        (Expr.symbol symbol).evaluateIn arithmetic bound) :
    (expr.substitute expansions).evaluateIn arithmetic bindings =
      expr.evaluateIn arithmetic bound := by
  induction expr with
  | symbol leaf =>
      exact agree leaf (mem_symbols_symbol.mpr rfl)
  | literal constant =>
      rfl
  | op operation arguments each =>
      rw [substitute_op]
      apply evaluateIn_op_congr
      rw [List.forall₂_map_left_iff, List.forall₂_same]
      exact fun argument member => each argument member (forall_symbols_op.mp agree argument member)

/-- Substituting for one more symbol is binding one more value. -/
theorem Agrees.bind (agrees : Agrees arithmetic bindings expansions bound)
    {expr : Expr} {value : α}
    (evaluated : expr.evaluateIn arithmetic bindings = .ok value)
    (symbol : Symbol) :
    Agrees arithmetic bindings (expansions.bind symbol expr)
      (bound.bind symbol value) := by
  constructor
  · intro other found
    rw [Bindings.get?_bind, Bindings.get?_bind]
    split
    · rintro ⟨⟩
      exact ⟨value, evaluated, rfl⟩
    · exact agrees.substituted other found
  · intro other
    rw [Bindings.get?_bind, Bindings.get?_bind]
    split
    · rintro ⟨⟩
    · exact agrees.kept other

end Expr

end LieScribe
