import LieScribe.Proofs.Running
import LieScribe.Proofs.Sharing.Faithful

/-!
# The values of a shared program

A shared program runs exactly when each of its outputs has a value, and its
results are the values of the expanded outputs.  These are the values of the
outputs themselves if equal expressions that are worth sharing have equal values.

The condition cannot be dropped.  A quotient by zero equals the quotient by
negative zero as an expression, but not in value, and the two get one temporary.
-/

namespace LieScribe

variable {α : Type} {arithmetic : Arithmetic α} {bindings : Bindings α}

/-- Every part of expressions that have values has one. -/
theorem Expr.Occurs.exists_evaluateIn_eq_ok {exprs : List Expr} {expr : Expr}
    (occurs : Expr.Occurs exprs expr)
    (each : ∀ expr ∈ exprs,
      ∃ value, expr.evaluateIn arithmetic bindings = .ok value) :
    ∃ value, expr.evaluateIn arithmetic bindings = .ok value := by
  induction occurs with
  | root member =>
      exact each _ member
  | argument _ member inductionHypothesis =>
      exact (Expr.exists_evaluateIn_op_eq_ok_iff.mp inductionHypothesis).2.2
        _ member

namespace Hoisted

/-- Equal expressions in the outputs that are worth sharing have equal values. -/
def MergesAgree (arithmetic : Arithmetic α) (bindings : Bindings α)
    (outputs : List Expr) : Prop :=
  ∀ source expr, Expr.Occurs outputs source → Expr.Occurs outputs expr →
    source.isShareable = true → source.same expr = true →
      source.evaluateIn arithmetic bindings =
        expr.evaluateIn arithmetic bindings

/-- Expressions without a negative zero agree: such expressions are equal only if
they are identical. -/
theorem mergesAgree_of_canonicals_eq {outputs : List Expr}
    (canonical : Expr.canonicals outputs = outputs) :
    MergesAgree arithmetic bindings outputs := by
  have each : ∀ expr, Expr.Occurs outputs expr → expr.canonical = expr := by
    intro expr occurs
    induction occurs with
    | root member =>
        exact Expr.canonical_eq_of_canonicals_eq canonical _ member
    | argument _ member inductionHypothesis =>
        rw [Expr.canonical, Expr.op.injEq] at inductionHypothesis
        exact Expr.canonical_eq_of_canonicals_eq inductionHypothesis.2 _ member
  intro source expr sourceOccurs occurs _ same
  have equal : source = expr := by
    rw [← each source sourceOccurs, ← each expr occurs]
    exact (Expr.same_iff source expr).mp same
  rw [equal]

/-- Having equal values is a relation that sharing respects if merged expressions
have equal values. -/
theorem respects_evaluateIn {outputs : List Expr}
    (agree : MergesAgree arithmetic bindings outputs) :
    Respects outputs fun expansion expr =>
      expansion.evaluateIn arithmetic bindings =
        expr.evaluateIn arithmetic bindings where
  atom _ _ := rfl
  op _ _ _ pairwise := Expr.evaluateIn_op_congr pairwise
  merge sourceOccurs occurs shareable same related :=
    related.trans (agree _ _ sourceOccurs occurs shareable same)

/-- The expanded definition of a temporary stands for an expression in the
outputs. -/
theorem Sound.exists_source {naming : Naming} {outputs : List Expr}
    {relates : Expr → Expr → Prop} {hoisted : List Hoisted}
    (sound : Sound naming outputs relates hoisted) :
    ∀ definition ∈
        Program.expandDefinitions Bindings.empty (temporaries naming hoisted),
      ∃ source, Expr.Occurs outputs source ∧ relates definition source := by
  induction sound with
  | nil =>
      intro definition member
      exact absurd member List.not_mem_nil
  | @concat hoisted source definition _ occurs _ _ related
      inductionHypothesis =>
      rw [temporaries_concat, Program.expandDefinitions_concat]
      intro expandedDefinition member
      rcases List.mem_append.mp member with earlier | last
      · exact inductionHypothesis expandedDefinition earlier
      · rw [List.mem_singleton] at last
        subst last
        exact ⟨source, occurs, related⟩

end Hoisted

namespace Program

variable {naming : Naming} {outputs : List Expr}

/-- If the outputs have values, so have the definitions of all temporaries. -/
theorem exists_evaluateIn_expandedDefinitions
    (unreserved : ∀ output ∈ outputs, naming.Unreserved output)
    (each : ∀ output ∈ outputs,
      ∃ value, output.evaluateIn arithmetic bindings = .ok value) :
    ∀ definition ∈ (shared naming outputs).expandedDefinitions,
      ∃ value, definition.evaluateIn arithmetic bindings = .ok value := by
  obtain ⟨sound, _⟩ := Hoisted.replaceAll_expands
    (Hoisted.respects_same outputs) unreserved
  intro definition member
  obtain ⟨source, occurs, same⟩ := sound.exists_source definition member
  rw [Expr.exists_evaluateIn_eq_ok_iff_of_same same]
  exact occurs.exists_evaluateIn_eq_ok each

/-- The expanded outputs have values exactly if the outputs do. -/
theorem exists_evaluateIn_inline_iff
    (unreserved : ∀ output ∈ outputs, naming.Unreserved output) :
    (∀ output ∈ (shared naming outputs).inline,
        ∃ value, output.evaluateIn arithmetic bindings = .ok value) ↔
      ∀ output ∈ outputs,
        ∃ value, output.evaluateIn arithmetic bindings = .ok value := by
  have pairwise := forall₂_inline_shared (Hoisted.respects_same outputs)
    unreserved
  exact Expr.forall_exists_evaluateIn_iff
    (pairwise.imp fun _ _ => Expr.exists_evaluateIn_eq_ok_iff_of_same)

/-- The results of a shared program are the values of its expanded outputs, and
there are results exactly if the outputs have values. -/
theorem runIn_shared_eq_ok_iff
    (unreserved : ∀ output ∈ outputs, naming.Unreserved output)
    {values : List α} :
    (shared naming outputs).runIn arithmetic bindings = .ok values ↔
      Expr.evaluateAllIn arithmetic bindings (shared naming outputs).inline =
        .ok values := by
  rw [runIn_eq_ok_iff, and_iff_right_iff_imp]
  intro evaluated
  apply exists_evaluateIn_expandedDefinitions unreserved
  rw [← exists_evaluateIn_inline_iff unreserved,
    ← Expr.exists_evaluateAllIn_eq_ok_iff]
  exact ⟨values, evaluated⟩

theorem exists_runIn_shared_eq_ok_iff
    (unreserved : ∀ output ∈ outputs, naming.Unreserved output) :
    (∃ values, (shared naming outputs).runIn arithmetic bindings = .ok values) ↔
      ∀ output ∈ outputs,
        ∃ value, output.evaluateIn arithmetic bindings = .ok value := by
  simp only [runIn_shared_eq_ok_iff unreserved]
  rw [Expr.exists_evaluateAllIn_eq_ok_iff,
    exists_evaluateIn_inline_iff unreserved]

/-- If merged expressions have equal values, the expanded outputs have the values
of the outputs. -/
theorem evaluateAllIn_inline_shared
    (unreserved : ∀ output ∈ outputs, naming.Unreserved output)
    (agree : Hoisted.MergesAgree arithmetic bindings outputs) :
    Expr.evaluateAllIn arithmetic bindings (shared naming outputs).inline =
      Expr.evaluateAllIn arithmetic bindings outputs :=
  Expr.evaluateAllIn_congr
    (forall₂_inline_shared (Hoisted.respects_evaluateIn agree) unreserved)

/-- A shared program runs exactly if each output has a value.  Its results are the
values of the expanded outputs, and those of the outputs themselves if merged
expressions have equal values. -/
theorem run_of_share {inputs : List Symbol} {program : Program}
    (inputsNamed : naming.linear = false)
    (accepted : share naming inputs outputs = .ok program)
    (bindings : Bindings Float) :
    ((∃ values, program.run bindings = .ok values) ↔
        ∀ output ∈ outputs, ∃ value, output.evaluate bindings = .ok value) ∧
      (∀ values, program.run bindings = .ok values ↔
        List.Forall₂ (fun output value => output.evaluate bindings = .ok value)
          program.inline values) ∧
      (Hoisted.MergesAgree Arithmetic.double bindings outputs →
        ∀ values, program.run bindings = .ok values ↔
          List.Forall₂
            (fun output value => output.evaluate bindings = .ok value)
            outputs values) := by
  obtain ⟨checked, rfl⟩ := (share_eq_ok_iff inputsNamed).mp accepted
  have unreserved := Naming.unreserved_of_checkRequest checked
  refine ⟨exists_runIn_shared_eq_ok_iff unreserved, ?_, ?_⟩
  · intro values
    exact (runIn_shared_eq_ok_iff unreserved).trans Expr.evaluateAllIn_eq_ok_iff
  · intro agree values
    refine (runIn_shared_eq_ok_iff unreserved).trans ?_
    rw [evaluateAllIn_inline_shared unreserved agree]
    exact Expr.evaluateAllIn_eq_ok_iff

/-- A product and half of it. -/
def halvedProduct : List Expr :=
  let product := Expr.named "x" * Expr.element "a" 0
  [product, product / 2]

theorem run_of_share_halvedProduct :
    ∃ program,
      share .named [.named "x", .element "a" 0] halvedProduct = .ok program ∧
      program.temporaries.length = 1 ∧
      ∀ bindings values, program.run bindings = .ok values ↔
        List.Forall₂
          (fun output value => output.evaluate bindings = .ok value)
          halvedProduct values := by
  have accepted :
      share .named [.named "x", .element "a" 0] halvedProduct =
        .ok (shared .named halvedProduct) := rfl
  refine ⟨_, accepted, rfl, fun bindings => ?_⟩
  have agree : Hoisted.MergesAgree Arithmetic.double bindings halvedProduct :=
    Hoisted.mergesAgree_of_canonicals_eq rfl
  exact (run_of_share rfl accepted bindings).2.2 agree

/-- The quotients of one by zero and by negative zero get one temporary, and with
it one value. -/
theorem run_share_quotients_by_zeros :
    ∃ program infinity negativeInfinity,
      share .named []
          [.op .div [1, .float 0.0], .op .div [1, .float (-0.0)]] =
        .ok program ∧
      program.run Bindings.empty = .ok [infinity, infinity] ∧
      Expr.evaluate Bindings.empty (.op .div [1, .float (-0.0)]) =
        .ok negativeInfinity ∧
      infinity.toBits ≠ negativeInfinity.toBits :=
  ⟨_, 1.0 / 0.0, 1.0 / (-0.0), rfl, rfl, rfl, by decide +kernel⟩

end Program

end LieScribe
