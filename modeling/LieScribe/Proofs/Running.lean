import LieScribe.Program.Basic
import LieScribe.Proofs.Evaluation

/-!
# Running a program and expanding it

A run binds the values of the temporaries one after the other; expanding the
program substitutes their definitions.  The two keep in step: after any number of
temporaries the bindings hold the values of the expansions, whatever the names of
the temporaries are and however often they are used again.
-/

namespace LieScribe.Program

variable {α : Type} {arithmetic : Arithmetic α} {bindings : Bindings α}

/-- The definitions of temporaries, each with the earlier ones expanded. -/
def expandDefinitions (expansions : Bindings Expr) : List Temporary → List Expr
  | [] => []
  | temporary :: others =>
      temporary.definition.substitute expansions ::
        expandDefinitions (expandOne expansions temporary) others

def expandedDefinitions (program : Program) : List Expr :=
  expandDefinitions Bindings.empty program.temporaries

theorem expandDefinitions_concat (expansions : Bindings Expr)
    (temporaries : List Temporary) (temporary : Temporary) :
    expandDefinitions expansions (temporaries ++ [temporary]) =
      expandDefinitions expansions temporaries ++
        [temporary.definition.substitute
          (temporaries.foldl expandOne expansions)] := by
  induction temporaries generalizing expansions with
  | nil =>
      rfl
  | cons first others inductionHypothesis =>
      rw [List.cons_append, expandDefinitions, expandDefinitions,
        inductionHypothesis]
      rfl

/-- After a run of temporaries the bindings hold the values of the expansions. -/
theorem agrees_of_bindTemporaries (temporaries : List Temporary)
    {expansions : Bindings Expr} {bound final : Bindings α}
    (agrees : Expr.Agrees arithmetic bindings expansions bound)
    (ran : bindTemporaries arithmetic temporaries bound = .ok final) :
    Expr.Agrees arithmetic bindings
      (temporaries.foldl expandOne expansions) final := by
  induction temporaries generalizing expansions bound with
  | nil =>
      cases ran
      exact agrees
  | cons temporary others inductionHypothesis =>
      obtain ⟨value, evaluated, othersRan⟩ := Outcome.bind_eq_ok_iff.mp ran
      rw [← Expr.evaluateIn_substitute agrees] at evaluated
      exact inductionHypothesis
        (agrees.bind evaluated temporary.symbol) othersRan

/-- Temporaries can be bound exactly if their expanded definitions have values. -/
theorem exists_bindTemporaries_eq_ok_iff (temporaries : List Temporary)
    {expansions : Bindings Expr} {bound : Bindings α}
    (agrees : Expr.Agrees arithmetic bindings expansions bound) :
    (∃ final, bindTemporaries arithmetic temporaries bound = .ok final) ↔
      ∀ definition ∈ expandDefinitions expansions temporaries,
        ∃ value, definition.evaluateIn arithmetic bindings = .ok value := by
  induction temporaries generalizing expansions bound with
  | nil =>
      simp [bindTemporaries, expandDefinitions]
  | cons temporary others inductionHypothesis =>
      simp only [bindTemporaries, expandDefinitions, List.forall_mem_cons,
        Outcome.bind_eq_ok_iff,
        ← Expr.evaluateIn_substitute agrees temporary.definition]
      constructor
      · rintro ⟨final, value, evaluated, othersRan⟩
        have next := agrees.bind evaluated temporary.symbol
        exact ⟨⟨value, evaluated⟩,
          (inductionHypothesis next).mp ⟨final, othersRan⟩⟩
      · rintro ⟨⟨value, evaluated⟩, othersHaveValues⟩
        have next := agrees.bind evaluated temporary.symbol
        obtain ⟨final, othersRan⟩ :=
          (inductionHypothesis next).mpr othersHaveValues
        exact ⟨final, value, evaluated, othersRan⟩

theorem evaluateAllIn_inline {program : Program} {final : Bindings α}
    (ran : bindTemporaries arithmetic program.temporaries bindings = .ok final) :
    Expr.evaluateAllIn arithmetic bindings program.inline =
      Expr.evaluateAllIn arithmetic final program.outputs := by
  have agrees := agrees_of_bindTemporaries program.temporaries
    (Expr.Agrees.empty arithmetic bindings) ran
  apply Expr.evaluateAllIn_congr
  rw [inline, List.forall₂_map_left_iff, List.forall₂_same]
  intro output _
  exact Expr.evaluateIn_substitute agrees output

/-- A run succeeds exactly if the expanded definitions and outputs have values,
and its results are the values of the expanded outputs. -/
theorem runIn_eq_ok_iff {program : Program} {values : List α} :
    program.runIn arithmetic bindings = .ok values ↔
      (∀ definition ∈ program.expandedDefinitions,
        ∃ value, definition.evaluateIn arithmetic bindings = .ok value) ∧
        Expr.evaluateAllIn arithmetic bindings program.inline = .ok values := by
  have possible := exists_bindTemporaries_eq_ok_iff program.temporaries
    (Expr.Agrees.empty arithmetic bindings)
  rw [expandedDefinitions, ← possible, runIn, Outcome.bind_eq_ok_iff]
  constructor
  · rintro ⟨final, ran, evaluated⟩
    exact ⟨⟨final, ran⟩, (evaluateAllIn_inline ran).trans evaluated⟩
  · rintro ⟨⟨final, ran⟩, evaluated⟩
    exact ⟨final, ran, (evaluateAllIn_inline ran).symm.trans evaluated⟩

/-- The program with its first temporaries only. -/
def front (program : Program) (count : Nat) : Program :=
  { program with temporaries := program.temporaries.take count }

/-- A definition is expanded by the temporaries in front of it, not by those of the same name
that follow. -/
theorem getElem?_expandDefinitions (expansions : Bindings Expr) (temporaries : List Temporary)
    (index : Nat) :
    (expandDefinitions expansions temporaries)[index]? =
      temporaries[index]?.map fun temporary =>
        temporary.definition.substitute ((temporaries.take index).foldl expandOne expansions) := by
  induction temporaries generalizing expansions index with
  | nil =>
      rfl
  | cons temporary others inductionHypothesis =>
      cases index with
      | zero =>
          rfl
      | succ index =>
          rw [expandDefinitions, List.getElem?_cons_succ, List.getElem?_cons_succ,
            inductionHypothesis, List.take_succ_cons, List.foldl_cons]

theorem forall_mem_expandedDefinitions_iff {program : Program} {holds : Expr → Prop} :
    (∀ definition ∈ program.expandedDefinitions, holds definition) ↔
      ∀ index : Fin program.temporaries.length,
        holds (program.temporaries[index].definition.substitute
          (program.front index).expansions) := by
  simp only [List.mem_iff_getElem?, expandedDefinitions, getElem?_expandDefinitions,
    Option.map_eq_some_iff]
  constructor
  · intro each index
    exact each _ ⟨index, _, List.getElem?_eq_getElem index.isLt, rfl⟩
  · rintro each definition ⟨index, temporary, found, rfl⟩
    obtain ⟨inRange, rfl⟩ := List.getElem?_eq_some_iff.mp found
    exact each ⟨index, inRange⟩

/-- A run of any program is the evaluation of its expansion.  It succeeds exactly if the
expanded outputs have values and each definition has one once the temporaries in front of it
are expanded, and its results are the values of the expanded outputs.  Names may be used
again, hide inputs, or be read before they are given a value. -/
theorem run_eq_ok_iff_inline (program : Program) (bindings : Bindings Float) :
    (∀ values, program.run bindings = .ok values ↔
      (∀ index : Fin program.temporaries.length, ∃ value,
        (program.temporaries[index].definition.substitute
          (program.front index).expansions).evaluate bindings = .ok value) ∧
        List.Forall₂ (fun output value => output.evaluate bindings = .ok value)
          program.inline values) ∧
      ((∃ values, program.run bindings = .ok values) ↔
        (∀ index : Fin program.temporaries.length, ∃ value,
          (program.temporaries[index].definition.substitute
            (program.front index).expansions).evaluate bindings = .ok value) ∧
          ∀ output ∈ program.inline, ∃ value, output.evaluate bindings = .ok value) := by
  constructor
  · intro values
    rw [run, runIn_eq_ok_iff, forall_mem_expandedDefinitions_iff, Expr.evaluateAllIn_eq_ok_iff]
    rfl
  · simp only [run, runIn_eq_ok_iff, exists_and_left, forall_mem_expandedDefinitions_iff,
      Expr.exists_evaluateAllIn_eq_ok_iff]
    rfl

/-- A temporary that is computed from itself: each definition reads the value before it. -/
example (bindings : Bindings Float) (value : Float) :
    Program.run ⟨[⟨.named "x", .named "x" + 1⟩, ⟨.named "x", .named "x" * .named "x"⟩],
        [.named "x"]⟩ (bindings.bind (.named "x") value) =
      .ok [(value + 1.0) * (value + 1.0)] := by
  rfl

end LieScribe.Program
