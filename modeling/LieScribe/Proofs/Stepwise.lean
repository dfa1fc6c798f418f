import LieScribe.Proofs.Evaluation
import LieScribe.Program.Basic

/-!
# Two runs side by side

A run gives the temporaries their values one after the other.  Two runs have the same
outcome, values or fault, if the bindings stay related from step to step and expressions at
the same place have the same outcome under related bindings.  What an assignment does to the
bindings may differ between the runs: binding one symbol is what `Program.runIn` does, and
overwriting a whole variable is what an assignment does where elements of an array share the
name of one.
-/

namespace LieScribe.Program

variable {α : Type} {arithmetic : Arithmetic α}

/-- Run temporaries and then outputs, where `assign` is what giving a symbol its value does
to the bindings. -/
def runAssigning (arithmetic : Arithmetic α) (assign : Bindings α → Symbol → α → Bindings α) :
    List Temporary → List Expr → Bindings α → Except Fault (List α)
  | [], outputs, bindings => Expr.evaluateAllIn arithmetic bindings outputs
  | temporary :: others, outputs, bindings => do
      let value ← temporary.definition.evaluateIn arithmetic bindings
      runAssigning arithmetic assign others outputs (assign bindings temporary.symbol value)

theorem runIn_eq_runAssigning (program : Program) (bindings : Bindings α) :
    program.runIn arithmetic bindings =
      runAssigning arithmetic Bindings.bind program.temporaries program.outputs bindings := by
  obtain ⟨temporaries, outputs⟩ := program
  induction temporaries generalizing bindings with
  | nil =>
      rfl
  | cons temporary others inductionHypothesis =>
      rw [runAssigning, runIn, bindTemporaries, bind_assoc]
      exact bind_congr fun value => inductionHypothesis _

/-- Two temporaries take related bindings to related bindings, with the same outcome. -/
structure StepsAlike (arithmetic : Arithmetic α)
    (assign assign' : Bindings α → Symbol → α → Bindings α)
    (related : Bindings α → Bindings α → Prop) (temporary temporary' : Temporary) : Prop where
  outcome : ∀ bound bound', related bound bound' →
    temporary.definition.evaluateIn arithmetic bound =
      temporary'.definition.evaluateIn arithmetic bound'
  next : ∀ bound bound' value, related bound bound' →
    related (assign bound temporary.symbol value) (assign' bound' temporary'.symbol value)

theorem runAssigning_congr {assign assign' : Bindings α → Symbol → α → Bindings α}
    {related : Bindings α → Bindings α → Prop} {temporaries temporaries' : List Temporary}
    (steps : List.Forall₂ (StepsAlike arithmetic assign assign' related) temporaries temporaries')
    {outputs outputs' : List Expr}
    (ends : ∀ bound bound', related bound bound' →
      Expr.evaluateAllIn arithmetic bound outputs = Expr.evaluateAllIn arithmetic bound' outputs')
    {bound bound' : Bindings α} (start : related bound bound') :
    runAssigning arithmetic assign temporaries outputs bound =
      runAssigning arithmetic assign' temporaries' outputs' bound' := by
  induction steps generalizing bound bound' with
  | nil =>
      exact ends bound bound' start
  | cons step _ inductionHypothesis =>
      rw [runAssigning, runAssigning, step.outcome bound bound' start]
      exact bind_congr fun value => inductionHypothesis (step.next bound bound' value start)

end LieScribe.Program
