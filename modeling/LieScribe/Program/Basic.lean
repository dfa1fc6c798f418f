import LieScribe.Evaluation
import LieScribe.Expr.Substitution

/-!
# Programs

A program computes named temporaries one after the other and then its outputs.
It can be run over any arithmetic, and it can be expanded again: substituting
each temporary into what follows leaves the outputs alone.
-/

namespace LieScribe

/-- A named intermediate value. -/
structure Temporary where
  symbol : Symbol
  definition : Expr
  deriving Repr

structure Program where
  temporaries : List Temporary
  outputs : List Expr
  deriving Repr

namespace Program

variable {α : Type}

/-- The program without temporaries. -/
def ofOutputs (outputs : List Expr) : Program :=
  ⟨[], outputs⟩

/-- Extend expansions by one temporary, itself expanded first.  A later temporary
of the same name takes the place of an earlier one. -/
def expandOne (expansions : Bindings Expr) (temporary : Temporary) :
    Bindings Expr :=
  expansions.bind temporary.symbol (temporary.definition.substitute expansions)

/-- What each temporary stands for in terms of the inputs. -/
def expansions (program : Program) : Bindings Expr :=
  program.temporaries.foldl expandOne Bindings.empty

/-- The outputs with all temporaries expanded. -/
def inline (program : Program) : List Expr :=
  program.outputs.map (Expr.substitute program.expansions)

/-- The number of elementary operations of one run. -/
def opCount (program : Program) : Nat :=
  Expr.opCounts (program.temporaries.map (·.definition)) +
    Expr.opCounts program.outputs

/-- Substitute in every definition and output; the temporaries keep their
names. -/
def substitute (bindings : Bindings Expr) (program : Program) : Program :=
  { temporaries := program.temporaries.map fun temporary =>
      { temporary with definition := temporary.definition.substitute bindings }
    outputs := program.outputs.map (Expr.substitute bindings) }

/-- Compute temporaries in order, binding each of them. -/
def bindTemporaries (arithmetic : Arithmetic α) :
    List Temporary → Bindings α → Except Fault (Bindings α)
  | [], bindings => .ok bindings
  | temporary :: others, bindings => do
      let value ← temporary.definition.evaluateIn arithmetic bindings
      bindTemporaries arithmetic others (bindings.bind temporary.symbol value)

/-- Run the program over an arithmetic. -/
def runIn (arithmetic : Arithmetic α) (program : Program)
    (bindings : Bindings α) : Except Fault (List α) := do
  let bound ← bindTemporaries arithmetic program.temporaries bindings
  Expr.evaluateAllIn arithmetic bound program.outputs

/-- Run the program in double precision. -/
def run (program : Program) (bindings : Bindings Float) :
    Except Fault (List Float) :=
  program.runIn Arithmetic.double bindings

end Program

end LieScribe
