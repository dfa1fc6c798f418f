import LieScribe.Group.Definition

/-!
# Numeric group operations

An operation of a group compiled to a program over one array of numbers, and its
calls.
-/

namespace LieScribe

structure CompiledOperation where
  group : MotionGroup
  operation : GroupOperation
  program : Program
  inputArray : String
  inputCount : Nat

namespace CompiledOperation

def compile (group : MotionGroup) (operation : GroupOperation) :
    Except Fault CompiledOperation := do
  let definition := group.define operation
  let naming := Naming.arrayed
  let program ← Program.share naming definition.inputs definition.outputs
  return ⟨group, operation, program, naming.inputArray,
    definition.inputs.length⟩

/-- Call the operation.  Only the number of all values together matters, not how
they are split into arguments. -/
def call (compiled : CompiledOperation) (arguments : List (List Float)) :
    Except Fault (List Float) :=
  let values := arguments.flatten
  if values.length = compiled.inputCount then
    compiled.program.run (Bindings.empty.bindArray compiled.inputArray values)
  else
    .error (.wrongValueCount (compiled.group.qualified compiled.operation)
      compiled.inputCount values.length)

end CompiledOperation

end LieScribe
