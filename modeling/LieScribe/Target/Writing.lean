import LieScribe.Fault
import LieScribe.Target.Cpp
import LieScribe.Target.Python

/-!
# Writing expressions

The text of an expression in a target language.  All targets walk a tree in the
same way and report the same first fault: an operation with a wrong number of
arguments, or a function, which no target can write.
-/

namespace LieScribe.Target

def literal : Target → Literal → Fragment
  | .python2 | .python3 => Python.literal
  | .cpp => Cpp.literal

/-- The text of an operation other than a sum. -/
def combine? : Target → Operation → List Operand → Option Fragment
  | .python2 => Python.combine? true
  | .python3 => Python.combine? false
  | .cpp => Cpp.combine?

/-- No target can write a function that is known by name only. -/
def checkSupport (target : Target) : Operation → Except Fault Unit
  | .function name => .error (.unsupportedOperation name target)
  | _ => .ok ()

/-- A literal as a term of a sum after the first one. -/
def literalTerm (target : Target) (constant : Literal) : Term :=
  match constant.subtracted? with
  | some positive => ⟨true, target.literal positive⟩
  | none => ⟨false, target.literal constant⟩

mutual

def write (target : Target) : Expr → Except Fault Fragment
  | .symbol leaf => .ok (.atom leaf.text)
  | .literal constant => .ok (target.literal constant)
  | .op .add (first :: others) => do
      Operation.add.checkCount (first :: others).length
      let head ← target.write first
      let terms ← target.writeTerms others
      return .sum head terms
  | .op operation arguments => do
      operation.checkCount arguments.length
      target.checkSupport operation
      let operands ← target.writeAll arguments
      match target.combine? operation operands with
      | some fragment => .ok fragment
      | none => .error (.unsupportedOperation operation.name target)

def writeAll (target : Target) : List Expr → Except Fault (List Operand)
  | [] => .ok []
  | argument :: others => do
      let fragment ← target.write argument
      let operands ← target.writeAll others
      return ⟨argument, fragment⟩ :: operands

/-- The terms of a sum after the first one.  A negated term and a negative literal
are subtracted. -/
def writeTerms (target : Target) : List Expr → Except Fault (List Term)
  | [] => .ok []
  | .op .neg [operand] :: others => do
      let fragment ← target.write operand
      let terms ← target.writeTerms others
      return ⟨true, fragment⟩ :: terms
  | .literal constant :: others => do
      let terms ← target.writeTerms others
      return target.literalTerm constant :: terms
  | term :: others => do
      let fragment ← target.write term
      let terms ← target.writeTerms others
      return ⟨false, fragment⟩ :: terms

end

/-- The text alone. -/
def render (target : Target) (expr : Expr) : Except Fault String := do
  let fragment ← target.write expr
  return fragment.text

end LieScribe.Target
