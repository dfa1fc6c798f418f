import LieScribe.Arithmetic
import LieScribe.Bindings
import LieScribe.Expr.Basic
import LieScribe.Fault

/-!
# Evaluation

The value of an expression under bindings of its symbols, over any arithmetic.
The first node without a value, seen from the root downward and from left to
right, is reported: an operation with a wrong number of arguments, a function,
or a symbol that is not bound.
-/

namespace LieScribe.Expr

variable {α : Type}

/-- The function that an operation names, if it has no meaning to compute with. -/
def rejectFunction : Operation → Except Fault Unit
  | .function name => .error (.uninterpretedFunction name)
  | _ => .ok ()

mutual

def evaluateIn (arithmetic : Arithmetic α) (bindings : Bindings α) :
    Expr → Except Fault α
  | .symbol leaf =>
      match bindings.get? leaf with
      | some value => .ok value
      | none => .error (.unboundSymbol leaf)
  | .literal constant => .ok (arithmetic.literal constant)
  | .op operation arguments => do
      operation.checkCount arguments.length
      rejectFunction operation
      let values ← evaluateAllIn arithmetic bindings arguments
      match arithmetic.value? operation values with
      | some value => .ok value
      | none =>
          .error (.malformedOperation operation.name operation.arity
            arguments.length)

def evaluateAllIn (arithmetic : Arithmetic α) (bindings : Bindings α) :
    List Expr → Except Fault (List α)
  | [] => .ok []
  | expr :: others => do
      let value ← expr.evaluateIn arithmetic bindings
      let values ← evaluateAllIn arithmetic bindings others
      return value :: values

end

/-- The value in double precision. -/
def evaluate (bindings : Bindings Float) (expr : Expr) : Except Fault Float :=
  expr.evaluateIn Arithmetic.double bindings

end LieScribe.Expr
