import LieScribe.Expr.Basic
import LieScribe.Fault

/-!
# Well-formed expressions

Every operation of a well-formed expression accepts the number of its arguments.
The first operation that does not, seen from the root downward and from left to
right, is reported.
-/

namespace LieScribe.Expr

mutual

def check : Expr → Except Fault Unit
  | .symbol _ => .ok ()
  | .literal _ => .ok ()
  | .op operation arguments => do
      operation.checkCount arguments.length
      checkAll arguments

def checkAll : List Expr → Except Fault Unit
  | [] => .ok ()
  | expr :: others => do
      expr.check
      checkAll others

end

end LieScribe.Expr
