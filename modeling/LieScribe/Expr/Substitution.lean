import LieScribe.Bindings
import LieScribe.Expr.Basic

/-!
# Substitution

All bound symbols are replaced at once; the expressions put in their place are
not searched again.
-/

namespace LieScribe.Expr

mutual

def substitute (bindings : Bindings Expr) : Expr → Expr
  | .symbol leaf => (bindings.get? leaf).getD (.symbol leaf)
  | .literal constant => .literal constant
  | .op operation arguments => .op operation (substituteAll bindings arguments)

def substituteAll (bindings : Bindings Expr) : List Expr → List Expr
  | [] => []
  | expr :: others => expr.substitute bindings :: substituteAll bindings others

end

theorem substituteAll_eq_map (bindings : Bindings Expr) (exprs : List Expr) :
    substituteAll bindings exprs = exprs.map (substitute bindings) := by
  induction exprs with
  | nil => rfl
  | cons expr others inductionHypothesis =>
      simp [substituteAll, inductionHypothesis]

end LieScribe.Expr
