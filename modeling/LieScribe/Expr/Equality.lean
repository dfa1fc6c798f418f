import LieScribe.Expr.Basic

/-!
# Equality of expressions

Two expressions are the same when they have the same shape and their literals
are the same numbers.  Each class of equal expressions has a representative in
which negative zero is written as zero, so sameness is equality of
representatives.
-/

namespace LieScribe.Expr

mutual

/-- Do two expressions agree up to sameness of literals? -/
def same : Expr → Expr → Bool
  | .symbol left, .symbol right => decide (left = right)
  | .literal left, .literal right => left.same right
  | .op operation arguments, .op operation' arguments' =>
      decide (operation = operation') && sameAll arguments arguments'
  | _, _ => false

def sameAll : List Expr → List Expr → Bool
  | [], [] => true
  | left :: lefts, right :: rights => left.same right && sameAll lefts rights
  | _, _ => false

end

mutual

/-- The representative of the expressions that are the same as a given one. -/
def canonical : Expr → Expr
  | .symbol leaf => .symbol leaf
  | .literal constant => .literal constant.canonical
  | .op operation arguments => .op operation (canonicals arguments)

def canonicals : List Expr → List Expr
  | [] => []
  | expr :: others => expr.canonical :: canonicals others

end

theorem sameAll_iff_of_forall {left : List Expr}
    (each : ∀ expr ∈ left, ∀ other,
      expr.same other = true ↔ expr.canonical = other.canonical)
    (right : List Expr) :
    sameAll left right = true ↔ canonicals left = canonicals right := by
  induction left generalizing right with
  | nil => cases right <;> simp [sameAll, canonicals]
  | cons expr others inductionHypothesis =>
      have headEach := each expr (List.mem_cons_self ..)
      have tailEach := inductionHypothesis fun other member =>
        each other (List.mem_cons_of_mem _ member)
      cases right with
      | nil => simp [sameAll, canonicals]
      | cons other rest =>
          simp [sameAll, canonicals, headEach other, tailEach rest]

/-- Sameness is equality of representatives. -/
theorem same_iff (left right : Expr) :
    left.same right = true ↔ left.canonical = right.canonical := by
  induction left generalizing right with
  | symbol leaf => cases right <;> simp [same, canonical]
  | literal constant => cases right <;> simp [same, canonical, Literal.same]
  | op operation arguments each =>
      cases right with
      | symbol _ => simp [same, canonical]
      | literal _ => simp [same, canonical]
      | op operation' arguments' =>
          simp [same, canonical, sameAll_iff_of_forall each arguments']

theorem same_refl (expr : Expr) : expr.same expr = true :=
  (same_iff expr expr).mpr rfl

theorem same_symm {left right : Expr} (same : left.same right = true) :
    right.same left = true :=
  (same_iff right left).mpr ((same_iff left right).mp same).symm

theorem same_trans {left middle right : Expr}
    (first : left.same middle = true) (second : middle.same right = true) :
    left.same right = true :=
  (same_iff left right).mpr
    (((same_iff left middle).mp first).trans ((same_iff middle right).mp second))

/-- Does a list hold an expression that is the same as a given one? -/
def memberOf (expr : Expr) (exprs : List Expr) : Bool :=
  exprs.any (·.same expr)

/-- The expressions of a list, the first of each class. -/
def distinct (exprs : List Expr) : List Expr :=
  exprs.foldl
    (fun kept expr => if expr.memberOf kept then kept else kept ++ [expr]) []

end LieScribe.Expr
