import LieScribe.Literal
import LieScribe.Operation
import LieScribe.Symbol

/-!
# Expressions

An expression is a symbol, a literal, or an operation applied to a list of
expressions.  Trees are built as they are asked for: nothing is simplified, and
an operation may hold a number of arguments that it does not accept.

Functions on expressions come in pairs, one for a tree and one for the list of
arguments below a node.  `Expr.induct` is the matching induction principle.
-/

namespace LieScribe

inductive Expr where
  | symbol (symbol : Symbol)
  | literal (literal : Literal)
  | op (operation : Operation) (arguments : List Expr)
  deriving Repr

namespace Expr

/-- A property holds of all expressions when it holds of symbols and literals and
of an operation whenever it holds of each argument. -/
@[elab_as_elim, induction_eliminator]
theorem induct {motive : Expr → Prop}
    (symbol : ∀ symbol, motive (.symbol symbol))
    (literal : ∀ literal, motive (.literal literal))
    (op : ∀ operation arguments,
      (∀ argument ∈ arguments, motive argument) →
        motive (.op operation arguments))
    (expr : Expr) : motive expr :=
  @Expr.rec motive
    (fun arguments => ∀ argument ∈ arguments, motive argument)
    symbol literal op
    (fun _ member => nomatch member)
    (fun _ _ head tail => List.forall_mem_cons.mpr ⟨head, tail⟩)
    expr

/-! ## Building -/

def named (name : String) : Expr :=
  .symbol (.named name)

def element (array : String) (index : Nat) : Expr :=
  .symbol (.element array index)

def int (value : Int64) : Expr :=
  .literal (.int value)

def float (value : Float) : Expr :=
  .literal (.float value)

/-- The elements of an array as expressions. -/
def array (name : String) (length : Nat) : List Expr :=
  (Symbol.array name length).map .symbol

instance (n : Nat) : OfNat Expr n := ⟨.int (Int64.ofNat n)⟩

instance : Add Expr := ⟨fun left right => .op .add [left, right]⟩

instance : Sub Expr := ⟨fun left right => .op .sub [left, right]⟩

instance : Mul Expr := ⟨fun left right => .op .mul [left, right]⟩

instance : Div Expr := ⟨fun left right => .op .div [left, right]⟩

/-- Change of sign.  A literal is replaced by the opposite literal, if there is
one. -/
def negate : Expr → Expr
  | .literal constant =>
      match constant.negated? with
      | some opposite => .literal opposite
      | none => .op .neg [.literal constant]
  | expr => .op .neg [expr]

instance : Neg Expr := ⟨negate⟩

/-- A sum of any number of terms. -/
def sum (terms : List Expr) : Expr :=
  .op .add terms

def pow (base exponent : Expr) : Expr :=
  .op .pow [base, exponent]

def squared (expr : Expr) : Expr :=
  pow expr 2

def sign (expr : Expr) : Expr :=
  .op .sign [expr]

def sin (expr : Expr) : Expr :=
  .op .sin [expr]

def cos (expr : Expr) : Expr :=
  .op .cos [expr]

def sqrt (expr : Expr) : Expr :=
  .op .sqrt [expr]

def atan2 (ordinate abscissa : Expr) : Expr :=
  .op .atan2 [ordinate, abscissa]

/-! ## Looking -/

/-- Symbols and literals are atoms. -/
def isAtom : Expr → Bool
  | .op _ _ => false
  | _ => true

def symbol? : Expr → Option Symbol
  | .symbol leaf => some leaf
  | _ => none

def literal? : Expr → Option Literal
  | .literal constant => some constant
  | _ => none

def operation? : Expr → Option Operation
  | .op operation _ => some operation
  | _ => none

def arguments : Expr → List Expr
  | .op _ arguments => arguments
  | _ => []

mutual

/-- The expression in call form, `name(argument, …)`. -/
def text : Expr → String
  | .symbol leaf => leaf.text
  | .literal constant => constant.text
  | .op operation arguments =>
      operation.name ++ "(" ++ String.intercalate ", " (texts arguments) ++ ")"

def texts : List Expr → List String
  | [] => []
  | expr :: others => expr.text :: texts others

end

mutual

/-- The number of nodes of the tree. -/
def nodeCount : Expr → Nat
  | .symbol _ => 1
  | .literal _ => 1
  | .op _ arguments => nodeCounts arguments + 1

def nodeCounts : List Expr → Nat
  | [] => 0
  | expr :: others => expr.nodeCount + nodeCounts others

end

mutual

/-- The number of elementary operations in the tree. -/
def opCount : Expr → Nat
  | .symbol _ => 0
  | .literal _ => 0
  | .op operation arguments =>
      operation.cost arguments.length + opCounts arguments

def opCounts : List Expr → Nat
  | [] => 0
  | expr :: others => expr.opCount + opCounts others

end

mutual

/-- The occurrences of symbols, from left to right. -/
def symbols : Expr → List Symbol
  | .symbol leaf => [leaf]
  | .literal _ => []
  | .op _ arguments => symbolsOf arguments

def symbolsOf : List Expr → List Symbol
  | [] => []
  | expr :: others => expr.symbols ++ symbolsOf others

end

/-- The symbols of an expression in order, each of them once. -/
def freeSymbols (expr : Expr) : List Symbol :=
  Symbol.sorted expr.symbols

end Expr

end LieScribe
