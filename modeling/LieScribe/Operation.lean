/-!
# Operations

The operations an expression may apply, the names they are written with, and
how many arguments each of them takes.  A name that belongs to no operation
names an uninterpreted function, which takes any number of arguments.
-/

namespace LieScribe

/-- How many arguments an operation takes. -/
inductive Arity where
  | exactly (count : Nat)
  | atLeast (count : Nat)
  deriving DecidableEq, Repr

namespace Arity

def accepts : Arity → Nat → Bool
  | .exactly count, found => found == count
  | .atLeast count, found => decide (count ≤ found)

def text : Arity → String
  | .exactly count => Nat.repr count
  | .atLeast count => "at least " ++ Nat.repr count

end Arity

/-- An arithmetic operation, or a function known by name only. -/
inductive Operation where
  | add
  | sub
  | mul
  | div
  | pow
  | neg
  | abs
  | sign
  | min
  | max
  | lt
  | le
  | gt
  | ge
  | sin
  | cos
  | tan
  | asin
  | acos
  | atan
  | atan2
  | sqrt
  | exp
  | log
  | function (name : String)
  deriving DecidableEq, Repr

namespace Operation

/-- The operations that have a meaning of their own. -/
def interpreted : List Operation :=
  [.add, .sub, .mul, .div, .pow, .neg, .abs, .sign, .min, .max, .lt, .le, .gt,
    .ge, .sin, .cos, .tan, .asin, .acos, .atan, .atan2, .sqrt, .exp, .log]

def name : Operation → String
  | .add => "add"
  | .sub => "sub"
  | .mul => "mul"
  | .div => "div"
  | .pow => "pow"
  | .neg => "neg"
  | .abs => "abs"
  | .sign => "sign"
  | .min => "min"
  | .max => "max"
  | .lt => "lt"
  | .le => "le"
  | .gt => "gt"
  | .ge => "ge"
  | .sin => "sin"
  | .cos => "cos"
  | .tan => "tan"
  | .asin => "asin"
  | .acos => "acos"
  | .atan => "atan"
  | .atan2 => "atan2"
  | .sqrt => "sqrt"
  | .exp => "exp"
  | .log => "log"
  | .function name => name

/-- The operation with a given name; an unknown name is a function. -/
def ofName (name : String) : Operation :=
  (interpreted.find? (·.name == name)).getD (.function name)

def isFunction : Operation → Bool
  | .function _ => true
  | _ => false

def arity : Operation → Arity
  | .add | .mul | .min | .max => .atLeast 2
  | .sub | .div | .pow | .lt | .le | .gt | .ge | .atan2 => .exactly 2
  | .neg | .abs | .sign | .sin | .cos | .tan | .asin | .acos | .atan | .sqrt
  | .exp | .log => .exactly 1
  | .function _ => .atLeast 0

/-- How many elementary operations one application stands for: a sum, product,
minimum or maximum of several arguments joins them pairwise. -/
def cost (operation : Operation) (arguments : Nat) : Nat :=
  match operation with
  | .add | .mul | .min | .max => arguments - 1
  | _ => 1

end Operation

end LieScribe
