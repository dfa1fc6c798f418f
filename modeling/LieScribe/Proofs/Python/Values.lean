import LieScribe.Arithmetic
import LieScribe.Bindings
import LieScribe.Proofs.Reading.Grammar

/-!
# Running texts of the older dialect

In the older dialect of Python a number at run time is an integer or a float, and what
an operator does depends on its operands: two integers are added, multiplied and raised
to powers as integers, their quotient is floored, and a float among the operands makes
the operation one of floats.  A minimum or maximum is one of its arguments as it stands.

What floats are is left open.  A script runs over any type of floats with the operations
that the texts use.
-/

namespace LieScribe.Python

/-- A number at run time. -/
inductive Value (α : Type) where
  | int (value : Int)
  | float (value : α)
  deriving DecidableEq, Repr

namespace Value

variable {α : Type}

def isInt : Value α → Bool
  | .int _ => true
  | .float _ => false

end Value

/-- The floats of a run: their arithmetic, the floats that integers and quoted texts are
converted to, and the order among integers and floats. -/
structure Floats (α : Type) where
  arithmetic : Arithmetic α
  ofInt : Int → α
  ofText : String → α
  less : Value α → Value α → Bool
  lessEqual : Value α → Value α → Bool

namespace Floats

variable {α : Type} (floats : Floats α)

def ofValue : Value α → α
  | .int value => floats.ofInt value
  | .float value => value

/-- An operation on integers, if there are no others, and on floats otherwise. -/
def join (ofInts : Int → Int → Value α) (ofFloats : α → α → α) :
    Value α → Value α → Value α
  | .int left, .int right => ofInts left right
  | left, right => .float (ofFloats (floats.ofValue left) (floats.ofValue right))

def keep (ofInt : Int → Int) (ofFloat : α → α) : Value α → Value α
  | .int value => .int (ofInt value)
  | .float value => .float (ofFloat value)

/-- A power of integers is one if the exponent has no sign. -/
def intPower (base exponent : Int) : Value α :=
  if 0 ≤ exponent then
    .int (base.pow exponent.toNat)
  else
    .float (floats.arithmetic.pow (floats.ofInt base) (floats.ofInt exponent))

def compare (holds : Bool) : Value α :=
  .int (if holds then 1 else 0)

def operate : Operator → Value α → Value α → Value α
  | .add => floats.join (fun left right => .int (left + right)) floats.arithmetic.add
  | .sub => floats.join (fun left right => .int (left - right)) floats.arithmetic.sub
  | .mul => floats.join (fun left right => .int (left * right)) floats.arithmetic.mul
  | .div => floats.join (fun left right => .int (left.fdiv right)) floats.arithmetic.div
  | .pow => floats.join floats.intPower floats.arithmetic.pow
  | .lt => fun left right => compare (floats.less left right)
  | .le => fun left right => compare (floats.lessEqual left right)
  | .gt => fun left right => compare (floats.less right left)
  | .ge => fun left right => compare (floats.lessEqual right left)

def minimum (first : Value α) (others : List (Value α)) : Value α :=
  others.foldl (fun least value => if floats.less value least then value else least) first

def maximum (first : Value α) (others : List (Value α)) : Value α :=
  others.foldl (fun greatest value => if floats.less greatest value then value else greatest)
    first

end Floats

/-- The elementary functions, which give floats. -/
def elementary? : String → Option Operation
  | "numpy.sin" => some .sin
  | "numpy.cos" => some .cos
  | "numpy.tan" => some .tan
  | "numpy.arcsin" => some .asin
  | "numpy.arccos" => some .acos
  | "numpy.arctan" => some .atan
  | "numpy.arctan2" => some .atan2
  | "numpy.sqrt" => some .sqrt
  | "numpy.exp" => some .exp
  | "numpy.log" => some .log
  | _ => none

namespace Floats

variable {α : Type} (floats : Floats α)

def call? (callee : String) (arguments : List (Value α)) : Option (Value α) :=
  match callee, arguments with
  | "float", [value] => some (.float (floats.ofValue value))
  | "abs", [value] => some (keep (fun value => value.natAbs) floats.arithmetic.abs value)
  | "numpy.sign", [value] => some (keep Int.sign floats.arithmetic.sign value)
  | "min", first :: others => some (floats.minimum first others)
  | "max", first :: others => some (floats.maximum first others)
  | callee, arguments => do
      let operation ← elementary? callee
      let value ← floats.arithmetic.value? operation (arguments.map floats.ofValue)
      some (.float value)

end Floats

end LieScribe.Python

namespace LieScribe.ParseTree

open Python

variable {α : Type} (floats : Floats α) (bindings : Bindings (Value α))

mutual

/-- The value of a text, if all its names are bound and all functions known. -/
def value? : ParseTree → Option (Value α)
  | .name text => bindings.get? (.named text)
  | .element array index => bindings.get? (.element array index)
  | .integer value => some (.int value)
  | .decimal value => some (.float (floats.arithmetic.literal (.float value)))
  | .quoted _ => none
  | .negative operand => (operand.value?).map (Floats.keep Int.neg floats.arithmetic.neg)
  | .binary operator left right => do
      let leftValue ← left.value?
      let rightValue ← right.value?
      some (floats.operate operator leftValue rightValue)
  | .call callee arguments =>
      match callee, arguments with
      | "float", [.quoted text] => some (.float (floats.ofText text))
      | _, _ => do
          let values ← values? arguments
          floats.call? callee values

def values? : List ParseTree → Option (List (Value α))
  | [] => some []
  | tree :: others => do
      let value ← tree.value?
      let values ← values? others
      some (value :: values)

end

def keepsInts : String → Bool
  | "abs" | "numpy.sign" | "min" | "max" => true
  | _ => false

mutual

/-- May the text be an integer by its form?  Names are taken for floats, and so are
quotients. -/
def mayBeInt : ParseTree → Bool
  | .integer _ => true
  | .negative operand => operand.mayBeInt
  | .binary operator left right =>
      operator.precedence = .comparison ||
        (operator ≠ .div && left.mayBeInt && right.mayBeInt)
  | .call callee arguments => keepsInts callee && allMayBeInt arguments
  | _ => false

def allMayBeInt : List ParseTree → Bool
  | [] => true
  | tree :: others => tree.mayBeInt && allMayBeInt others

end

/-- Is this a minimum or maximum of texts some of which may be integers? -/
def isMixture : ParseTree → Bool
  | .call callee arguments =>
      (callee = "min" || callee = "max") &&
        arguments.any mayBeInt && arguments.any (!·.mayBeInt)
  | _ => false

/-- Does the text have an integer as its value? -/
def isInt (tree : ParseTree) : Bool :=
  (tree.value? floats bindings).any Value.isInt

/-- Is this a quotient of two integers? -/
def isFloored : ParseTree → Bool
  | .binary .div left right => left.isInt floats bindings && right.isInt floats bindings
  | _ => false

/-- Is this a minimum or maximum of texts that may be integers and others, and is it an
integer? -/
def isMixed (tree : ParseTree) : Bool :=
  tree.isMixture && tree.isInt floats bindings

end LieScribe.ParseTree

namespace LieScribe.Python

/-- Assignments, to be carried out in order, and the texts of the results. -/
structure Script where
  assignments : List (Symbol × ParseTree)
  results : List ParseTree

/-- A text that is evaluated, with the names bound then and its value. -/
structure Moment (α : Type) where
  bindings : Bindings (Value α)
  tree : ParseTree
  value : Value α

namespace Moment

variable {α : Type} (floats : Floats α)

def at? (bindings : Bindings (Value α)) (tree : ParseTree) : Option (Moment α) :=
  (tree.value? floats bindings).map fun value => ⟨bindings, tree, value⟩

/-- Is a quotient of two integers computed? -/
def floors (moment : Moment α) : Bool :=
  moment.tree.nodes.any (ParseTree.isFloored floats moment.bindings)

/-- Does a minimum or maximum, some of whose texts may be integers, turn out to be one? -/
def mixes (moment : Moment α) : Bool :=
  moment.tree.nodes.any (ParseTree.isMixed floats moment.bindings)

end Moment

namespace Script

variable {α : Type} (floats : Floats α)

def evaluate? (bindings : Bindings (Value α)) : List ParseTree → Option (List (Moment α))
  | [] => some []
  | tree :: others => do
      let moment ← Moment.at? floats bindings tree
      let later ← evaluate? bindings others
      some (moment :: later)

def execute? (results : List ParseTree) :
    List (Symbol × ParseTree) → Bindings (Value α) → Option (List (Moment α))
  | [], bindings => evaluate? floats bindings results
  | (symbol, tree) :: others, bindings => do
      let moment ← Moment.at? floats bindings tree
      let later ← execute? results others (bindings.bind symbol moment.value)
      some (moment :: later)

/-- Carry out the assignments in order and then compute the results.  The answer lists
all texts as they were evaluated; there is none if a text has no value. -/
def run? (script : Script) (bindings : Bindings (Value α)) : Option (List (Moment α)) :=
  execute? floats script.results script.assignments bindings

end Script

end LieScribe.Python
