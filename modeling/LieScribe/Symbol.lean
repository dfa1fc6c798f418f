/-!
# Symbols

An input of a program is either a plain name such as `epsilon` or one element
of an array such as `a[3]`.  A symbol has a text, and a text reads as a symbol:
the part in front of the first opening bracket names an array when the rest is
a bracketed decimal index, and every other text is a plain name.

Two different symbols may share one text: the plain name `a[0]` and element `0`
of the array `a` are written alike, and reading chooses the element.
-/

namespace LieScribe

/-- A named scalar, or one element of a named array. -/
inductive Symbol where
  | named (name : String)
  | element (array : String) (index : Nat)
  deriving DecidableEq, Repr

namespace Symbol

/-- The symbol as it is written in a program. -/
def text : Symbol → String
  | .named name => name
  | .element array index => array ++ "[" ++ Nat.repr index ++ "]"

/-- The name of the variable that holds the symbol: the whole array for an
element. -/
def baseName : Symbol → String
  | .named name => name
  | .element array _ => array

/-- All elements of an array, from index zero on. -/
def array (name : String) (length : Nat) : List Symbol :=
  (List.range length).map (Symbol.element name)

/-! ## Reading -/

/-- Indices are machine words: the first number that is no index. -/
def indexBound : Nat := Nat.pow 2 64

/-- One or more decimal digits. -/
def isNumeral (digits : List Char) : Bool :=
  !digits.isEmpty && digits.all Char.isDigit

theorem isNumeral_toDigits (n : Nat) :
    isNumeral (Nat.toDigits 10 n) = true := by
  have digits : (Nat.toDigits 10 n).all Char.isDigit = true :=
    List.all_eq_true.mpr fun _ member =>
      Nat.isDigit_of_mem_toDigits (by decide) (by decide) member
  simp [isNumeral, digits]

/-- The number that a numeral denotes, when it is an index. -/
def readNumeral? (digits : List Char) : Option Nat :=
  if isNumeral digits && Nat.ofDigitChars 10 digits 0 < indexBound then
    some (Nat.ofDigitChars 10 digits 0)
  else
    none

/-- An index may carry a plus sign. -/
def readIndex? : List Char → Option Nat
  | '+' :: digits => readNumeral? digits
  | digits => readNumeral? digits

/-- An index followed by the closing bracket that ends the text. -/
def readSubscript? (characters : List Char) : Option Nat :=
  if characters.getLast? = some ']' then
    readIndex? characters.dropLast
  else
    none

/-- Read a symbol.  The first opening bracket decides where an array name would
end; a text without array name, or without a proper subscript after the
bracket, is a plain name. -/
def parse (source : String) : Symbol :=
  let name := source.toList.takeWhile (· != '[')
  let subscript := (source.toList.dropWhile (· != '[')).drop 1
  match readSubscript? subscript with
  | some index =>
      if name.isEmpty then
        .named source
      else
        .element (String.ofList name) index
  | none => .named source

/-! ## Order -/

/-- Plain names come before array elements; names are ordered by their
characters, elements by array and then by index. -/
def before : Symbol → Symbol → Bool
  | .named left, .named right => decide (left ≤ right)
  | .named _, .element _ _ => true
  | .element _ _, .named _ => false
  | .element left i, .element right j =>
      if left = right then decide (i ≤ j) else decide (left < right)

/-- The symbols of a list in order, each of them once. -/
def sorted (symbols : List Symbol) : List Symbol :=
  (symbols.mergeSort before).eraseDups

end Symbol

end LieScribe
