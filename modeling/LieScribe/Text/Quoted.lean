import LieScribe.Text.Extending
import LieScribe.Text.Unprintable

/-!
# Quoted texts

A text between double quotes.  Quotes and backslashes inside are written as
escapes, and so is every character that would not show up as a mark of its own.
-/

namespace LieScribe.Quoted

/-- Would the character be invisible, or part of the one in front of it? -/
def isHidden (c : Char) : Bool :=
  Extending.contains c || Unprintable.contains c

/-- The character that starts an escape. -/
def backslash : Char := '\x5c'

/-- The character as it stands between quotes. -/
def escape (c : Char) : List Char :=
  match c with
  | '\x22' => [backslash, '\x22']
  | '\x5c' => [backslash, backslash]
  | '\t' => [backslash, 't']
  | '\n' => [backslash, 'n']
  | '\r' => [backslash, 'r']
  | '\x00' => [backslash, '0']
  | _ =>
      if isHidden c then
        [backslash, 'u', '\x7b'] ++ Nat.toDigits 16 c.toNat ++ ['\x7d']
      else
        [c]

def quote (text : String) : String :=
  "\"" ++ String.ofList (text.toList.flatMap escape) ++ "\""

/-- A list of quoted texts between brackets. -/
def list (texts : List String) : String :=
  "[" ++ String.intercalate ", " (texts.map quote) ++ "]"

end LieScribe.Quoted
