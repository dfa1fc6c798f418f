/-!
# Target languages

Programs are written for two dialects of Python, which differ in what a quotient
of integers means, and for C++.
-/

namespace LieScribe

inductive Target where
  | python2
  | python3
  | cpp
  deriving DecidableEq, Repr

namespace Target

def all : List Target :=
  [.python2, .python3, .cpp]

def name : Target → String
  | .python2 => "python2"
  | .python3 => "python3"
  | .cpp => "cpp"

def isPython : Target → Bool
  | .python2 | .python3 => true
  | .cpp => false

/-- The extension of source files. -/
def extension : Target → String
  | .python2 | .python3 => "py"
  | .cpp => "h"

/-- The target with a given name, whatever the case of its ASCII letters.  A bare
`python` means the newer dialect. -/
def ofName? (name : String) : Option Target :=
  match String.ofList (name.toList.map Char.toLower) with
  | "python2" => some .python2
  | "python3" | "python" => some .python3
  | "cpp" | "c++" => some .cpp
  | _ => none

end Target

end LieScribe
