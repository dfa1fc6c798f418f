import LieScribe.Program.Sharing
import LieScribe.Target.Writing

/-!
# Listings

A listing is a program written in a target language: a text for each temporary,
in the order in which they are computed, and one for each output.
-/

namespace LieScribe

/-- What a listing is made from. -/
structure ListingRequest where
  inputs : List Symbol
  outputs : List Expr
  target : Target
  /-- Compute repeated subexpressions once. -/
  sharing : Bool
  naming : Naming
  deriving Repr

structure Listing where
  temporaries : List (String × String)
  outputs : List String
  totalOps : Nat
  deriving DecidableEq, Repr

namespace ListingRequest

/-- The program that gets written. -/
def program (request : ListingRequest) : Except Fault Program :=
  if request.sharing then
    Program.share request.naming request.inputs request.outputs
  else
    Program.plain request.naming request.inputs request.outputs

end ListingRequest

namespace Listing

/-- The text that a temporary is set to.  Temporaries hold floats, as inputs do;
where variables have no type of their own and quotients of integers are floored,
an integer is converted first. -/
def temporaryText (target : Target) (definition : Expr) :
    Except Fault String := do
  let fragment ← target.write definition
  if target = .python2 && fragment.integer then
    return "float" ++ Fragment.parenthesized fragment.text
  else
    return fragment.text

def temporaryTexts (target : Target) :
    List Temporary → Except Fault (List (String × String))
  | [] => .ok []
  | temporary :: others => do
      let text ← temporaryText target temporary.definition
      let texts ← temporaryTexts target others
      return (temporary.symbol.text, text) :: texts

def outputTexts (target : Target) : List Expr → Except Fault (List String)
  | [] => .ok []
  | output :: others => do
      let text ← target.render output
      let texts ← outputTexts target others
      return text :: texts

/-- Write a program. -/
def ofProgram (target : Target) (program : Program) : Except Fault Listing := do
  let temporaries ← temporaryTexts target program.temporaries
  let outputs ← outputTexts target program.outputs
  return ⟨temporaries, outputs, program.opCount⟩

/-- Write the program of a request. -/
def generate (request : ListingRequest) : Except Fault Listing := do
  let program ← request.program
  ofProgram request.target program

end Listing

end LieScribe
