import LieScribe.Expr.WellFormed

/-!
# Requests

A request declares input symbols and asks for output expressions in them.  Its
`Naming` fixes what temporaries are called and whether inputs keep their names or
become the elements of one array.
-/

namespace LieScribe

/-- How the symbols of a program are named. -/
structure Naming where
  /-- Write the inputs as elements of one array, in order of declaration. -/
  linear : Bool
  /-- Temporaries are called by this stem and a number. -/
  stem : String
  /-- The array that holds the inputs. -/
  inputArray : String
  deriving DecidableEq, Repr

namespace Naming

/-- All inputs in one array. -/
def arrayed : Naming :=
  ⟨true, "tmp", "inp"⟩

/-- Inputs under their own names. -/
def named : Naming :=
  ⟨false, "tmp", "inp"⟩

/-- The naming inside the functions of a package. -/
def packaged : Naming :=
  ⟨false, "_tmp", "inp"⟩

/-- The symbol of the temporary at a position. -/
def temporary (naming : Naming) (position : Nat) : Symbol :=
  .named (naming.stem ++ Nat.repr position)

/-- Could the symbol be taken for a temporary? -/
def isReserved (naming : Naming) : Symbol → Bool
  | .named name =>
      naming.stem.toList.isPrefixOf name.toList &&
        Symbol.isNumeral (name.toList.drop naming.stem.toList.length)
  | .element _ _ => false

/-- Each input is declared once and under a name that is not reserved. -/
def checkInputs (naming : Naming) (declared : List Symbol) :
    List Symbol → Except Fault Unit
  | [] => .ok ()
  | symbol :: others =>
      if symbol ∈ declared then
        .error (.duplicateInput symbol)
      else if naming.isReserved symbol then
        .error (.reservedSymbol symbol naming.stem)
      else
        naming.checkInputs (symbol :: declared) others

/-- An output is well formed and uses declared symbols only. -/
def checkOutput (declared : List Symbol) (output : Expr) : Except Fault Unit := do
  output.check
  match output.symbols.find? (· ∉ declared) with
  | some symbol => .error (.undefinedSymbol symbol)
  | none => .ok ()

def checkOutputs (declared : List Symbol) : List Expr → Except Fault Unit
  | [] => .ok ()
  | output :: others => do
      checkOutput declared output
      checkOutputs declared others

/-- Check a whole request and report its first fault. -/
def checkRequest (naming : Naming) (inputs : List Symbol) (outputs : List Expr) :
    Except Fault Unit := do
  naming.checkInputs [] inputs
  checkOutputs inputs outputs

end Naming

end LieScribe
