import LieScribe.FileTree.Path
import LieScribe.FileTree.Refusal
import LieScribe.Operation
import LieScribe.Symbol
import LieScribe.Target.Basic

/-!
# Faults

Everything that can be wrong with a request, and the message that reports it.
-/

namespace LieScribe

inductive Fault where
  /-- An output uses a symbol that is no input. -/
  | undefinedSymbol (symbol : Symbol)
  /-- An input is declared twice. -/
  | duplicateInput (symbol : Symbol)
  /-- An input has a name that a temporary may get. -/
  | reservedSymbol (symbol : Symbol) (stem : String)
  /-- A target has no text for an operation. -/
  | unsupportedOperation (operation : String) (target : Target)
  /-- An operation has a number of arguments that it does not accept. -/
  | malformedOperation (operation : String) (expected : Arity) (found : Nat)
  /-- No target has this name. -/
  | unknownTarget (name : String)
  /-- A symbol has no value. -/
  | unboundSymbol (symbol : Symbol)
  /-- A function has no meaning to compute with. -/
  | uninterpretedFunction (name : String)
  /-- A group operation is called with the wrong number of values. -/
  | wrongValueCount (operation : String) (expected found : Nat)
  /-- A file cannot be read or written. -/
  | inaccessible (path : Path) (refusal : Refusal)
  deriving DecidableEq, Repr

namespace Fault

/-- Put a text between backquotes. -/
def quoted (text : String) : String :=
  "`" ++ text ++ "`"

/-- The report of a file that cannot be read or written. -/
def accessMessage (path : Path) (refusal : Refusal) : String :=
  "i/o error at " ++ quoted path.text ++ ": " ++ refusal.message

def message : Fault → String
  | .undefinedSymbol symbol =>
      "undefined symbol " ++ quoted symbol.text ++
        ": not among the declared inputs"
  | .duplicateInput symbol =>
      "input symbol " ++ quoted symbol.text ++ " is declared more than once"
  | .reservedSymbol symbol stem =>
      "input symbol " ++ quoted symbol.text ++
        " collides with temporary names " ++ quoted (stem ++ "<n>")
  | .unsupportedOperation operation target =>
      "operation " ++ quoted operation ++ " is not supported in " ++
        target.name ++ " mode"
  | .malformedOperation operation expected found =>
      "malformed " ++ quoted operation ++ " operation: expected " ++
        expected.text ++ " argument(s), found " ++ Nat.repr found
  | .unknownTarget name => "unknown codegen mode " ++ quoted name
  | .unboundSymbol symbol =>
      "evaluation failed: no value bound for " ++ quoted symbol.text
  | .uninterpretedFunction name =>
      "evaluation failed: cannot evaluate uninterpreted function " ++
        quoted name
  | .wrongValueCount operation expected found =>
      "evaluation failed: " ++ operation ++ " takes " ++ Nat.repr expected ++
        " values, got " ++ Nat.repr found
  | .inaccessible path refusal => accessMessage path refusal

end Fault

/-- The target with a given name. -/
def Target.ofName (name : String) : Except Fault Target :=
  match Target.ofName? name with
  | some target => .ok target
  | none => .error (.unknownTarget name)

/-- Does an operation accept this many arguments? -/
def Operation.checkCount (operation : Operation) (found : Nat) :
    Except Fault Unit :=
  if operation.arity.accepts found then
    .ok ()
  else
    .error (.malformedOperation operation.name operation.arity found)

theorem Operation.checkCount_eq_ok_iff {operation : Operation} {found : Nat} :
    operation.checkCount found = .ok () ↔ operation.arity.accepts found = true := by
  rw [Operation.checkCount]
  split <;> simp_all

end LieScribe
