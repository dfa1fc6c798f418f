import LieScribe.Expr.Equality
import LieScribe.Program.Basic
import LieScribe.Program.Request

/-!
# Sharing

A subexpression that is met more than once is computed once and kept in a
temporary.  A first walk from the roots downward collects what is met again; it
does not enter an expression a second time, so what occurs only inside a repeated
expression is not itself repeated.  A second walk from the leaves upward replaces
repeated expressions by temporaries, which puts a temporary after those it uses.
-/

namespace LieScribe

namespace Expr

/-- Is it worth keeping the value?  Atoms are at hand, and so is the negation of an
atom. -/
def isShareable : Expr → Bool
  | .op .neg arguments => !arguments.all isAtom
  | .op _ _ => true
  | _ => false

end Expr

/-- The expressions met so far, and those of them met again. -/
structure Survey where
  seen : List Expr
  repeated : List Expr

namespace Survey

def empty : Survey :=
  ⟨[], []⟩

mutual

def visit (survey : Survey) : Expr → Survey
  | .symbol _ => survey
  | .literal _ => survey
  | .op operation arguments =>
      let expr := Expr.op operation arguments
      if !expr.isShareable then
        survey
      else if expr.memberOf survey.seen then
        { survey with repeated := expr :: survey.repeated }
      else
        visitAll { survey with seen := expr :: survey.seen } arguments

def visitAll (survey : Survey) : List Expr → Survey
  | [] => survey
  | expr :: others => visitAll (visit survey expr) others

end

/-- The repeated expressions of a list of outputs. -/
def repeatedIn (outputs : List Expr) : List Expr :=
  (empty.visitAll outputs).repeated

end Survey

/-- An expression that got a temporary, and the definition of the temporary. -/
structure Hoisted where
  source : Expr
  definition : Expr

namespace Hoisted

/-- The position of the temporary that holds an expression. -/
def position? (hoisted : List Hoisted) (expr : Expr) : Option Nat :=
  hoisted.findIdx? (·.source.same expr)

mutual

/-- Replace the repeated expressions in a tree, given the temporaries made so far,
and return the new tree and all temporaries. -/
def replace (naming : Naming) (repeated : List Expr) :
    Expr → List Hoisted → Expr × List Hoisted
  | .symbol leaf, hoisted => (.symbol leaf, hoisted)
  | .literal constant, hoisted => (.literal constant, hoisted)
  | .op operation arguments, hoisted =>
      let source := Expr.op operation arguments
      match position? hoisted source with
      | some position => (.symbol (naming.temporary position), hoisted)
      | none =>
          let (replaced, hoisted) :=
            replaceAll naming repeated arguments hoisted
          let definition := Expr.op operation replaced
          if source.memberOf repeated then
            (.symbol (naming.temporary hoisted.length),
              hoisted ++ [⟨source, definition⟩])
          else
            (definition, hoisted)

def replaceAll (naming : Naming) (repeated : List Expr) :
    List Expr → List Hoisted → List Expr × List Hoisted
  | [], hoisted => ([], hoisted)
  | expr :: others, hoisted =>
      let (first, hoisted) := replace naming repeated expr hoisted
      let (rest, hoisted) := replaceAll naming repeated others hoisted
      (first :: rest, hoisted)

end

/-- The temporaries, named by their positions. -/
def temporaries (naming : Naming) (hoisted : List Hoisted) : List Temporary :=
  hoisted.zipIdx.map fun entry =>
    ⟨naming.temporary entry.2, entry.1.definition⟩

end Hoisted

namespace Program

/-- The program that computes repeated subexpressions of the outputs once. -/
def shared (naming : Naming) (outputs : List Expr) : Program :=
  let (replaced, hoisted) :=
    Hoisted.replaceAll naming (Survey.repeatedIn outputs) outputs []
  ⟨Hoisted.temporaries naming hoisted, replaced⟩

/-- Replace each input by the element of an array at the position of its
declaration, the last one if it is declared more than once. -/
def linearize (inputs : List Symbol) (array : String) (program : Program) :
    Program :=
  program.substitute
    (Bindings.empty.bindAll (inputs.zip (Expr.array array inputs.length)))

/-- Linearize if the naming asks for it. -/
def arrange (naming : Naming) (inputs : List Symbol) (program : Program) :
    Program :=
  if naming.linear then
    program.linearize inputs naming.inputArray
  else
    program

/-- Check a request and share the repeated subexpressions of its outputs. -/
def share (naming : Naming) (inputs : List Symbol) (outputs : List Expr) :
    Except Fault Program := do
  naming.checkRequest inputs outputs
  return (shared naming outputs).arrange naming inputs

/-- Check a request and compute its outputs as they stand. -/
def plain (naming : Naming) (inputs : List Symbol) (outputs : List Expr) :
    Except Fault Program := do
  naming.checkRequest inputs outputs
  return (ofOutputs outputs).arrange naming inputs

end Program

end LieScribe
