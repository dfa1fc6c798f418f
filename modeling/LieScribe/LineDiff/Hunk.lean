import LieScribe.LineDiff.Compaction

/-!
# Hunks

Runs of lines that are the same alternate with places where removed lines give way
to inserted ones.  A hunk is a group of changes that lie close together, with a few
lines of context around them; long unchanged runs separate hunks.
-/

namespace LieScribe

/-- A run of unchanged lines, or removed lines and those in their place. -/
inductive Change where
  | same (lines : List String)
  | differ (removed inserted : List String)
  deriving DecidableEq, Repr

namespace Change

/-- Put an edit in front of changes, joining it with the first of them if they are
of one kind. -/
def prepend : Edit → List Change → List Change
  | .keep lines, .same more :: others => .same (lines ++ more) :: others
  | .keep lines, others => .same lines :: others
  | .remove lines, .differ removed inserted :: others =>
      .differ (lines ++ removed) inserted :: others
  | .remove lines, others => .differ lines [] :: others
  | .insert lines, .differ removed inserted :: others =>
      .differ removed (lines ++ inserted) :: others
  | .insert lines, others => .differ [] lines :: others

def ofScript (script : List Edit) : List Change :=
  script.foldr prepend []

end Change

namespace Hunk

/-- The last lines of a list. -/
def lastLines (count : Nat) (lines : List String) : List String :=
  lines.drop (lines.length - count)

/-- Cut a leading unchanged run down to the context of what follows. -/
def trimFirst (context : Nat) : List Change → List Change
  | .same lines :: others => .same (lastLines context lines) :: others
  | changes => changes

/-- Cut a closing unchanged run down to the context of what comes before. -/
def trimLast (context : Nat) : List Change → List Change
  | [] => []
  | [.same lines] => [.same (lines.take context)]
  | change :: others => change :: trimLast context others

/-- The hunk that changes start with, and the later ones.  An unchanged run longer
than twice the context ends a hunk and starts another. -/
def divide (context : Nat) : List Change → List Change × List (List Change)
  | [] => ([], [])
  | .same lines :: others =>
      let (hunk, later) := divide context others
      if 2 * context < lines.length then
        ([.same (lines.take context)],
          (.same (lastLines context lines) :: hunk) :: later)
      else
        (.same lines :: hunk, later)
  | change :: others =>
      let (hunk, later) := divide context others
      (change :: hunk, later)

/-- A hunk without a change. -/
def isIdle : List Change → Bool
  | [] | [.same _] => true
  | _ => false

/-- Drop the last hunk if nothing changes in it. -/
def dropIdle (hunks : List (List Change)) : List (List Change) :=
  match hunks.getLast? with
  | some hunk => if isIdle hunk then hunks.dropLast else hunks
  | none => hunks

/-- The hunks of a list of changes. -/
def ofChanges (context : Nat) (changes : List Change) : List (List Change) :=
  let (first, later) :=
    divide context (trimLast context (trimFirst context changes))
  dropIdle (first :: later)

end Hunk

end LieScribe
