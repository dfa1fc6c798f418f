import LieScribe.LineDiff.Hunk
import LieScribe.Text.Lines

/-!
# Diff reports

The difference of two texts, line by line: a line is marked as removed, inserted
or unchanged, hunks are separated by dots, and three unchanged lines are shown
around each change.
-/

namespace LieScribe.LineDiff

/-- The number of unchanged lines shown around a change. -/
def context : Nat := 3

/-- Lines with a mark in front of each, every one with a line end. -/
def marked (mark : String) (lines : List String) : String :=
  String.join (lines.map fun line => mark ++ Lines.terminated line)

def changeText : Change → String
  | .same lines => marked " " lines
  | .differ removed inserted => marked "-" removed ++ marked "+" inserted

def hunkText (hunk : List Change) : String :=
  String.join (hunk.map changeText)

/-- The changes between two texts. -/
def changes (expected actual : String) : List Change :=
  Change.ofScript
    (Compaction.compact
      (Script.between (Lines.split expected) (Lines.split actual)))

/-- The report on how `actual` differs from `expected`; equal texts have none. -/
def report (expected actual : String) : String :=
  String.intercalate "...\n"
    ((Hunk.ofChanges context (changes expected actual)).map hunkText)

end LieScribe.LineDiff
