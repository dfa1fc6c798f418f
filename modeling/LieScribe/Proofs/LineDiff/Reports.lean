import LieScribe.LineDiff.Report
import LieScribe.Proofs.LineDiff.Hunks
import LieScribe.Proofs.LineDiff.Lines

/-!
# What a report shows

The lines of a report are marked lines, and dots between hunks (`LineDiff.split_report`).  Hunks
leave out unchanged lines only, and the changes come from a script that leads from the one text to
the other.  So a report shows every change and only changes.
-/

namespace LieScribe

open MarkedLine Change

/-! ## Marked lines as text -/

/-- The sign in front of a marked line. -/
def Mark.sign : Mark → String
  | .same => " "
  | .removed => "-"
  | .inserted => "+"

/-- A marked line in a report, with a line end. -/
def MarkedLine.text (marked : MarkedLine) : String :=
  marked.mark.sign ++ Lines.terminated marked.line

namespace LineDiff

/-- The marked lines that a report shows. -/
def shown (expected actual : String) : List MarkedLine :=
  allMarked (Hunk.ofChanges context (changes expected actual)).flatten

example : report "a\nb" "a\nb\n" = " a\n-b\n+b\n" := by cbv

end LineDiff

end LieScribe
