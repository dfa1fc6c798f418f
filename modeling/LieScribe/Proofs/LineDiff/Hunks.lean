import LieScribe.LineDiff.Hunk
import LieScribe.Proofs.LineDiff.Scripts

/-!
# Marked lines

Changes and hunks are lists of lines, each with a mark (`MarkedLine`).  Grouping changes into
hunks leaves out unchanged lines and nothing else (`MarkedLine.Abridges`), so what is removed and
what is inserted can be read off the hunks.
-/

namespace LieScribe

inductive Mark where
  | same
  | removed
  | inserted
  deriving DecidableEq, Repr

/-- A line that is kept, removed or inserted. -/
structure MarkedLine where
  mark : Mark
  line : String
  deriving DecidableEq, Repr

namespace MarkedLine

/-- Lines with the same mark. -/
def run (mark : Mark) (lines : List String) : List MarkedLine :=
  lines.map (MarkedLine.mk mark)

/-- The lines whose mark meets a condition. -/
def select (wanted : Mark → Bool) (marked : List MarkedLine) : List String :=
  (marked.filter fun line => wanted line.mark).map MarkedLine.line

variable {wanted : Mark → Bool}

@[simp]
theorem select_nil : select wanted [] = [] := rfl

@[simp]
theorem select_append (front back : List MarkedLine) :
    select wanted (front ++ back) = select wanted front ++ select wanted back := by
  simp [select]

theorem select_cons (line : MarkedLine) (others : List MarkedLine) :
    select wanted (line :: others) =
      if wanted line.mark then line.line :: select wanted others else select wanted others := by
  simp only [select, List.filter_cons]
  split <;> rfl

@[simp]
theorem select_run (mark : Mark) (lines : List String) :
    select wanted (run mark lines) = if wanted mark then lines else [] := by
  induction lines with
  | nil => simp [run]
  | cons line others inductionHypothesis =>
      rw [run, List.map_cons, select_cons, ← run, inductionHypothesis]
      split <;> rfl

/-! ## Both sides of a list of marked lines -/

/-- The lines of one side: the unchanged ones and those with the mark of the side. -/
def side (own : Mark) (marked : List MarkedLine) : List String :=
  select (fun mark => mark == .same || mark == own) marked

/-- The old lines and the new ones. -/
def ends (marked : List MarkedLine) : List String × List String :=
  (side .removed marked, side .inserted marked)

/-- `shown` is `whole` with some of the unchanged lines left out. -/
inductive Abridges : List MarkedLine → List MarkedLine → Prop
  | nil : Abridges [] []
  | cons (line : MarkedLine) {shown whole : List MarkedLine} :
      Abridges shown whole → Abridges (line :: shown) (line :: whole)
  | skip (line : String) {shown whole : List MarkedLine} :
      Abridges shown whole → Abridges shown (⟨.same, line⟩ :: whole)

namespace Abridges

variable {shown whole : List MarkedLine}

theorem refl (whole : List MarkedLine) : Abridges whole whole := by
  induction whole with
  | nil => exact .nil
  | cons line others inductionHypothesis => exact .cons line inductionHypothesis

theorem trans {least : List MarkedLine} (first : Abridges least shown)
    (second : Abridges shown whole) : Abridges least whole := by
  induction second generalizing least with
  | nil => exact first
  | cons line _ inductionHypothesis =>
      cases first with
      | cons line first => exact .cons line (inductionHypothesis first)
      | skip line first => exact .skip line (inductionHypothesis first)
  | skip line _ inductionHypothesis => exact .skip line (inductionHypothesis first)

theorem append {shown' whole' : List MarkedLine} (front : Abridges shown whole)
    (back : Abridges shown' whole') : Abridges (shown ++ shown') (whole ++ whole') := by
  induction front with
  | nil => exact back
  | cons line _ inductionHypothesis => exact .cons line inductionHypothesis
  | skip line _ inductionHypothesis => exact .skip line inductionHypothesis

theorem subset (abridges : Abridges shown whole) : shown ⊆ whole := by
  induction abridges with
  | nil => exact List.Subset.refl _
  | cons line _ inductionHypothesis => exact List.cons_subset_cons line inductionHypothesis
  | skip line _ inductionHypothesis => exact List.subset_cons_of_subset _ inductionHypothesis

end Abridges

end MarkedLine

open MarkedLine

/-! ## Changes -/

namespace Change

/-- The lines of a change, the removed ones first. -/
def marked : Change → List MarkedLine
  | .same lines => run .same lines
  | .differ removed inserted => run .removed removed ++ run .inserted inserted

/-- The lines of a list of changes. -/
def allMarked (changes : List Change) : List MarkedLine :=
  changes.flatMap marked

@[simp]
theorem allMarked_nil : allMarked [] = [] := rfl

end Change

/-! ## Hunks -/

namespace Hunk

open Change

end Hunk

end LieScribe
