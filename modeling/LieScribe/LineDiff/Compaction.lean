import LieScribe.LineDiff.Script

/-!
# Compaction

An inserted run can often be moved: lines kept in front of it that agree with its
last lines may as well be inserted, and the last lines kept instead.  Removals
and insertions are moved up and then down as far as they go, past each other and
merging with their own kind, so that changes come to lie together.
-/

namespace LieScribe.Compaction

/-- An edit of a script with the edits before it, nearest first, and after it. -/
structure Focus where
  before : List Edit
  edit : Edit
  after : List Edit
  deriving Repr

/-- Keep more lines at the front of what follows. -/
def keepAhead (lines : List String) : List Edit → List Edit
  | .keep kept :: others => .keep (lines ++ kept) :: others
  | edits => .keep lines :: edits

/-- Keep more lines at the end of what comes before. -/
def keepBehind (lines : List String) : List Edit → List Edit
  | .keep kept :: others => .keep (kept ++ lines) :: others
  | edits => .keep lines :: edits

/-- Move the edit in focus toward the start of the script. -/
def shiftUp (before : List Edit) (edit : Edit) (after : List Edit) : Focus :=
  match before, edit with
  | [], edit => ⟨[], edit, after⟩
  | .keep kept :: others, .insert inserted =>
      let count := commonBack kept inserted
      if count = 0 then
        ⟨.keep kept :: others, .insert inserted, after⟩
      else
        let moved := kept.drop (kept.length - count)
        let rotated :=
          moved ++ inserted.take (inserted.length - count)
        shiftUp (Edit.keeping (kept.take (kept.length - count)) ++ others)
          (.insert rotated) (keepAhead moved after)
  | .keep kept :: others, edit => ⟨.keep kept :: others, edit, after⟩
  | .remove removed :: others, .insert inserted =>
      shiftUp others (.insert inserted) (.remove removed :: after)
  | .insert inserted :: others, .remove removed =>
      shiftUp others (.remove removed) (.insert inserted :: after)
  | .remove removed :: others, .remove more =>
      shiftUp others (.remove (removed ++ more)) after
  | .insert inserted :: others, .insert more =>
      shiftUp others (.insert (inserted ++ more)) after
  | before, .keep kept => ⟨before, .keep kept, after⟩
termination_by Edit.weight before
decreasing_by
  · have bound := commonBack_le_left kept inserted
    have lighter :=
      Edit.weight_keeping_append_le
        (kept.take (kept.length - commonBack kept inserted)) others
    simp only [List.length_take] at lighter
    simp only [Edit.weight_cons, Edit.lines]
    omega
  all_goals simp only [Edit.weight_cons]; omega

/-- Move the edit in focus toward the end of the script. -/
def shiftDown (before : List Edit) (edit : Edit) (after : List Edit) : Focus :=
  match after, edit with
  | [], edit => ⟨before, edit, []⟩
  | .keep kept :: others, .insert inserted =>
      let count := commonFront kept inserted
      if count = 0 then
        ⟨before, .insert inserted, .keep kept :: others⟩
      else
        let moved := kept.take count
        let rotated := inserted.drop count ++ moved
        shiftDown (keepBehind moved before) (.insert rotated)
          (Edit.keeping (kept.drop count) ++ others)
  | .keep kept :: others, edit => ⟨before, edit, .keep kept :: others⟩
  | .remove removed :: others, .insert inserted =>
      shiftDown (.remove removed :: before) (.insert inserted) others
  | .insert inserted :: others, .remove removed =>
      shiftDown (.insert inserted :: before) (.remove removed) others
  | .remove removed :: others, .remove more =>
      shiftDown before (.remove (more ++ removed)) others
  | .insert inserted :: others, .insert more =>
      shiftDown before (.insert (more ++ inserted)) others
  | after, .keep kept => ⟨before, .keep kept, after⟩
termination_by Edit.weight after
decreasing_by
  · have bound := commonFront_le_left kept inserted
    have lighter :=
      Edit.weight_keeping_append_le
        (kept.drop (commonFront kept inserted)) others
    simp only [List.length_drop] at lighter
    simp only [Edit.weight_cons, Edit.lines]
    omega
  all_goals simp only [Edit.weight_cons]; omega

/-- Walk through a script and shift every edit of one kind, up and then down.  The
walk goes on behind the place where an edit came to rest, so as many steps as the
script has edits and lines are enough. -/
def pass (isShifted : Edit → Bool) : Nat → List Edit → List Edit → List Edit
  | 0, before, after => before.reverse ++ after
  | _, before, [] => before.reverse
  | steps + 1, before, edit :: after =>
      if isShifted edit then
        let up := shiftUp before edit after
        let down := shiftDown up.before up.edit up.after
        pass isShifted steps (down.edit :: down.before) down.after
      else
        pass isShifted steps (edit :: before) after

def isRemoval : Edit → Bool
  | .remove _ => true
  | _ => false

def isInsertion : Edit → Bool
  | .insert _ => true
  | _ => false

/-- Shift all removals and then all insertions. -/
def compact (script : List Edit) : List Edit :=
  let shifted := pass isRemoval (Edit.weight script) [] script
  pass isInsertion (Edit.weight shifted) [] shifted

end LieScribe.Compaction
