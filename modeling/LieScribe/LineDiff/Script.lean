import LieScribe.LineDiff.Edit
import LieScribe.LineDiff.MiddleSnake

/-!
# Shortest scripts

Lines that agree at both ends are kept.  What is left is cut at a middle snake and
each half is treated in the same way.
-/

namespace LieScribe.Script

/-- A place where two lists can be cut so that both halves are smaller. -/
structure Cut (old new : List String) where
  x : Nat
  y : Nat
  x_le : x ≤ old.length
  y_le : y ≤ new.length
  pos : 0 < x + y
  lt : x + y < old.length + new.length

/-- The cut at a middle snake. -/
def cut? (old new : List String) : Option (Cut old new) :=
  match MiddleSnake.find? old new with
  | some (x, y) =>
      if inside : x ≤ old.length ∧ y ≤ new.length ∧ 0 < x + y ∧
          x + y < old.length + new.length then
        some ⟨x, y, inside.1, inside.2.1, inside.2.2.1, inside.2.2.2⟩
      else
        none
  | none => none

/-- A shortest script from the old lines to the new ones. -/
def between (old new : List String) : List Edit :=
  let front := commonFront old new
  let oldRest := old.drop front
  let newRest := new.drop front
  let back := commonBack oldRest newRest
  let oldCore := oldRest.take (oldRest.length - back)
  let newCore := newRest.take (newRest.length - back)
  let core :=
    match oldCore, newCore with
    | [], [] => []
    | removed, [] => [.remove removed]
    | [], inserted => [.insert inserted]
    | removed, inserted =>
        match cut? oldCore newCore with
        | some cut =>
            between (oldCore.take cut.x) (newCore.take cut.y) ++
              between (oldCore.drop cut.x) (newCore.drop cut.y)
        | none => [.remove removed, .insert inserted]
  Edit.keeping (old.take front) ++ core ++
    Edit.keeping (oldRest.drop (oldRest.length - back))
termination_by old.length + new.length
decreasing_by
  all_goals
    have coreOld : oldCore.length ≤ old.length := by
      simp only [oldCore, oldRest, List.length_take, List.length_drop]
      omega
    have coreNew : newCore.length ≤ new.length := by
      simp only [newCore, newRest, List.length_take, List.length_drop]
      omega
    have inside := cut.x_le
    have inside' := cut.y_le
    have positive := cut.pos
    have smaller := cut.lt
    simp only [List.length_take, List.length_drop]
    omega

end LieScribe.Script
