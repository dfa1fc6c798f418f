/-!
# Edit scripts

A script leads from a list of old lines to a list of new ones by keeping, removing
and inserting runs of lines.
-/

namespace LieScribe

inductive Edit where
  | keep (lines : List String)
  | remove (lines : List String)
  | insert (lines : List String)
  deriving DecidableEq, Repr

namespace Edit

/-- The old lines that an edit deals with. -/
def old : Edit → List String
  | .keep lines => lines
  | .remove lines => lines
  | .insert _ => []

/-- The new lines that an edit makes. -/
def new : Edit → List String
  | .keep lines => lines
  | .remove _ => []
  | .insert lines => lines

def lines : Edit → List String
  | .keep lines => lines
  | .remove lines => lines
  | .insert lines => lines

/-- The size of a script: its edits and their lines. -/
def weight : List Edit → Nat
  | [] => 0
  | edit :: script => edit.lines.length + 1 + weight script

/-- Keep a run of lines; nothing to keep is no edit. -/
def keeping : List String → List Edit
  | [] => []
  | lines => [.keep lines]

@[simp]
theorem weight_cons (edit : Edit) (script : List Edit) :
    weight (edit :: script) = edit.lines.length + 1 + weight script := rfl

theorem weight_keeping_append_le (lines : List String) (script : List Edit) :
    weight (keeping lines ++ script) ≤ lines.length + 1 + weight script := by
  cases lines <;> simp [keeping, Edit.lines]

end Edit

/-- How many lines two lists have in common at the front. -/
def commonFront : List String → List String → Nat
  | left :: lefts, right :: rights =>
      if left = right then commonFront lefts rights + 1 else 0
  | _, _ => 0

/-- How many lines two lists have in common at the back. -/
def commonBack (left right : List String) : Nat :=
  commonFront left.reverse right.reverse

theorem commonFront_le_left (left right : List String) :
    commonFront left right ≤ left.length := by
  induction left generalizing right with
  | nil => simp [commonFront]
  | cons line others inductionHypothesis =>
      cases right with
      | nil => simp [commonFront]
      | cons line' others' =>
          have shorter := inductionHypothesis others'
          unfold commonFront
          split <;> simp only [List.length_cons] <;> omega

theorem commonBack_le_left (left right : List String) :
    commonBack left right ≤ left.length := by
  simpa [commonBack] using commonFront_le_left left.reverse right.reverse

end LieScribe
