/-!
# Middle snakes

A shortest script that turns one list into another is a path through a grid, whose
diagonal steps are free.  Paths of growing length are sent out from both ends;
where they meet, a shortest path can be cut in two.  For each length only the
furthest point on each diagonal matters, and it is found from its neighbours on
the paths one step shorter.
-/

namespace LieScribe.MiddleSnake

/-- The furthest points reached, by diagonal. -/
structure Frontier where
  reach : Array Nat
  offset : Nat

namespace Frontier

/-- Nothing reached, for paths of at most `limit` steps. -/
def empty (limit : Nat) : Frontier :=
  ⟨Array.replicate (2 * limit + 3) 0, limit + 1⟩

def get (frontier : Frontier) (diagonal : Int) : Nat :=
  frontier.reach.getD (diagonal + frontier.offset).toNat 0

def set (frontier : Frontier) (diagonal : Int) (x : Nat) : Frontier :=
  { frontier with
    reach :=
      frontier.reach.setIfInBounds (diagonal + frontier.offset).toNat x }

/-- Where the best path of length `steps` enters a diagonal: down from the next
diagonal or right from the previous one, whichever leads further. -/
def entry (frontier : Frontier) (steps diagonal : Int) : Nat :=
  if diagonal = -steps ||
      (diagonal != steps &&
        frontier.get (diagonal - 1) < frontier.get (diagonal + 1)) then
    frontier.get (diagonal + 1)
  else
    frontier.get (diagonal - 1) + 1

end Frontier

/-- How many lines agree from positions `x` and `y` on, at most `fuel`. -/
def agreement (old new : Array String) : Nat → Nat → Nat → Nat
  | 0, _, _ => 0
  | fuel + 1, x, y =>
      match old[x]?, new[y]? with
      | some left, some right =>
          if left = right then agreement old new fuel (x + 1) (y + 1) + 1 else 0
      | _, _ => 0

/-- A run of free steps, between two points of the grid. -/
structure Snake where
  start : Nat × Nat
  finish : Nat × Nat

/-- Extend the paths on the given diagonals by one step, from the first diagonal to
the last, until one of them meets a path from the other side. -/
def sweep (old new : Array String) (steps : Int) (meets : Int → Nat → Bool) :
    List Int → Frontier → Frontier × Option Snake
  | [], frontier => (frontier, none)
  | diagonal :: others, frontier =>
      let x := frontier.entry steps diagonal
      let y := (x - diagonal).toNat
      let free := agreement old new old.size x y
      let frontier := frontier.set diagonal (x + free)
      if meets diagonal (x + free) then
        (frontier, some ⟨(x, y), (x + free, y + free)⟩)
      else
        sweep old new steps meets others frontier

/-- The diagonals that paths of a given length can end on, from the top down. -/
def diagonals (steps : Nat) : List Int :=
  (List.range (steps + 1)).map fun index : Nat => (steps : Int) - 2 * index

/-- Try lengths from `steps` on, at most `fuel` of them. -/
def search (old new : Array String) :
    Nat → Nat → Frontier → Frontier → Option (Nat × Nat)
  | 0, _, _, _ => none
  | fuel + 1, steps, ahead, behind =>
      let delta : Int := old.size - new.size
      let isOdd := delta % 2 != 0
      let (ahead, met) :=
        sweep old new steps
          (fun diagonal x =>
            isOdd && (diagonal - delta).natAbs + 1 ≤ steps &&
              old.size ≤ x + behind.get (delta - diagonal))
          (diagonals steps) ahead
      match met with
      | some snake => some snake.start
      | none =>
          let (behind, met) :=
            sweep old.reverse new.reverse steps
              (fun diagonal x =>
                !isOdd && (diagonal - delta).natAbs ≤ steps &&
                  old.size ≤ x + ahead.get (delta - diagonal))
              (diagonals steps) behind
          match met with
          | some snake =>
              some (old.size - snake.finish.1, new.size - snake.finish.2)
          | none => search old new fuel (steps + 1) ahead behind

/-- A point in the middle of a shortest path between two lists. -/
def find? (old new : List String) : Option (Nat × Nat) :=
  let limit := (old.length + new.length + 1) / 2 + 1
  search old.toArray new.toArray limit 0 (.empty limit) (.empty limit)

end LieScribe.MiddleSnake
