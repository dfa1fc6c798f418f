/-!
# Lines

A text is cut after each line end: a line feed, a carriage return, or a carriage
return followed by a line feed.  A line keeps its end, so the lines of a text
put together are the text; the last line may have none.
-/

namespace LieScribe.Lines

/-- Put a character in front of the lines that follow it.  It starts a line of its
own if it ends one, except that a carriage return stays with the line feed
behind it. -/
def prepend (c : Char) : List (List Char) → List (List Char)
  | [] => [[c]]
  | line :: others =>
      if c = '\n' then
        [c] :: line :: others
      else if c = '\r' && line.head? != some '\n' then
        [c] :: line :: others
      else
        (c :: line) :: others

/-- The lines of a text. -/
def split (text : String) : List String :=
  (text.toList.foldr prepend []).map String.ofList

/-- Does a line have an end? -/
def isTerminated (line : String) : Bool :=
  match line.toList.getLast? with
  | some '\n' | some '\r' => true
  | _ => false

/-- The line with a line feed if it has no end of its own. -/
def terminated (line : String) : String :=
  if isTerminated line then line else line ++ "\n"

end LieScribe.Lines
