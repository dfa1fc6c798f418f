/-!
# Paths

A path is the list of the segments between its slashes, so that `a//b/` has the
segments `a`, nothing, `b` and nothing.  Its text is kept as it was given; empty
segments and dots are passed over only where a path is followed or shortened.
-/

namespace LieScribe

structure Path where
  segments : List String
  deriving DecidableEq, Repr

namespace Path

def ofText (text : String) : Path :=
  ⟨(text.toList.splitOn '/').map String.ofList⟩

def text (path : Path) : String :=
  String.intercalate "/" path.segments

/-- The path of no text. -/
def empty : Path :=
  ⟨[""]⟩

/-- The path made of plain names. -/
def ofNames : List String → Path
  | [] => empty
  | names => ⟨names⟩

/-- Go on from `base` along `rest`.  The empty path adds nothing in front, a path
that ends in a slash gets no second one. -/
def join (base rest : Path) : Path :=
  if base = empty then
    rest
  else if base.segments.getLast? = some "" then
    ⟨base.segments.dropLast ++ rest.segments⟩
  else
    ⟨base.segments ++ rest.segments⟩

/-- Segments that name no step of their own. -/
def isIdle (segment : String) : Bool :=
  segment == "" || segment == "."

/-- Drop idle segments from the end, but never the first segment: it tells whether
the path starts at the root or at the current directory. -/
def trimIdle : List String → List String
  | [] => []
  | first :: others =>
      first :: (others.reverse.dropWhile isIdle).reverse

/-- The path without its last step, if it has one. -/
def parent? (path : Path) : Option Path :=
  match trimIdle path.segments with
  | [] => none
  | [""] => none
  | [_] => some empty
  | segments =>
      match trimIdle segments.dropLast with
      | [""] => some ⟨["", ""]⟩
      | shorter => some ⟨shorter⟩

/-- Does the path end in a slash? -/
def hasTrailingSlash (path : Path) : Bool :=
  1 < path.segments.length && path.segments.getLast? == some ""

/-- The segments in front of the slashes that end the path. -/
def stem (path : Path) : List String :=
  match path.segments with
  | [] => []
  | first :: others => first :: (others.reverse.dropWhile (· == "")).reverse

end Path

end LieScribe
