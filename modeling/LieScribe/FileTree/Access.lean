import LieScribe.FileTree.Basic
import LieScribe.FileTree.Path
import LieScribe.FileTree.Refusal

/-!
# Access to a file tree

Reading and changing a tree through paths, with the refusals of a file system.
What an action changed before it was refused stays changed.
-/

namespace LieScribe

namespace FileTree

/-- The most bytes that a name may have. -/
def nameLimit : Nat := 255

/-- The most bytes that a path may have. -/
def pathLimit : Nat := 4095

/-- Follow segments from the location of a directory.  Each step, an idle one too,
needs a directory to start from; the place it leads to need not exist. -/
def follow (tree : FileTree) :
    List String → List String → Except Refusal (List String)
  | here, [] => .ok here
  | here, segment :: others =>
      match tree.find? here with
      | none => .error .notFound
      | some (.file _) => .error .notDirectory
      | some (.directory _) =>
          if Path.isIdle segment then
            tree.follow here others
          else if segment = ".." then
            tree.follow here.dropLast others
          else if nameLimit < segment.utf8ByteSize then
            .error .tooLong
          else
            tree.follow (here ++ [segment]) others

/-- Turn down what is wrong with a path before it is followed.  The empty path
leads nowhere. -/
def checkPath (path : Path) : Except Refusal Unit :=
  if path.segments.any (·.toList.contains '\x00') then
    .error .endsInside
  else if path.segments = [] || path = Path.empty then
    .error .notFound
  else if pathLimit < path.text.utf8ByteSize then
    .error .tooLong
  else
    .ok ()

/-- The location that a path leads to from the top. -/
def locate (tree : FileTree) (path : Path) : Except Refusal (List String) := do
  checkPath path
  tree.follow [] path.segments

/-- The location that a path leads to if the slashes at its end are left out. -/
def locateStem (tree : FileTree) (path : Path) :
    Except Refusal (List String) := do
  checkPath path
  tree.follow [] path.stem

/-- The file or directory that a path names. -/
def node (tree : FileTree) (path : Path) : Except Refusal Node := do
  let location ← tree.locate path
  match tree.find? location with
  | some node => .ok node
  | none => .error .notFound

/-- Does a path name a file or directory? -/
def isPresent (tree : FileTree) (path : Path) : Bool :=
  match tree.node path with
  | .ok _ => true
  | .error _ => false

/-- Does a path name a directory? -/
def isDirectory (tree : FileTree) (path : Path) : Bool :=
  match tree.node path with
  | .ok node => node.isDirectory
  | .error _ => false

/-- The bytes of a file. -/
def data (tree : FileTree) (path : Path) : Except Refusal ByteArray := do
  match ← tree.node path with
  | .file data => .ok data
  | .directory _ => .error .isDirectory

/-- The text of a file. -/
def textOf (tree : FileTree) (path : Path) : Except Refusal String := do
  let data ← tree.data path
  match String.fromUTF8? data with
  | some text => .ok text
  | none => .error .notText

/-- Is there a file to copy? -/
def checkCopyable (tree : FileTree) (path : Path) : Except Refusal Unit := do
  match ← tree.node path with
  | .file _ => .ok ()
  | .directory _ => .error .notCopyable

/-- The tree with a file written.  A path that ends in a slash names no file. -/
def withFile (tree : FileTree) (path : Path) (data : ByteArray) :
    Except Refusal FileTree := do
  let location ← tree.locateStem path
  if path.hasTrailingSlash then
    .error .isDirectory
  else
    match tree.find? location with
    | some (.directory _) => .error .isDirectory
    | _ => .ok (tree.assign location (some (.file data)))

/-- The tree without a file. -/
def withoutFile (tree : FileTree) (path : Path) : Except Refusal FileTree := do
  let location ← tree.locateStem path
  match tree.find? location with
  | none => .error .notFound
  | some (.directory _) => .error .isDirectory
  | some (.file _) =>
      if path.hasTrailingSlash then
        .error .notDirectory
      else
        .ok (tree.assign location none)

/-- The tree with a new empty directory. -/
def withDirectory (tree : FileTree) (path : Path) : Except Refusal FileTree := do
  let location ← tree.locateStem path
  match tree.find? location with
  | some _ => .error .occupied
  | none => .ok (tree.assign location (some (.directory [])))

/-- The tree with a directory, unless it is there already. -/
def withDirectoryOnce (tree : FileTree) (path : Path) :
    Except Refusal FileTree :=
  match tree.withDirectory path with
  | .ok changed => .ok changed
  | .error refusal => if tree.isDirectory path then .ok tree else .error refusal

end FileTree

/-- An action on a file tree that may be refused. -/
abbrev Access (ε α : Type) := EStateM ε FileTree α

namespace Access

/-- Look at the tree. -/
def query {α : Type} (look : FileTree → Except Refusal α) : Access Refusal α :=
  fun tree =>
    match look tree with
    | .ok value => .ok value tree
    | .error refusal => .error refusal tree

/-- Change the tree. -/
def change (update : FileTree → Except Refusal FileTree) : Access Refusal Unit :=
  fun tree =>
    match update tree with
    | .ok changed => .ok () changed
    | .error refusal => .error refusal tree

def read (path : Path) : Access Refusal ByteArray :=
  query (·.data path)

def readText (path : Path) : Access Refusal String :=
  query (·.textOf path)

def write (path : Path) (data : ByteArray) : Access Refusal Unit :=
  change (·.withFile path data)

def writeText (path : Path) (text : String) : Access Refusal Unit :=
  write path text.toUTF8

def remove (path : Path) : Access Refusal Unit :=
  change (·.withoutFile path)

/-- Make a directory and the directories that lead to it, with at most `steps` of
them missing. -/
def makeDirectoriesWithin : Nat → Path → Access Refusal Unit
  | 0, path => change (·.withDirectoryOnce path)
  | steps + 1, path => fun tree =>
      if path = Path.empty then
        .ok () tree
      else
        match tree.withDirectory path with
        | .ok changed => .ok () changed
        | .error .notFound =>
            match path.parent? with
            | some parent =>
                (do
                  makeDirectoriesWithin steps parent
                  change (·.withDirectoryOnce path)) tree
            | none => .error .notFound tree
        | .error refusal =>
            if tree.isDirectory path then .ok () tree else .error refusal tree

/-- Make a directory and the directories that lead to it. -/
def makeDirectories (path : Path) : Access Refusal Unit :=
  makeDirectoriesWithin path.segments.length path

/-- Copy a file.  The target is cleared before the source is read, so a file copied
onto itself is lost. -/
def copy (source target : Path) : Access Refusal Unit := do
  query (·.checkCopyable source)
  write target ByteArray.empty
  write target (← read source)

/-- Report refusals by a fault. -/
def reporting {ε α : Type} (fault : Refusal → ε) (access : Access Refusal α) :
    Access ε α :=
  EStateM.adaptExcept fault access

end Access

end LieScribe
