import LieScribe.Fault
import LieScribe.FileTree.Access
import LieScribe.LineDiff.Report
import LieScribe.Text.Quoted
import LieScribe.Text.Utf8

/-!
# Snapshots

Generated files are kept next to the code that generates them.  A snapshot check
compares a fresh copy with the kept one, file by file and byte by byte, or brings
the kept one up to date.
-/

namespace LieScribe

/-- What is wrong with a snapshot. -/
inductive SnapshotFault where
  /-- Files are missing on one side or the other. -/
  | fileSetMismatch (expected : Path) (onlyActual onlyExpected : List Path)
  /-- A file has other contents. -/
  | contentMismatch (path : Path) (difference : String)
  /-- A file cannot be read or written. -/
  | inaccessible (path : Path) (refusal : Refusal)
  deriving DecidableEq, Repr

namespace SnapshotFault

def message : SnapshotFault → String
  | .fileSetMismatch expected onlyActual onlyExpected =>
      "generated files differ from " ++ Fault.quoted expected.text ++
        ": only generated " ++ Quoted.list (onlyActual.map Path.text) ++
        ", only expected " ++ Quoted.list (onlyExpected.map Path.text) ++
        " (update to accept)"
  | .contentMismatch path difference =>
      Fault.quoted path.text ++
        " does not match generated output (update to accept):\n" ++ difference
  | .inaccessible path refusal => Fault.accessMessage path refusal

end SnapshotFault

namespace Snapshot

/-- Run an access and report its refusal at a path. -/
def accessing {α : Type} (path : Path) (access : Access Refusal α) :
    Access SnapshotFault α :=
  access.reporting (.inaccessible path)

/-- The files at or below a path, relative to it.  There are none if nothing is
there. -/
def filesBelow (tree : FileTree) (path : Path) : List Path :=
  match tree.node path with
  | .ok node => node.files.map Path.ofNames
  | .error _ => []

/-- Make the directories that lead to a path. -/
def makeParents (path : Path) : Access SnapshotFault Unit :=
  match path.parent? with
  | some parent => accessing parent (Access.makeDirectories parent)
  | none => return ()

/-- Store bytes in a file, with the directories that lead to it. -/
def storeFile (path : Path) (data : ByteArray) : Access SnapshotFault Unit := do
  makeParents path
  accessing path (Access.write path data)

/-- Make a text the contents of a file. -/
def updateFile (path : Path) (text : String) : Access SnapshotFault Unit :=
  storeFile path text.toUTF8

/-- Compare a text with the contents of a file. -/
def compareFile (path : Path) (text : String) : Access SnapshotFault Unit := do
  let expected ← accessing path (Access.readText path)
  if expected = text then
    return ()
  else
    throw (.contentMismatch path (LineDiff.report expected text))

/-- Remove files below a path. -/
def removeAll (root : Path) : List Path → Access SnapshotFault Unit
  | [] => return ()
  | file :: others => do
      let path := root.join file
      accessing path (Access.remove path)
      removeAll root others

/-- Copy files from below one path to below another.  A file that cannot be copied
is reported at its source. -/
def copyAll (source target : Path) : List Path → Access SnapshotFault Unit
  | [] => return ()
  | file :: others => do
      let path := target.join file
      makeParents path
      accessing (source.join file) (Access.copy (source.join file) path)
      copyAll source target others

/-- Compare files below two paths and report the first that differs. -/
def compareAll (actual expected : Path) : List Path → Access SnapshotFault Unit
  | [] => return ()
  | file :: others => do
      let actualPath := actual.join file
      let expectedPath := expected.join file
      let generated ← accessing actualPath (Access.read actualPath)
      let kept ← accessing expectedPath (Access.read expectedPath)
      if generated = kept then
        compareAll actual expected others
      else
        throw (.contentMismatch expectedPath
          (LineDiff.report (Utf8.decode kept) (Utf8.decode generated)))

/-- Make the files below `expected` those below `actual`. -/
def updateDirectory (actual expected : Path) : Access SnapshotFault Unit := do
  let tree ← get
  let actualFiles := filesBelow tree actual
  let expectedFiles := filesBelow tree expected
  removeAll expected (expectedFiles.filter (· ∉ actualFiles))
  copyAll actual expected actualFiles

/-- Compare the files below two paths. -/
def compareDirectory (actual expected : Path) : Access SnapshotFault Unit := do
  let tree ← get
  let actualFiles := filesBelow tree actual
  let expectedFiles := filesBelow tree expected
  let onlyActual := actualFiles.filter (· ∉ expectedFiles)
  let onlyExpected := expectedFiles.filter (· ∉ actualFiles)
  if onlyActual.isEmpty && onlyExpected.isEmpty then
    compareAll actual expected actualFiles
  else
    throw (.fileSetMismatch expected onlyActual onlyExpected)

end Snapshot

end LieScribe
