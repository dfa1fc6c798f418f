import LieScribe.FileTree.Access
import LieScribe.Package.Source

/-!
# Writing and loading packages

A package has a directory for each group with a file for each operation.
-/

namespace LieScribe.Package

/-- Run an access and report its refusal at a path. -/
def accessing {α : Type} (path : Path) (access : Access Refusal α) :
    Access Fault α :=
  access.reporting (.inaccessible path)

def directory (root : Path) (group : MotionGroup) : Path :=
  root.join ⟨[group.name]⟩

def initPath (root : Path) (group : MotionGroup) : Path :=
  (directory root group).join ⟨["__init__.py"]⟩

/-- The name of the file of an operation. -/
def fileName (operation : GroupOperation) (target : Target) : String :=
  (if target.isPython then operation.name else operation.capitalName) ++
    "." ++ target.extension

/-- The path of the file of an operation. -/
def filePath (root : Path) (group : MotionGroup) (operation : GroupOperation)
    (target : Target) : Path :=
  (directory root group).join ⟨[fileName operation target]⟩

/-- Write a file and return its path. -/
def writeFile (path : Path) (text : String) : Access Fault Path := do
  accessing path (Access.writeText path text)
  return path

/-- Write the file of an operation. -/
def writeOperation (root : Path) (target : Target) (group : MotionGroup)
    (operation : GroupOperation) : Access Fault Path := do
  let text ← MonadExcept.ofExcept (fileText group operation target)
  writeFile (filePath root group operation target) text

/-- Write the file that makes a directory a package, if the target has one. -/
def writeInit (root : Path) (target : Target) (group : MotionGroup) :
    Access Fault (List Path) := do
  if target.isPython then
    let path ← writeFile (initPath root group) (initText group)
    return [path]
  else
    return []

/-- Write the directory of a group. -/
def writeGroup (root : Path) (target : Target) (group : MotionGroup) :
    Access Fault (List Path) := do
  let directory := directory root group
  accessing directory (Access.makeDirectories directory)
  let init ← writeInit root target group
  let files ← GroupOperation.all.mapM (writeOperation root target group)
  return init ++ files

/-- Write all files of a package and return their paths in order. -/
def write (root : Path) (target : Target) : Access Fault (List Path) := do
  let written ← MotionGroup.all.mapM (writeGroup root target)
  return written.flatten

/-- Load a file as text. -/
def load (path : Path) : Access Fault String :=
  accessing path (Access.readText path)

/-- Load the file of an operation. -/
def loadOperation (root : Path) (group : MotionGroup)
    (operation : GroupOperation) (target : Target) : Access Fault String :=
  load (filePath root group operation target)

end LieScribe.Package
