/-!
# File trees

A directory holds files and directories under distinct names, ordered by name.  A
location is the list of names that leads to a file or directory from the top.
-/

namespace LieScribe

inductive Node where
  | file (data : ByteArray)
  | directory (entries : List (String × Node))

namespace Node

def isDirectory : Node → Bool
  | .directory _ => true
  | .file _ => false

/-- What a directory holds under a name. -/
def entry? (entries : List (String × Node)) (name : String) : Option Node :=
  entries.lookup name

/-- Put a node under a name, in place of what the directory held there. -/
def putEntry (name : String) (node : Node) :
    List (String × Node) → List (String × Node)
  | [] => [(name, node)]
  | (other, present) :: others =>
      if name = other then
        (name, node) :: others
      else if name < other then
        (name, node) :: (other, present) :: others
      else
        (other, present) :: putEntry name node others

/-- Put a node under a name, or clear it. -/
def setEntry (name : String) (entries : List (String × Node)) :
    Option Node → List (String × Node)
  | some node => putEntry name node entries
  | none => entries.filter (·.1 != name)

/-- The node at a location below another one. -/
def find? : Node → List String → Option Node
  | node, [] => some node
  | .file _, _ :: _ => none
  | .directory entries, name :: names =>
      match entry? entries name with
      | some node => node.find? names
      | none => none

/-- Put a node at a location below a directory, or clear it.  The directories on the
way have to be there. -/
def assign (node? : Option Node) :
    List String → List (String × Node) → List (String × Node)
  | [], entries => entries
  | [name], entries => setEntry name entries node?
  | name :: names, entries =>
      match entry? entries name with
      | some (.directory inner) =>
          putEntry name (.directory (assign node? names inner)) entries
      | _ => entries

mutual

/-- The locations of all files at or below a node, each directory in order of
names. -/
def files : Node → List (List String)
  | .file _ => [[]]
  | .directory entries => filesIn entries

def filesIn : List (String × Node) → List (List String)
  | [] => []
  | (name, node) :: others => node.files.map (name :: ·) ++ filesIn others

end

end Node

/-- A tree of files; the top is a directory. -/
structure FileTree where
  entries : List (String × Node)

namespace FileTree

def empty : FileTree :=
  ⟨[]⟩

def find? (tree : FileTree) (names : List String) : Option Node :=
  (Node.directory tree.entries).find? names

def assign (tree : FileTree) (names : List String) (node? : Option Node) :
    FileTree :=
  ⟨Node.assign node? names tree.entries⟩

end FileTree

end LieScribe
