import LieScribe.FileTree.Basic
import Mathlib.Logic.Function.Basic

/-!
# What stands at a location

A location holds a file, a directory or nothing.  This view leaves out what is below a
directory, so that a change at one location is a change of the view at that location only:
`FileTree.occupant_assign_of_leaf`.  Whatever stands somewhere stands in directories.
-/

namespace LieScribe

/-- What stands at a location, without what is below it. -/
inductive Occupant where
  | nothing
  | directory
  | file (data : ByteArray)

namespace Node

/-- A node seen from outside. -/
def occupant : Option Node → Occupant
  | none => .nothing
  | some (.directory _) => .directory
  | some (.file data) => .file data

theorem occupant_eq_nothing_iff {node? : Option Node} :
    occupant node? = .nothing ↔ node? = none := by
  rcases node? with _ | _ | _ <;> simp [occupant]

theorem occupant_eq_directory_iff {node? : Option Node} :
    occupant node? = .directory ↔ ∃ entries, node? = some (.directory entries) := by
  rcases node? with _ | _ | _ <;> simp [occupant]

theorem occupant_some_eq_directory_iff {node : Node} :
    occupant (some node) = .directory ↔ node.isDirectory = true := by
  cases node <;> simp [occupant, isDirectory]

theorem occupant_eq_file_iff {node? : Option Node} {data : ByteArray} :
    occupant node? = .file data ↔ node? = some (.file data) := by
  rcases node? with _ | _ | _ <;> simp [occupant]

/-! ## Entries of a directory -/

theorem entry?_cons (first name : String) (node : Node) (others : List (String × Node)) :
    entry? ((first, node) :: others) name =
      if name = first then some node else entry? others name := by
  by_cases equal : name = first
  · simp [ entry?, equal]
  · have passedOver : (name == first) = false := by simpa using equal
    simp [ entry?, List.lookup_cons, passedOver, equal]

/-- Putting an entry changes what is under its name and nothing else, in whatever order the
entries are. -/
theorem entry?_putEntry (name other : String) (node : Node) (entries : List (String × Node)) :
    entry? (putEntry name node entries) other =
      if other = name then some node else entry? entries other := by
  induction entries with
  | nil =>
      rw [putEntry, entry?_cons]
  | cons entry others inductionHypothesis =>
      obtain ⟨first, present⟩ := entry
      rw [putEntry]
      by_cases sameFirst : name = first
      · subst sameFirst
        rw [if_pos rfl, entry?_cons, entry?_cons]
        by_cases equal : other = name <;> simp [equal]
      · by_cases before : name < first
        · rw [if_neg sameFirst, if_pos before, entry?_cons]
        · rw [if_neg sameFirst, if_neg before, entry?_cons, entry?_cons, inductionHypothesis]
          by_cases equal : other = first
          · simp [equal, Ne.symm sameFirst]
          · simp [equal]

theorem entry?_filter (name other : String) (entries : List (String × Node)) :
    entry? (entries.filter (·.1 != name)) other =
      if other = name then none else entry? entries other := by
  induction entries with
  | nil =>
      simp [ entry?]
  | cons entry others inductionHypothesis =>
      obtain ⟨first, present⟩ := entry
      by_cases cleared : first = name
      · rw [List.filter_cons_of_neg (by simpa using cleared), inductionHypothesis, entry?_cons,
          cleared]
        by_cases equal : other = name <;> simp [equal]
      · rw [List.filter_cons_of_pos (by simpa using cleared), entry?_cons, entry?_cons,
          inductionHypothesis]
        by_cases equal : other = first
        · simp [equal, cleared]
        · simp [equal]

theorem entry?_setEntry (name other : String) (entries : List (String × Node))
    (node? : Option Node) :
    entry? (setEntry name entries node?) other =
      if other = name then node? else entry? entries other := by
  cases node? with
  | none => exact entry?_filter name other entries
  | some node => exact entry?_putEntry name other node entries

/-! ## Locations below a node -/

@[simp]
theorem find?_nil (node : Node) : node.find? [] = some node := by
  cases node <;> rfl

@[simp]
theorem find?_file_cons (data : ByteArray) (name : String) (names : List String) :
    (file data).find? (name :: names) = none := rfl

@[simp]
theorem find?_directory_cons (entries : List (String × Node)) (name : String)
    (names : List String) :
    (directory entries).find? (name :: names) = ( entry? entries name).bind (·.find? names) := by
  rw [find?]
  cases entry? entries name <;> rfl

/-- A location leads on from a location. -/
theorem find?_append (node : Node) (front back : List String) :
    node.find? (front ++ back) = (node.find? front).bind (·.find? back) := by
  induction front generalizing node with
  | nil =>
      simp
  | cons name names inductionHypothesis =>
      cases node with
      | file data =>
          rfl
      | directory entries =>
          simp only [List.cons_append, find?_directory_cons, inductionHypothesis,
            Option.bind_assoc]

/-- A node that is assigned stands, with all that is below it, at its location; everything else
is as before.  The location has to be in a directory. -/
theorem occupant_find?_assign (node? : Option Node) {location : List String}
    {entries : List (String × Node)} (below : location ≠ [])
    (reached : occupant ((directory entries).find? location.dropLast) = .directory)
    (other : List String) :
    occupant ((directory (assign node? location entries)).find? other) =
      if location <+: other then
        occupant (node?.bind (·.find? (other.drop location.length)))
      else
        occupant ((directory entries).find? other) := by
  induction location generalizing entries other with
  | nil =>
      exact absurd rfl below
  | cons name names inductionHypothesis =>
      cases other with
      | nil =>
          simp [occupant]
      | cons first others =>
          cases names with
          | nil =>
              by_cases equal : first = name
              · simp [assign, entry?_setEntry, equal]
              · simp [assign, entry?_setEntry, equal, Ne.symm equal]
          | cons second names =>
              rw [List.dropLast_cons_cons, find?_directory_cons, occupant_eq_directory_iff]
                at reached
              obtain ⟨innermost, reached⟩ := reached
              obtain ⟨node, found, reached⟩ := Option.bind_eq_some_iff.mp reached
              cases node with
              | file data =>
                  cases names <;> simp at reached
              | directory inner =>
                  have deeper := inductionHypothesis (List.cons_ne_nil second names)
                    (occupant_eq_directory_iff.mpr ⟨innermost, reached⟩) others
                  by_cases equal : first = name
                  · subst equal
                    simp only [assign, found, find?_directory_cons, entry?_putEntry, if_true,
                      Option.bind_some, deeper, List.cons_prefix_cons, true_and,
                      List.length_cons, List.drop_succ_cons]
                  · simp [assign, found, entry?_putEntry, equal, Ne.symm equal]

end Node

namespace FileTree

/-- What stands at a location. -/
def occupant (tree : FileTree) (location : List String) : Occupant :=
  Node.occupant (tree.find? location)

variable {tree : FileTree} {location : List String}

@[simp]
theorem occupant_top (tree : FileTree) : tree.occupant [] = .directory := by
  simp [occupant, find?, Node.occupant]

theorem occupant_eq_nothing_iff :
    tree.occupant location = .nothing ↔ tree.find? location = none :=
  Node.occupant_eq_nothing_iff

theorem occupant_eq_directory_iff :
    tree.occupant location = .directory ↔
      ∃ entries, tree.find? location = some (.directory entries) :=
  Node.occupant_eq_directory_iff

theorem occupant_eq_file_iff {data : ByteArray} :
    tree.occupant location = .file data ↔ tree.find? location = some (.file data) :=
  Node.occupant_eq_file_iff

theorem ne_nothing_of_file {data : ByteArray} (isFile : tree.occupant location = .file data) :
    tree.occupant location ≠ .nothing := by
  simp [isFile]

theorem find?_append (tree : FileTree) (front back : List String) :
    tree.find? (front ++ back) = (tree.find? front).bind (·.find? back) :=
  Node.find?_append _ front back

/-- What has something below it is a directory. -/
theorem occupant_eq_directory_of_append {front back : List String} (further : back ≠ [])
    (stands : tree.occupant (front ++ back) ≠ .nothing) :
    tree.occupant front = .directory := by
  rw [Ne, occupant_eq_nothing_iff, find?_append] at stands
  rw [occupant_eq_directory_iff]
  cases found : tree.find? front with
  | none =>
      simp [found] at stands
  | some node =>
      cases node with
      | directory entries =>
          exact ⟨entries, rfl⟩
      | file data =>
          obtain ⟨name, names, rfl⟩ := List.exists_cons_of_ne_nil further
          simp [found] at stands

/-- Directories are in directories. -/
theorem occupant_eq_directory_of_leads {front : List String}
    (isDirectory : tree.occupant location = .directory) (leads : front <+: location) :
    tree.occupant front = .directory := by
  obtain ⟨back, rfl⟩ := leads
  by_cases further : back = []
  · simpa [further] using isDirectory
  · exact occupant_eq_directory_of_append further (by simp [isDirectory])

/-- Nothing is below what is no directory. -/
theorem occupant_dropLast_eq_directory {here names : List String} (someName : names ≠ [])
    (stands : tree.occupant (here ++ names) ≠ .nothing) :
    tree.occupant (here ++ names.dropLast) = .directory := by
  refine occupant_eq_directory_of_append (List.cons_ne_nil (names.getLast someName) []) ?_
  rwa [List.append_assoc, List.dropLast_concat_getLast]

theorem occupant_append_eq_nothing {front back : List String} (further : back ≠ [])
    (noDirectory : tree.occupant front ≠ .directory) :
    tree.occupant (front ++ back) = .nothing :=
  not_not.mp fun stands => noDirectory (occupant_eq_directory_of_append further stands)

/-- A file, an empty directory or nothing, put in place of a file or of nothing, changes one
location. -/
theorem occupant_assign_of_leaf {node? : Option Node} (below : location ≠ [])
    (reached : tree.occupant location.dropLast = .directory)
    (noDirectory : tree.occupant location ≠ .directory)
    (leaf : ∀ names, names ≠ [] → node?.bind (·.find? names) = none) :
    (tree.assign location node?).occupant =
      Function.update tree.occupant location (Node.occupant node?) := by
  funext other
  have assigned : (tree.assign location node?).occupant other = _ :=
    Node.occupant_find?_assign node? below reached other
  rw [assigned, Function.update_apply]
  by_cases leads : location <+: other
  · obtain ⟨back, rfl⟩ := leads
    by_cases further : back = []
    · simp [further]
    · have apart : location ++ back ≠ location := by simpa using further
      rw [if_pos (List.prefix_append location back), if_neg apart, List.drop_left,
        leaf back further, occupant_append_eq_nothing further noDirectory, Node.occupant]
  · have apart : other ≠ location := by
      rintro rfl
      exact leads (List.prefix_refl other)
    rw [if_neg leads, if_neg apart]
    rfl

end FileTree

end LieScribe
