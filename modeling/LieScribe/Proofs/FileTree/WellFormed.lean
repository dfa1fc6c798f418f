import LieScribe.FileTree.Access
import LieScribe.Proofs.FileTree.Occupants
import Mathlib.Data.List.Sort
import Mathlib.Data.String.Basic

/-!
# Well-formed trees and the walk through them

The directories of a file system hold names that can be written in a path, in order and without
repetition.  Through such a tree a walk meets every file once (`Node.mem_files_iff`), in the
order of locations that compares names from the top (`Node.pairwise_files`).  So the files that
are met tell the order in which they are met.
-/

namespace LieScribe

/-- The names that a directory can hold. -/
structure IsName (name : String) : Prop where
  notIdle : Path.isIdle name = false
  notUp : name ≠ ".."
  short : name.utf8ByteSize ≤ FileTree.nameLimit
  endless : '\x00' ∉ name.toList

instance (name : String) : Decidable (IsName name) :=
  decidable_of_iff
    (Path.isIdle name = false ∧ name ≠ ".." ∧ name.utf8ByteSize ≤ FileTree.nameLimit ∧
      '\x00' ∉ name.toList)
    ⟨fun ⟨notIdle, notUp, short, endless⟩ => ⟨notIdle, notUp, short, endless⟩,
      fun isName => ⟨isName.notIdle, isName.notUp, isName.short, isName.endless⟩⟩

namespace Node

/-- Every directory holds names of entries, in order. -/
inductive WellFormed : Node → Prop
  | file (data : ByteArray) : WellFormed (.file data)
  | directory {entries : List (String × Node)}
      (ordered : entries.Pairwise fun entry later => entry.1 < later.1)
      (names : ∀ entry ∈ entries, IsName entry.1)
      (inner : ∀ entry ∈ entries, WellFormed entry.2) : WellFormed (.directory entries)

theorem wellFormed_file (data : ByteArray) : (file data).WellFormed :=
  .file data

theorem wellFormed_directory_iff {entries : List (String × Node)} :
    (directory entries).WellFormed ↔
      (entries.Pairwise fun entry later => entry.1 < later.1) ∧
        (∀ entry ∈ entries, IsName entry.1) ∧ ∀ entry ∈ entries, entry.2.WellFormed := by
  constructor
  · rintro (_ | ⟨ordered, names, inner⟩)
    exact ⟨ordered, names, inner⟩
  · rintro ⟨ordered, names, inner⟩
    exact .directory ordered names inner

mutual

def decideWellFormed : (node : Node) → Decidable node.WellFormed
  | .file data => isTrue (.file data)
  | .directory entries =>
      have := decideInner entries
      decidable_of_iff _ wellFormed_directory_iff.symm

def decideInner :
    (entries : List (String × Node)) → Decidable (∀ entry ∈ entries, entry.2.WellFormed)
  | [] => isTrue (List.forall_mem_nil _)
  | (_, node) :: others =>
      have := decideWellFormed node
      have := decideInner others
      decidable_of_iff _ List.forall_mem_cons.symm

end

instance : DecidablePred WellFormed :=
  decideWellFormed

theorem entry?_eq_some_iff {entries : List (String × Node)}
    (ordered : entries.Pairwise fun entry later => entry.1 < later.1)
    {name : String} {node : Node} :
    entry? entries name = some node ↔ (name, node) ∈ entries := by
  induction entries with
  | nil =>
      simp [ entry?]
  | cons entry others inductionHypothesis =>
      obtain ⟨first, present⟩ := entry
      obtain ⟨before, ordered⟩ := List.pairwise_cons.mp ordered
      rw [entry?_cons, List.mem_cons, Prod.mk.injEq]
      by_cases equal : name = first
      · subst equal
        have absent : (name, node) ∉ others := fun later =>
          lt_irrefl name (before (name, node) later)
        simp [absent, eq_comm]
      · simp [equal, inductionHypothesis ordered]

/-! ## The walk -/

theorem filesIn_eq_flatMap (entries : List (String × Node)) :
    filesIn entries = entries.flatMap fun entry => entry.2.files.map (entry.1 :: ·) := by
  induction entries with
  | nil =>
      rfl
  | cons entry others inductionHypothesis =>
      rw [filesIn, inductionHypothesis, List.flatMap_cons]

/-- A walk through a directory meets what the walks through its entries meet. -/
theorem mem_files_directory_iff {entries : List (String × Node)} {location : List String} :
    location ∈ (directory entries).files ↔
      ∃ entry ∈ entries, ∃ names ∈ entry.2.files, entry.1 :: names = location := by
  rw [files, filesIn_eq_flatMap]
  simp only [List.mem_flatMap, List.mem_map]

/-- The walk meets exactly the files. -/
theorem mem_files_iff {node : Node} (wellFormed : node.WellFormed) {location : List String} :
    location ∈ node.files ↔ ∃ data, node.find? location = some (.file data) := by
  induction wellFormed generalizing location with
  | file data =>
      cases location <;> simp [files]
  | @directory entries ordered _ _ inductionHypothesis =>
      rw [mem_files_directory_iff]
      constructor
      · rintro ⟨⟨name, node⟩, member, names, met, rfl⟩
        rw [find?_directory_cons, (entry?_eq_some_iff ordered).mpr member]
        exact (inductionHypothesis _ member).mp met
      · rintro ⟨data, found⟩
        cases location with
        | nil =>
            simp at found
        | cons name names =>
            rw [find?_directory_cons, Option.bind_eq_some_iff] at found
            obtain ⟨node, isEntry, found⟩ := found
            have member := (entry?_eq_some_iff ordered).mp isEntry
            exact ⟨(name, node), member, names,
              (inductionHypothesis _ member).mpr ⟨data, found⟩, rfl⟩

/-- The walk goes through the locations in order. -/
theorem pairwise_files {node : Node} (wellFormed : node.WellFormed) :
    node.files.Pairwise (· < ·) := by
  induction wellFormed with
  | file data =>
      exact List.pairwise_singleton _ _
  | directory ordered _ _ inductionHypothesis =>
      rw [files, filesIn_eq_flatMap, List.pairwise_flatMap]
      constructor
      · intro entry member
        rw [List.pairwise_map]
        exact (inductionHypothesis entry member).imp fun before => List.Lex.cons before
      · apply ordered.imp
        rintro entry later before location met other metLater
        obtain ⟨names, -, rfl⟩ := List.mem_map.mp met
        obtain ⟨others, -, rfl⟩ := List.mem_map.mp metLater
        exact List.Lex.rel before

/-! ## What stays well-formed -/

theorem mem_putEntry {name : String} {node : Node} {entries : List (String × Node)}
    {entry : String × Node} (member : entry ∈ putEntry name node entries) :
    entry = (name, node) ∨ entry ∈ entries := by
  induction entries with
  | nil =>
      exact .inl (List.mem_singleton.mp member)
  | cons first others inductionHypothesis =>
      obtain ⟨other, present⟩ := first
      rw [putEntry] at member
      split_ifs at member with equal before
      · exact (List.mem_cons.mp member).imp_right (List.mem_cons_of_mem _)
      · exact List.mem_cons.mp member
      · rcases List.mem_cons.mp member with isFirst | later
        · exact .inr (isFirst ▸ List.mem_cons_self)
        · exact (inductionHypothesis later).imp_right (List.mem_cons_of_mem _)

theorem pairwise_putEntry {name : String} {node : Node} {entries : List (String × Node)}
    (ordered : entries.Pairwise fun entry later => entry.1 < later.1) :
    (putEntry name node entries).Pairwise fun entry later => entry.1 < later.1 := by
  induction entries with
  | nil =>
      exact List.pairwise_singleton _ _
  | cons first others inductionHypothesis =>
      obtain ⟨other, present⟩ := first
      obtain ⟨firstBefore, othersOrdered⟩ := List.pairwise_cons.mp ordered
      rw [putEntry]
      split_ifs with equal before
      · exact List.pairwise_cons.mpr ⟨equal ▸ firstBefore, othersOrdered⟩
      · refine List.pairwise_cons.mpr ⟨fun entry member => ?_, ordered⟩
        rcases List.mem_cons.mp member with rfl | later
        · exact before
        · exact lt_trans before (firstBefore entry later)
      · refine List.pairwise_cons.mpr ⟨fun entry member => ?_, inductionHypothesis othersOrdered⟩
        rcases mem_putEntry member with rfl | present
        · exact lt_of_le_of_ne (not_lt.mp before) (Ne.symm equal)
        · exact firstBefore entry present

namespace WellFormed

theorem putEntry {name : String} {node : Node} {entries : List (String × Node)}
    (wellFormed : (Node.directory entries).WellFormed) (isName : IsName name)
    (nodeWellFormed : node.WellFormed) :
    (Node.directory (Node.putEntry name node entries)).WellFormed := by
  cases wellFormed with
  | directory ordered names inner =>
      refine .directory (pairwise_putEntry ordered) (fun entry member => ?_)
        (fun entry member => ?_)
      · rcases mem_putEntry member with rfl | present
        · exact isName
        · exact names entry present
      · rcases mem_putEntry member with rfl | present
        · exact nodeWellFormed
        · exact inner entry present

theorem setEntry {name : String} {node? : Option Node} {entries : List (String × Node)}
    (wellFormed : (Node.directory entries).WellFormed) (isName : IsName name)
    (nodeWellFormed : ∀ node ∈ node?, node.WellFormed) :
    (Node.directory (Node.setEntry name entries node?)).WellFormed := by
  cases node? with
  | some node =>
      exact wellFormed.putEntry isName (nodeWellFormed node rfl)
  | none =>
      cases wellFormed with
      | directory ordered names inner =>
          exact .directory (ordered.filter _)
            (fun entry member => names entry (List.mem_of_mem_filter member))
            (fun entry member => inner entry (List.mem_of_mem_filter member))

theorem inner_of_lookup {entries : List (String × Node)} {name : String} {node : Node}
    (wellFormed : (Node.directory entries).WellFormed) (isEntry : entry? entries name = some node) :
    IsName name ∧ node.WellFormed := by
  cases wellFormed with
  | directory ordered names inner =>
      have member := (entry?_eq_some_iff ordered).mp isEntry
      exact ⟨names _ member, inner _ member⟩

theorem assign {node? : Option Node} {location : List String}
    {entries : List (String × Node)} (wellFormed : (Node.directory entries).WellFormed)
    (names : ∀ name ∈ location, IsName name)
    (nodeWellFormed : ∀ node ∈ node?, node.WellFormed) :
    (Node.directory (Node.assign node? location entries)).WellFormed := by
  fun_induction Node.assign node? location entries with
  | case1 =>
      exact wellFormed
  | case2 name entries =>
      exact wellFormed.setEntry (names name List.mem_cons_self) nodeWellFormed
  | case3 name others entries _ inner isEntry inductionHypothesis =>
      obtain ⟨isName, innerWellFormed⟩ := wellFormed.inner_of_lookup isEntry
      exact wellFormed.putEntry isName (inductionHypothesis innerWellFormed
        fun other member => names other (List.mem_cons_of_mem name member))
  | case4 =>
      exact wellFormed

/-- What is found in a well-formed tree is well-formed and found under names. -/
theorem of_find? {node inner : Node} {location : List String} (wellFormed : node.WellFormed)
    (found : node.find? location = some inner) :
    (∀ name ∈ location, IsName name) ∧ inner.WellFormed := by
  induction location generalizing node with
  | nil =>
      obtain rfl := Option.some.inj ((find?_nil node).symm.trans found)
      exact ⟨fun name member => absurd member List.not_mem_nil, wellFormed⟩
  | cons name names inductionHypothesis =>
      cases node with
      | file data =>
          simp at found
      | directory entries =>
          rw [find?_directory_cons, Option.bind_eq_some_iff] at found
          obtain ⟨next, isEntry, found⟩ := found
          obtain ⟨isName, nextWellFormed⟩ := wellFormed.inner_of_lookup isEntry
          obtain ⟨others, innerWellFormed⟩ := inductionHypothesis nextWellFormed found
          exact ⟨List.forall_mem_cons.mpr ⟨isName, others⟩, innerWellFormed⟩

end WellFormed

end Node

namespace FileTree

/-- All directories of the tree hold names of entries, in order. -/
def WellFormed (tree : FileTree) : Prop :=
  (Node.directory tree.entries).WellFormed

instance (tree : FileTree) : Decidable tree.WellFormed :=
  inferInstanceAs (Decidable (Node.directory tree.entries).WellFormed)

theorem wellFormed_empty : WellFormed empty :=
  .directory .nil (fun _ member => absurd member List.not_mem_nil)
    (fun _ member => absurd member List.not_mem_nil)

theorem WellFormed.assign {tree : FileTree} {location : List String} {node? : Option Node}
    (wellFormed : tree.WellFormed) (names : ∀ name ∈ location, IsName name)
    (nodeWellFormed : ∀ node ∈ node?, node.WellFormed) :
    (tree.assign location node?).WellFormed :=
  Node.WellFormed.assign wellFormed names nodeWellFormed

theorem WellFormed.isName_of_occupant {tree : FileTree} {location : List String}
    (wellFormed : tree.WellFormed) (stands : tree.occupant location ≠ .nothing) :
    ∀ name ∈ location, IsName name := by
  rw [Ne, occupant_eq_nothing_iff, ← Ne, Option.ne_none_iff_exists'] at stands
  obtain ⟨node, found⟩ := stands
  exact (Node.WellFormed.of_find? wellFormed found).1

end FileTree

end LieScribe
