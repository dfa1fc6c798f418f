import LieScribe.Proofs.ByteOrder
import LieScribe.Proofs.Snapshots.Comparison

/-!
# The walk below a directory

A snapshot lists the files below a directory by a walk through it.  The walk meets each file once,
under the names that lead to it from the directory, and goes through the files in the order of
these names, compared byte by byte from the top.  That is not the order of the paths as texts: a
file in the directory `a` comes before the file `a.py`, although a slash is greater than a dot.
-/

namespace LieScribe.Snapshot

variable {tree : FileTree} {path file : Path} {here names : List String}

theorem filesBelow_of_isDirectory (wellFormed : tree.WellFormed)
    (isDirectory : tree.isDirectory path = true) :
    filesBelow tree path = (locations tree path).map Path.mk := by
  rw [filesBelow_eq]
  exact List.map_congr_left fun names listed =>
    Path.ofNames_of_ne_nil (ne_nil_of_isDirectory wellFormed isDirectory listed)

/-- The files that are listed are those that stand below the directory. -/
theorem mem_filesBelow_iff_file (wellFormed : tree.WellFormed)
    (isDirectory : tree.isDirectory path = true) :
    file ∈ filesBelow tree path ↔
      ∃ data, tree.occupant (path.place ++ file.segments) = .file data := by
  rw [filesBelow_of_isDirectory wellFormed isDirectory, List.mem_map,
    ← mem_locations_iff_of_isDirectory wellFormed isDirectory]
  constructor
  · rintro ⟨names, listed, rfl⟩
    exact listed
  · intro listed
    exact ⟨file.segments, listed, rfl⟩

theorem pairwise_precedes_filesBelow (wellFormed : tree.WellFormed)
    (isDirectory : tree.isDirectory path = true) :
    (filesBelow tree path).Pairwise Path.Precedes := by
  rw [filesBelow_of_isDirectory wellFormed isDirectory, List.pairwise_map]
  exact (pairwise_locations wellFormed).imp Path.precedes_iff.mpr

/-- Every path of the list leads to its file when it is joined to the path of the directory. -/
theorem follow_join_of_mem_filesBelow (wellFormed : tree.WellFormed)
    (isDirectory : tree.isDirectory path = true) (listed : file ∈ filesBelow tree path) :
    (∀ name ∈ file.segments, IsName name) ∧
      tree.follow [] (path.join file).segments = .ok (path.place ++ file.segments) := by
  rw [filesBelow_eq] at listed
  obtain ⟨names, isLocation, rfl⟩ := List.mem_map.mp listed
  have someName := ne_nil_of_isDirectory wellFormed isDirectory isLocation
  have areNames := isName_of_mem_locations wellFormed isLocation
  obtain ⟨data, isFile⟩ :=
    (mem_locations_iff_of_isDirectory wellFormed isDirectory).mp isLocation
  have reached := FileTree.follow_join_ofNames isDirectory someName areNames
    (FileTree.ne_nothing_of_file isFile)
  rw [Path.ofNames_of_ne_nil someName] at reached ⊢
  exact ⟨areNames, reached⟩

/-- The walk below a directory lists each file below it exactly once and nothing else.  A file is
listed by the plain names that lead to it from the directory, so that the joined path leads to the
file.  The list is in the strict order that compares names from the top, byte by byte. -/
theorem filesBelow_walk (wellFormed : tree.WellFormed) (located : tree.locate path = .ok here)
    (isDirectory : tree.occupant here = .directory) :
    (∀ file, file ∈ filesBelow tree path ↔
        ∃ data, tree.occupant (here ++ file.segments) = .file data) ∧
      (filesBelow tree path).Nodup ∧
      (∀ file ∈ filesBelow tree path, (∀ name ∈ file.segments, IsName name) ∧
        tree.follow [] (path.join file).segments = .ok (here ++ file.segments)) ∧
      (filesBelow tree path).Pairwise Path.Precedes ∧ IsStrictTotalOrder Path Path.Precedes := by
  obtain ⟨checked, followed⟩ := Outcome.check_eq_ok_iff.mp located
  obtain rfl : here = path.place := FileTree.eq_foldl_step_of_follow followed
  have isRoot := FileTree.isDirectory_eq_true_iff.mpr ⟨checked, followed, isDirectory⟩
  have ordered := pairwise_precedes_filesBelow wellFormed isRoot
  refine ⟨fun file => mem_filesBelow_iff_file wellFormed isRoot, ?_,
    fun file => follow_join_of_mem_filesBelow wellFormed isRoot, ordered, inferInstance⟩
  exact ordered.imp fun before => ne_of_irrefl before

/-- A directory whose walk is not in the order of the paths as texts. -/
def nested : FileTree :=
  ⟨[("d", .directory [("a", .directory [("x", .file ⟨#[1]⟩)]), ("a.py", .file ⟨#[2]⟩),
    ("é", .directory []), ("ﬁ", .file ⟨#[3]⟩)]), ("e", .file ⟨#[4]⟩)]⟩

theorem wellFormed_nested : nested.WellFormed := by
  decide

/-- The file in `a` is listed before `a.py`, whose text is less. -/
theorem filesBelow_walk_nested :
    nested.WellFormed ∧ nested.locate ⟨["d", "."]⟩ = .ok ["d"] ∧
      nested.occupant ["d"] = .directory ∧
      filesBelow nested ⟨["d", "."]⟩ = [⟨["a", "x"]⟩, ⟨["a.py"]⟩, ⟨["ﬁ"]⟩] ∧
      Path.text ⟨["a.py"]⟩ < Path.text ⟨["a", "x"]⟩ ∧
      (filesBelow nested ⟨["d", "."]⟩).Pairwise Path.Precedes :=
  ⟨wellFormed_nested, rfl, rfl, rfl, by decide +kernel,
    (filesBelow_walk wellFormed_nested rfl rfl).2.2.2.1⟩

end LieScribe.Snapshot
