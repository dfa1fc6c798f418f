import LieScribe.Proofs.FileTree.Accesses
import LieScribe.Snapshot

/-!
# Updating snapshots

The files below a path are those that stand below its place (`Snapshot.mem_locations_iff`), so
what an update removes, makes and copies can be followed place by place (`Snapshot.Updates`).
When it succeeds, the two sides have the same files with the same contents.
-/

namespace LieScribe.Snapshot

variable {tree changed : FileTree} {path actual expected source target : Path}
variable {location names : List String}

/-! ## Files below a path -/

/-- The locations of the files at or below a path, seen from there. -/
def locations (tree : FileTree) (path : Path) : List (List String) :=
  match tree.node path with
  | .ok node => node.files
  | .error _ => []

theorem filesBelow_eq (tree : FileTree) (path : Path) :
    filesBelow tree path = (locations tree path).map Path.ofNames := by
  rw [filesBelow, locations]
  cases tree.node path <;> rfl

theorem mem_locations_iff (wellFormed : tree.WellFormed) :
    names ∈ locations tree path ↔
      FileTree.checkPath path = .ok () ∧ tree.follow [] path.segments = .ok path.place ∧
        ∃ data, tree.occupant (path.place ++ names) = .file data := by
  have isListed : names ∈ locations tree path ↔
      ∃ node, tree.node path = .ok node ∧ names ∈ node.files := by
    rw [locations]
    cases tree.node path <;> simp
  simp only [isListed, FileTree.node_eq_ok_iff, FileTree.occupant_eq_file_iff,
    FileTree.find?_append, Option.bind_eq_some_iff]
  constructor
  · rintro ⟨node, ⟨checked, location, followed, found⟩, listed⟩
    obtain rfl : location = path.place := FileTree.eq_foldl_step_of_follow followed
    obtain ⟨data, isFile⟩ := (Node.mem_files_iff (wellFormed.of_find? found).2).mp listed
    exact ⟨checked, followed, data, node, found, isFile⟩
  · rintro ⟨checked, followed, data, node, found, isFile⟩
    exact ⟨node, ⟨checked, path.place, followed, found⟩,
      (Node.mem_files_iff (wellFormed.of_find? found).2).mpr ⟨data, isFile⟩⟩

theorem pairwise_locations (wellFormed : tree.WellFormed) :
    (locations tree path).Pairwise (· < ·) := by
  rw [locations]
  split
  · next node found =>
      obtain ⟨-, location, -, isNode⟩ := FileTree.node_eq_ok_iff.mp found
      exact Node.pairwise_files (wellFormed.of_find? isNode).2
  · exact .nil

theorem nodup_locations (wellFormed : tree.WellFormed) : (locations tree path).Nodup :=
  (pairwise_locations wellFormed).imp fun before => ne_of_lt before

theorem isName_of_mem_locations (wellFormed : tree.WellFormed)
    (listed : names ∈ locations tree path) : ∀ name ∈ names, IsName name := by
  obtain ⟨-, -, data, isFile⟩ := (mem_locations_iff wellFormed).mp listed
  exact fun name member => wellFormed.isName_of_occupant (FileTree.ne_nothing_of_file isFile) name
    (List.mem_append_right _ member)

theorem ofNames_mem_filesBelow (listed : names ∈ locations tree path) :
    Path.ofNames names ∈ filesBelow tree path := by
  rw [filesBelow_eq]
  exact List.mem_map_of_mem listed

theorem mem_filesBelow_iff (wellFormed : tree.WellFormed) (areNames : ∀ name ∈ names, IsName name) :
    Path.ofNames names ∈ filesBelow tree path ↔ names ∈ locations tree path := by
  refine ⟨fun listed => ?_, ofNames_mem_filesBelow⟩
  rw [filesBelow_eq, List.mem_map] at listed
  obtain ⟨others, listed, equal⟩ := listed
  rwa [← Path.ofNames_inj (isName_of_mem_locations wellFormed listed) areNames equal]

theorem exists_place_of_mem_filesBelow (wellFormed : tree.WellFormed) {file : Path}
    (listed : file ∈ filesBelow tree path) (root : Path) :
    ∃ names, (root.join file).place = root.place ++ names := by
  rw [filesBelow_eq] at listed
  obtain ⟨names, isLocation, rfl⟩ := List.mem_map.mp listed
  exact ⟨names, root.place_join_ofNames (isName_of_mem_locations wellFormed isLocation)⟩

/-- Where the files below one path are below another. -/
theorem map_place_filesBelow (wellFormed : tree.WellFormed) (path root : Path) :
    (filesBelow tree path).map (fun file => (root.join file).place) =
      (locations tree path).map (root.place ++ ·) := by
  rw [filesBelow_eq, List.map_map]
  exact List.map_congr_left fun names listed =>
    root.place_join_ofNames (isName_of_mem_locations wellFormed listed)

/-- A path that does not lead upward lists all files below its place. -/
theorem mem_locations_iff_of_plain (wellFormed : tree.WellFormed) (plain : ".." ∉ path.segments) :
    names ∈ locations tree path ↔
      FileTree.checkPath path = .ok () ∧
        (∃ data, tree.occupant (path.place ++ names) = .file data) ∧
        (path.segments.getLast?.any Path.isIdle = true → names ≠ []) := by
  rw [mem_locations_iff wellFormed]
  refine and_congr_right fun _ => ?_
  constructor
  · rintro ⟨followed, data, isFile⟩
    refine ⟨⟨data, isFile⟩, fun endsIdle none => ?_⟩
    rw [none, List.append_nil, FileTree.occupant_eq_file_iff] at isFile
    have isDirectory := ((FileTree.exists_follow_iff_of_plain wellFormed plain).mp
      ⟨_, followed, isFile⟩).2 endsIdle
    simp [Node.isDirectory] at isDirectory
  · rintro ⟨⟨data, isFile⟩, further⟩
    have found := FileTree.occupant_eq_file_iff.mp isFile
    rw [FileTree.find?_append, Option.bind_eq_some_iff] at found
    obtain ⟨node, found, -⟩ := found
    have isDirectory (endsIdle : path.segments.getLast?.any Path.isIdle = true) :
        node.isDirectory = true := by
      have stands := FileTree.occupant_eq_directory_of_append (further endsIdle)
        (FileTree.ne_nothing_of_file isFile)
      rwa [FileTree.occupant, found, Node.occupant_some_eq_directory_iff] at stands
    obtain ⟨location, followed, -⟩ :=
      (FileTree.exists_follow_iff_of_plain wellFormed plain).mpr ⟨found, isDirectory⟩
    obtain rfl : location = path.place := FileTree.eq_foldl_step_of_follow followed
    exact ⟨followed, data, isFile⟩

/-! ## Removing and copying -/

theorem accessing_eq_ok_iff {α : Type} {access : Access Refusal α} {result : α} :
    accessing path access tree = .ok result changed ↔ access tree = .ok result changed :=
  Access.reporting_eq_ok_iff

/-- Removing files leaves nothing in their places, and everything else as it was. -/
theorem occupant_of_removeAll {files : List Path}
    (removed : removeAll path files tree = .ok () changed) :
    (∀ location, changed.occupant location =
      if location ∈ files.map (fun file => (path.join file).place) then .nothing
      else tree.occupant location) ∧
      (tree.WellFormed → changed.WellFormed) := by
  induction files generalizing tree with
  | nil =>
      obtain ⟨-, rfl⟩ := Access.pure_eq_ok_iff.mp removed
      exact ⟨fun location => by simp, id⟩
  | cons file others inductionHypothesis =>
      obtain ⟨_, middle, first, later⟩ := Access.bind_eq_ok_iff.mp removed
      have cleared := Access.change_eq_ok_iff.mp (accessing_eq_ok_iff.mp first)
      obtain ⟨-, -, replaces⟩ := FileTree.replaces_of_withoutFile cleared
      obtain ⟨occupants, wellFormed⟩ := inductionHypothesis later
      refine ⟨fun location => ?_, fun start => wellFormed (replaces.wellFormed start)⟩
      rw [occupants, replaces.occupant, List.map_cons]
      by_cases equal : location = (path.join file).place
      · simp [equal]
      · simp [equal]

theorem stores_of_makeParents (made : makeParents path tree = .ok () changed) :
    tree.Stores [] changed := by
  rw [makeParents] at made
  cases leads : path.parent? with
  | none =>
      rw [leads] at made
      obtain ⟨-, rfl⟩ := Access.pure_eq_ok_iff.mp made
      exact .refl tree
  | some parent =>
      rw [leads] at made
      exact FileTree.stores_of_makeDirectories (accessing_eq_ok_iff.mp made)

/-- Files that are copied elsewhere can be read on both sides. -/
theorem stores_of_copyAll {files : List Path}
    (apart : ∀ file ∈ files, ∀ other ∈ files,
      (source.join file).place ≠ (target.join other).place)
    (distinct : (files.map fun file => (target.join file).place).Nodup)
    (copied : copyAll source target files tree = .ok () changed) :
    ∃ contents : Path → ByteArray,
      (∀ file ∈ files, changed.data (source.join file) = .ok (contents file)) ∧
        tree.Stores (files.map fun file => (target.join file, contents file)) changed := by
  induction files generalizing tree with
  | nil =>
      obtain ⟨-, rfl⟩ := Access.pure_eq_ok_iff.mp copied
      exact ⟨fun _ => .empty, fun _ member => absurd member List.not_mem_nil, .refl tree⟩
  | cons file others inductionHypothesis =>
      obtain ⟨_, parents, made, copied⟩ := Access.bind_eq_ok_iff.mp copied
      obtain ⟨_, middle, first, later⟩ := Access.bind_eq_ok_iff.mp copied
      rw [List.map_cons, List.nodup_cons] at distinct
      obtain ⟨data, read, stored⟩ := FileTree.stores_of_copy
        (apart file List.mem_cons_self file List.mem_cons_self) (accessing_eq_ok_iff.mp first)
      obtain ⟨contents, reads, storesLater⟩ := inductionHypothesis
        (fun first member other otherMember => apart first (List.mem_cons_of_mem _ member) other
          (List.mem_cons_of_mem _ otherMember)) distinct.2 later
      have laterPlaces : (others.map fun other => (target.join other, contents other)).map
          (·.1.place) = others.map fun other => (target.join other).place := List.map_map
      have sourceApart : (source.join file).place ∉
          others.map fun other => (target.join other).place := by
        rintro member
        obtain ⟨other, otherMember, equal⟩ := List.mem_map.mp member
        exact apart file List.mem_cons_self other (List.mem_cons_of_mem _ otherMember) equal.symm
      have readLater : changed.data (source.join file) = .ok data :=
        storesLater.data_eq (laterPlaces ▸ sourceApart) (stored.data_eq
          (by simpa using apart file List.mem_cons_self file List.mem_cons_self) read)
      have different : ∀ other ∈ others, other ≠ file := by
        rintro other member rfl
        exact distinct.1 (List.mem_map_of_mem member)
      have sameLater : others.map (fun other =>
          (target.join other, Function.update contents file data other)) =
          others.map fun other => (target.join other, contents other) :=
        List.map_congr_left fun other member => by
          rw [Function.update_of_ne (different other member)]
      refine ⟨Function.update contents file data, List.forall_mem_cons.mpr ⟨?_, ?_⟩, ?_⟩
      · rw [Function.update_self, readLater]
      · intro other member
        rw [Function.update_of_ne (different other member), reads other member]
      · rw [List.map_cons, Function.update_self, sameLater]
        refine (stores_of_makeParents made).trans (stored.trans storesLater ?_)
          fun _ member => absurd member List.not_mem_nil
        rw [laterPlaces]
        exact List.forall_mem_singleton.mpr distinct.1

/-! ## Updating -/

theorem not_leads_append {below other : List String} (notBelow : ¬ below <+: other)
    (notAbove : ¬ other <+: below) : ¬ below <+: other ++ names := by
  intro leads
  rcases List.prefix_or_prefix_of_prefix leads (List.prefix_append other names) with one | another
  · exact notBelow one
  · exact notAbove another

theorem ne_nil_of_not_leads {here there : List String} (notAbove : ¬ here <+: there) :
    here ≠ [] := by
  rintro rfl
  exact notAbove List.nil_prefix

/-- What an update that succeeds has done, place by place. -/
structure Updates (tree : FileTree) (actual expected : Path) (changed : FileTree) : Prop where
  wellFormed : changed.WellFormed
  copied : ∀ file ∈ filesBelow tree actual, ∃ data,
    changed.data (actual.join file) = .ok data ∧ changed.data (expected.join file) = .ok data
  elsewhere : ∀ location, ¬ expected.place <+: location → ∀ data,
    changed.occupant location = .file data ↔ tree.occupant location = .file data
  unlisted : ∀ names data, names ∉ locations tree actual →
    changed.occupant (expected.place ++ names) = .file data →
      names ∉ locations tree expected ∧ tree.occupant (expected.place ++ names) = .file data

theorem updates_of_updateDirectory (wellFormed : tree.WellFormed)
    (notAbove : ¬ actual.place <+: expected.place) (notBelow : ¬ expected.place <+: actual.place)
    (updated : updateDirectory actual expected tree = .ok () changed) :
    Updates tree actual expected changed := by
  rw [updateDirectory, Access.get_bind] at updated
  obtain ⟨_, middle, removed, copied⟩ := Access.bind_eq_ok_iff.mp updated
  obtain ⟨occupants, middleWellFormed⟩ := occupant_of_removeAll removed
  have targets := map_place_filesBelow wellFormed actual expected
  have apart : ∀ file ∈ filesBelow tree actual, ∀ other ∈ filesBelow tree actual,
      (actual.join file).place ≠ (expected.join other).place := by
    intro file listed other otherListed equal
    obtain ⟨names, sourcePlace⟩ := exists_place_of_mem_filesBelow wellFormed listed actual
    obtain ⟨others, targetPlace⟩ := exists_place_of_mem_filesBelow wellFormed otherListed expected
    rw [sourcePlace, targetPlace] at equal
    exact not_leads_append notBelow notAbove ⟨others, equal.symm⟩
  have distinct :
      ((filesBelow tree actual).map fun file => (expected.join file).place).Nodup := by
    rw [targets]
    exact List.Nodup.map (List.append_right_injective _) (nodup_locations wellFormed)
  obtain ⟨contents, reads, stored⟩ := stores_of_copyAll apart distinct copied
  have storedPlaces : ((filesBelow tree actual).map fun file =>
      (expected.join file, contents file)).map (·.1.place) =
      (locations tree actual).map (expected.place ++ ·) := List.map_map.trans targets
  refine ⟨stored.wellFormed (middleWellFormed wellFormed), fun file listed => ?_,
    fun location outside data => ?_, fun names data unlisted isFile => ?_⟩
  · exact ⟨contents file, reads file listed,
      stored.readBack _ (List.mem_map_of_mem listed)⟩
  · have notStored : location ∉ (locations tree actual).map (expected.place ++ ·) := by
      intro member
      obtain ⟨names, -, rfl⟩ := List.mem_map.mp member
      exact outside (List.prefix_append _ names)
    rw [stored.file_iff (storedPlaces ▸ notStored), occupants, if_neg]
    intro member
    obtain ⟨file, stale, rfl⟩ := List.mem_map.mp member
    obtain ⟨names, place⟩ :=
      exists_place_of_mem_filesBelow wellFormed (List.mem_of_mem_filter stale) expected
    exact outside ⟨names, place.symm⟩
  · have notStored : expected.place ++ names ∉
        (locations tree actual).map (expected.place ++ ·) := by
      rwa [List.mem_map_of_injective (List.append_right_injective _)]
    rw [stored.file_iff (storedPlaces ▸ notStored), occupants] at isFile
    split_ifs at isFile with stale
    refine ⟨fun listed => stale ?_, isFile⟩
    have areNames := isName_of_mem_locations wellFormed listed
    refine List.mem_map.mpr ⟨Path.ofNames names, List.mem_filter.mpr ⟨?_, ?_⟩,
      expected.place_join_ofNames areNames⟩
    · exact (mem_filesBelow_iff wellFormed areNames).mpr listed
    · simpa using (mem_filesBelow_iff wellFormed areNames).not.mpr unlisted

namespace Updates

/-- The files that were copied are as they were. -/
theorem locations_actual (updates : Updates tree actual expected changed)
    (wellFormed : tree.WellFormed) (plain : ".." ∉ actual.segments)
    (notAbove : ¬ actual.place <+: expected.place)
    (notBelow : ¬ expected.place <+: actual.place) :
    locations changed actual = locations tree actual := by
  refine (pairwise_locations updates.wellFormed).eq_of_mem_iff (pairwise_locations wellFormed)
    fun names => ?_
  simp only [mem_locations_iff_of_plain updates.wellFormed plain,
    mem_locations_iff_of_plain wellFormed plain,
    updates.elsewhere _ (not_leads_append notBelow notAbove)]

/-- A file that was copied lies properly below the path: a file is not read through a path with
a slash at its end. -/
theorem ne_nil_of_mem_locations (updates : Updates tree actual expected changed)
    (below : actual.place ≠ []) (listed : names ∈ locations tree actual) : names ≠ [] := by
  rintro rfl
  obtain ⟨data, read, -⟩ := updates.copied Path.empty (ofNames_mem_filesBelow listed)
  rw [Path.join_eq (Path.ne_empty_of_place below)] at read
  obtain ⟨-, followed, isFile⟩ := FileTree.data_eq_ok_iff.mp read
  obtain ⟨middle, -, last⟩ := FileTree.follow_append_eq_ok_iff.mp followed
  obtain ⟨isDirectory, -, stays⟩ := FileTree.follow_cons_eq_ok_iff.mp last
  have same : middle = Path.place ⟨actual.base ++ Path.empty.segments⟩ := Except.ok.inj stays
  simp [← same, isDirectory] at isFile

/-- The files on the updated side are now those on the other. -/
theorem locations_expected (updates : Updates tree actual expected changed)
    (wellFormed : tree.WellFormed) (plain : ".." ∉ expected.segments)
    (notAbove : ¬ actual.place <+: expected.place)
    (notBelow : ¬ expected.place <+: actual.place) :
    locations changed expected = locations tree actual := by
  refine (pairwise_locations updates.wellFormed).eq_of_mem_iff (pairwise_locations wellFormed)
    fun names => ?_
  rw [mem_locations_iff_of_plain updates.wellFormed plain]
  constructor
  · rintro ⟨checked, ⟨data, isFile⟩, further⟩
    by_contra unlisted
    obtain ⟨notThere, wasFile⟩ := updates.unlisted names data unlisted isFile
    exact notThere ((mem_locations_iff_of_plain wellFormed plain).mpr
      ⟨checked, ⟨data, wasFile⟩, further⟩)
  · intro listed
    have areNames := isName_of_mem_locations wellFormed listed
    have further := updates.ne_nil_of_mem_locations (ne_nil_of_not_leads notAbove) listed
    obtain ⟨data, -, read⟩ := updates.copied _ (ofNames_mem_filesBelow listed)
    have isFile := FileTree.occupant_of_data read
    rw [expected.place_join_ofNames areNames] at isFile
    refine ⟨FileTree.checkPath_of_join (FileTree.checkPath_of_data read)
      (ne_nil_of_not_leads notBelow) ?_, ⟨data, isFile⟩, fun _ => further⟩
    cases names <;> simp [Path.ofNames, Path.empty]

end Updates

theorem accessing_read {data : ByteArray} (read : tree.data path = .ok data) :
    accessing path (Access.read path) tree = .ok data tree :=
  accessing_eq_ok_iff.mpr (Access.query_eq_ok_iff.mpr ⟨read, rfl⟩)

/-- Files that are the same on both sides compare well. -/
theorem compareAll_eq_ok {files : List Path}
    (same : ∀ file ∈ files, ∃ data,
      tree.data (actual.join file) = .ok data ∧ tree.data (expected.join file) = .ok data) :
    compareAll actual expected files tree = .ok () tree := by
  induction files with
  | nil =>
      rfl
  | cons file others inductionHypothesis =>
      rw [List.forall_mem_cons] at same
      obtain ⟨⟨data, generated, kept⟩, sameLater⟩ := same
      refine (Access.bind_of_ok (accessing_read generated) _).trans
        ((Access.bind_of_ok (accessing_read kept) _).trans ?_)
      rw [if_pos rfl]
      exact inductionHypothesis sameLater

/-- An update that succeeds makes the files below the two paths the same, with the same bytes.
Outside of the updated side no file is created, changed or removed, and a comparison that
follows finds no difference.  The paths must not lead upward, and neither place may be at or
below the other. -/
theorem compareDirectory_of_updateDirectory (wellFormed : tree.WellFormed)
    (plainActual : ".." ∉ actual.segments) (plainExpected : ".." ∉ expected.segments)
    (notAbove : ¬ actual.place <+: expected.place) (notBelow : ¬ expected.place <+: actual.place)
    (updated : updateDirectory actual expected tree = .ok () changed) :
    filesBelow changed expected = filesBelow changed actual ∧
      (∀ file ∈ filesBelow changed actual, ∃ data,
        changed.data (actual.join file) = .ok data ∧
          changed.data (expected.join file) = .ok data) ∧
      (∀ location, ¬ expected.place <+: location → ∀ data,
        changed.find? location = some (.file data) ↔
          tree.find? location = some (.file data)) ∧
      compareDirectory actual expected changed = .ok () changed := by
  have updates := updates_of_updateDirectory wellFormed notAbove notBelow updated
  have actualFiles : filesBelow changed actual = filesBelow tree actual := by
    rw [filesBelow_eq, filesBelow_eq,
      updates.locations_actual wellFormed plainActual notAbove notBelow]
  have expectedFiles : filesBelow changed expected = filesBelow tree actual := by
    rw [filesBelow_eq, filesBelow_eq,
      updates.locations_expected wellFormed plainExpected notAbove notBelow]
  rw [actualFiles, expectedFiles]
  refine ⟨rfl, updates.copied, fun location outside data => ?_, ?_⟩
  · rw [← FileTree.occupant_eq_file_iff, ← FileTree.occupant_eq_file_iff]
    exact updates.elsewhere location outside data
  · have nothingLeft : (filesBelow tree actual).filter (· ∉ filesBelow tree actual) = [] := by simp
    rw [compareDirectory, Access.get_bind]
    simp only [actualFiles, expectedFiles, nothingLeft, List.isEmpty_nil, Bool.and_self, if_true]
    exact compareAll_eq_ok updates.copied

/-- A kept side with a file where a directory is needed, a file of other bytes and an old file. -/
def outdated : FileTree :=
  ⟨[("a", .directory [
      ("deep", .directory [("x", .file ⟨#[255, 0]⟩)]), ("y", .file ⟨#[1]⟩)]),
    ("e", .directory [
      ("deep", .file ⟨#[9]⟩), ("y", .file ⟨#[2]⟩), ("z", .directory [("old", .file ⟨#[3]⟩)])]),
    ("notes", .file ⟨#[7]⟩)]⟩

theorem wellFormed_outdated : outdated.WellFormed := by
  decide

theorem compareDirectory_of_updateDirectory_outdated :
    outdated.WellFormed ∧
      ∃ changed, updateDirectory ⟨["a"]⟩ ⟨["e", ""]⟩ outdated = .ok () changed ∧
        filesBelow changed ⟨["e", ""]⟩ = filesBelow changed ⟨["a"]⟩ ∧
        filesBelow changed ⟨["a"]⟩ = [⟨["deep", "x"]⟩, ⟨["y"]⟩] ∧
        changed.find? ["notes"] = some (.file ⟨#[7]⟩) ∧
        compareDirectory ⟨["a"]⟩ ⟨["e", ""]⟩ changed = .ok () changed := by
  refine ⟨wellFormed_outdated, _, rfl, ?_⟩
  obtain ⟨sameFiles, -, elsewhere, compares⟩ :=
    @compareDirectory_of_updateDirectory outdated _ ⟨["a"]⟩ ⟨["e", ""]⟩ wellFormed_outdated
      (by decide) (by decide) (by decide) (by decide) rfl
  exact ⟨sameFiles, rfl, (elsewhere ["notes"] (by decide) _).mpr rfl, compares⟩

end LieScribe.Snapshot
