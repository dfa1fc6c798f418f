import LieScribe.Proofs.FileTree.Progress
import LieScribe.Proofs.Snapshots.Update

/-!
# When an update stops

An update removes files that have no counterpart and makes the directories that are missing, but
it removes no directory.  So it stops at the first file that has a directory for a counterpart,
and nowhere else.  `Snapshot.Copyable` is what each copied file keeps for the next ones.
-/

namespace LieScribe.Snapshot

variable {tree changed : FileTree} {path actual expected source target : Path}
variable {names : List String}

/-! ## Files below a directory -/

theorem mem_locations_iff_of_isDirectory (wellFormed : tree.WellFormed)
    (isDirectory : tree.isDirectory path = true) :
    names ∈ locations tree path ↔ ∃ data, tree.occupant (path.place ++ names) = .file data := by
  obtain ⟨checked, followed, -⟩ := FileTree.isDirectory_eq_true_iff.mp isDirectory
  rw [mem_locations_iff wellFormed]
  exact ⟨fun ⟨_, _, isFile⟩ => isFile, fun isFile => ⟨checked, followed, isFile⟩⟩

theorem ne_nil_of_isDirectory (wellFormed : tree.WellFormed)
    (isDirectory : tree.isDirectory path = true) (listed : names ∈ locations tree path) :
    names ≠ [] := by
  rintro rfl
  obtain ⟨data, isFile⟩ := (mem_locations_iff_of_isDirectory wellFormed isDirectory).mp listed
  obtain ⟨-, -, isDirectory⟩ := FileTree.isDirectory_eq_true_iff.mp isDirectory
  simp [isDirectory] at isFile

/-- No file is below another. -/
theorem incomparable_locations (wellFormed : tree.WellFormed) :
    (locations tree path).Pairwise fun names other => ¬ names <+: other ∧ ¬ other <+: names := by
  have notBelowFile : ∀ names ∈ locations tree path, ∀ other ∈ locations tree path,
      names ≠ other → ¬ names <+: other := by
    rintro names listed _ otherListed different ⟨back, rfl⟩
    obtain ⟨-, -, data, isFile⟩ := (mem_locations_iff wellFormed).mp listed
    obtain ⟨-, -, otherData, isOther⟩ := (mem_locations_iff wellFormed).mp otherListed
    have further : back ≠ [] := by
      rintro rfl
      exact different (List.append_nil names).symm
    rw [← List.append_assoc] at isOther
    have isDirectory := FileTree.occupant_eq_directory_of_append further
      (FileTree.ne_nothing_of_file isOther)
    simp [isDirectory] at isFile
  exact (nodup_locations wellFormed).pairwise_of_forall_ne fun names listed other otherListed
    different => ⟨notBelowFile names listed other otherListed different,
      notBelowFile other otherListed names listed different.symm⟩

theorem checkPath_of_mem_locations {root : Path} (wellFormed : tree.WellFormed)
    (isDirectory : tree.isDirectory root = true) (below : root.place ≠ [])
    (listed : names ∈ locations tree path)
    (short : (root.join (Path.ofNames names)).text.utf8ByteSize ≤ FileTree.pathLimit) :
    FileTree.checkPath (root.join (Path.ofNames names)) = .ok () :=
  FileTree.checkPath_join (FileTree.isDirectory_eq_true_iff.mp isDirectory).1 below
    (isName_of_mem_locations wellFormed listed) short

theorem exists_data_of_mem_locations (wellFormed : tree.WellFormed)
    (isDirectory : tree.isDirectory path = true) (below : path.place ≠ [])
    (listed : names ∈ locations tree path)
    (checked : FileTree.checkPath (path.join (Path.ofNames names)) = .ok ()) :
    ∃ data, tree.data (path.join (Path.ofNames names)) = .ok data := by
  have areNames := isName_of_mem_locations wellFormed listed
  have someName := ne_nil_of_isDirectory wellFormed isDirectory listed
  obtain ⟨data, isFile⟩ := (mem_locations_iff_of_isDirectory wellFormed isDirectory).mp listed
  refine ⟨data, FileTree.data_eq_ok_iff.mpr ⟨checked, ?_, ?_⟩⟩
  · exact (FileTree.Reaches.of_isDirectory isDirectory below).follow_join someName areNames
      (FileTree.occupant_dropLast_eq_directory someName (FileTree.ne_nothing_of_file isFile))
  · rw [path.place_join_ofNames areNames, isFile]

/-! ## Removing -/

/-- A file below a directory can be removed, and the directory stays. -/
theorem exists_remove_eq_ok {data : ByteArray} (wellFormed : tree.WellFormed)
    (reaches : tree.Reaches path) (isFile : tree.occupant (path.place ++ names) = .file data)
    (fits : FileTree.checkPath (path.join (Path.ofNames names)) = .ok ()) :
    ∃ changed, Access.remove (path.join (Path.ofNames names)) tree = .ok () changed ∧
      tree.Replaces (path.place ++ names) .nothing changed ∧ changed.Reaches path := by
  have someName : names ≠ [] := by
    rintro rfl
    rw [List.append_nil, reaches.isDirectory] at isFile
    contradiction
  have stands := FileTree.ne_nothing_of_file isFile
  have areNames : ∀ name ∈ names, IsName name := fun name member =>
    wellFormed.isName_of_occupant stands name (List.mem_append_right _ member)
  have placed := path.place_join_ofNames areNames
  have noSlash := reaches.hasTrailingSlash_join someName areNames
  have followed := reaches.follow_join someName areNames
    (FileTree.occupant_dropLast_eq_directory someName stands)
  obtain ⟨changed, removed⟩ := FileTree.exists_withoutFile_eq_ok fits
    (Path.stem_eq_segments noSlash ▸ followed) noSlash (placed ▸ isFile)
  obtain ⟨-, -, replaces⟩ := FileTree.replaces_of_withoutFile removed
  rw [placed] at replaces
  refine ⟨changed, Access.change_eq_ok_iff.mpr removed, replaces,
    reaches.of_kept fun location isDirectory => ?_⟩
  have different : location ≠ path.place ++ names := by
    rintro rfl
    simp [isFile] at isDirectory
  rw [replaces.occupant, Function.update_of_ne different, isDirectory]

/-- Files below a directory can be removed one after another. -/
theorem exists_removeAll_eq_ok {stale : List (List String)} (wellFormed : tree.WellFormed)
    (reaches : tree.Reaches path) (distinct : stale.Nodup)
    (areFiles : ∀ names ∈ stale, ∃ data, tree.occupant (path.place ++ names) = .file data)
    (fits : ∀ names ∈ stale, FileTree.checkPath (path.join (Path.ofNames names)) = .ok ()) :
    ∃ changed, removeAll path (stale.map Path.ofNames) tree = .ok () changed := by
  induction stale generalizing tree with
  | nil =>
      exact ⟨tree, rfl⟩
  | cons names others inductionHypothesis =>
      rw [List.nodup_cons] at distinct
      rw [List.forall_mem_cons] at areFiles fits
      obtain ⟨data, isFile⟩ := areFiles.1
      obtain ⟨middle, removed, replaces, stillReaches⟩ :=
        exists_remove_eq_ok wellFormed reaches isFile fits.1
      have stillFiles : ∀ other ∈ others, ∃ data,
          middle.occupant (path.place ++ other) = .file data := by
        intro other member
        have different : path.place ++ other ≠ path.place ++ names := fun equal =>
          distinct.1 (List.append_cancel_left equal ▸ member)
        rw [replaces.occupant, Function.update_of_ne different]
        exact areFiles.2 other member
      obtain ⟨changed, later⟩ := inductionHypothesis (replaces.wellFormed wellFormed)
        stillReaches distinct.2 stillFiles fits.2
      exact ⟨changed, (Access.bind_of_ok (accessing_eq_ok_iff.mpr removed) _).trans later⟩

/-! ## Copying -/

/-- Files can be copied one after another, as far as no directory is in the place of one. -/
structure Copyable (tree : FileTree) (source target : Path) (files : List (List String)) :
    Prop where
  reaches : tree.Reaches target
  areNames : ∀ names ∈ files, names ≠ [] ∧ ∀ name ∈ names, IsName name
  apart : ∀ names ∈ files, ∀ other ∈ files, source.place ++ names ≠ target.place ++ other
  readable : ∀ names ∈ files, ∃ data, tree.data (source.join (Path.ofNames names)) = .ok data
  fits : ∀ names ∈ files, FileTree.checkPath (target.join (Path.ofNames names)) = .ok ()
  free : ∀ names ∈ files, ∀ front, front <+: names.dropLast → ∀ data,
    tree.occupant (target.place ++ front) ≠ .file data
  incomparable : files.Pairwise fun names other => ¬ names <+: other ∧ ¬ other <+: names

theorem not_leads_dropLast (someName : names ≠ []) : ¬ names <+: names.dropLast := by
  intro leads
  have shorter := leads.length_le
  have positive := List.length_pos_of_ne_nil someName
  rw [List.length_dropLast] at shorter
  omega

namespace Copyable

variable {names : List String} {others : List (List String)}

/-- The directories that lead to the first file can be made. -/
theorem exists_makeParents (copyable : Copyable tree source target (names :: others)) :
    ∃ parents, makeParents (target.join (Path.ofNames names)) tree = .ok () parents ∧
      tree.Makes target.place names.dropLast parents := by
  obtain ⟨someName, areNames⟩ := copyable.areNames names List.mem_cons_self
  have checked := copyable.fits names List.mem_cons_self
  have free := copyable.free names List.mem_cons_self
  obtain ⟨front, name, rfl⟩ := names.eq_nil_or_concat'.resolve_left someName
  rw [List.forall_mem_append, List.forall_mem_singleton] at areNames
  rw [List.dropLast_concat] at free ⊢
  have belowTop := copyable.reaches.foldl_step_ne_nil areNames.1
  rw [copyable.reaches.join_concat] at checked ⊢
  obtain ⟨parents, made, makes⟩ := FileTree.exists_makeDirectories_eq_ok copyable.reaches
    areNames.1 (FileTree.checkPath_of_append checked belowTop) free
  refine ⟨parents, ?_, makes⟩
  rw [makeParents, Path.parent?_concat areNames.2 belowTop]
  exact accessing_eq_ok_iff.mpr made

/-- Once the directories are made, the first file can be read and its copy be reached. -/
theorem exists_parents (copyable : Copyable tree source target (names :: others)) :
    ∃ parents data, makeParents (target.join (Path.ofNames names)) tree = .ok () parents ∧
      tree.Makes target.place names.dropLast parents ∧
      parents.data (source.join (Path.ofNames names)) = .ok data ∧
      parents.follow [] (target.join (Path.ofNames names)).segments =
        .ok (target.join (Path.ofNames names)).place ∧
      parents.occupant (target.join (Path.ofNames names)).place =
        tree.occupant (target.place ++ names) := by
  obtain ⟨parents, made, makes⟩ := copyable.exists_makeParents
  obtain ⟨someName, areNames⟩ := copyable.areNames names List.mem_cons_self
  obtain ⟨data, read⟩ := copyable.readable names List.mem_cons_self
  have stores := stores_of_makeParents made
  refine ⟨parents, data, made, makes, stores.data_eq List.not_mem_nil read, ?_, ?_⟩
  · exact (copyable.reaches.of_kept stores.kept).follow_join someName areNames
      (makes.made _ (List.prefix_refl _))
  · rw [target.place_join_ofNames areNames, makes.occupant_eq (not_leads_dropLast someName)]

/-- A file in a directory's place is refused. -/
theorem exists_copy_refused (copyable : Copyable tree source target (names :: others))
    (isDirectory : tree.occupant (target.place ++ names) = .directory) :
    ∃ parents, makeParents (target.join (Path.ofNames names)) tree = .ok () parents ∧
      Access.copy (source.join (Path.ofNames names)) (target.join (Path.ofNames names)) parents =
        .error .isDirectory parents := by
  obtain ⟨parents, data, made, makes, read, followed, occupied⟩ := copyable.exists_parents
  obtain ⟨someName, areNames⟩ := copyable.areNames names List.mem_cons_self
  exact ⟨parents, made, FileTree.copy_eq_isDirectory read
    (copyable.fits names List.mem_cons_self)
    (copyable.reaches.hasTrailingSlash_join someName areNames) followed
    (occupied.trans isDirectory)⟩

theorem place_source_ne (copyable : Copyable tree source target (names :: others))
    {other : List String} (member : other ∈ names :: others) :
    (source.join (Path.ofNames other)).place ≠ (target.join (Path.ofNames names)).place := by
  rw [source.place_join_ofNames (copyable.areNames other member).2,
    target.place_join_ofNames (copyable.areNames names List.mem_cons_self).2]
  exact copyable.apart other member names List.mem_cons_self

/-- When the first file has been copied, the others can be as before. -/
theorem tail {parents : FileTree} {data : ByteArray}
    (copyable : Copyable tree source target (names :: others))
    (made : tree.Stores [] parents)
    (copied : parents.Stores [(target.join (Path.ofNames names), data)] changed) :
    Copyable changed source target others where
  reaches := (copyable.reaches.of_kept made.kept).of_kept copied.kept
  areNames other member := copyable.areNames other (List.mem_cons_of_mem _ member)
  apart other member another anotherMember := copyable.apart other (List.mem_cons_of_mem _ member)
    another (List.mem_cons_of_mem _ anotherMember)
  readable other member := by
    obtain ⟨content, read⟩ := copyable.readable other (List.mem_cons_of_mem _ member)
    refine ⟨content, copied.data_eq ?_ (made.data_eq List.not_mem_nil read)⟩
    simpa using copyable.place_source_ne (List.mem_cons_of_mem _ member)
  fits other member := copyable.fits other (List.mem_cons_of_mem _ member)
  free other member front leads content isFile := by
    have placed :=
      target.place_join_ofNames (copyable.areNames names List.mem_cons_self).2
    have different : target.place ++ front ≠ target.place ++ names := by
      intro equal
      rw [List.append_cancel_left equal] at leads
      exact (List.rel_of_pairwise_cons copyable.incomparable member).1
        (leads.trans (List.dropLast_prefix other))
    rw [copied.file_iff (by simpa [placed] using different),
      made.file_iff List.not_mem_nil] at isFile
    exact copyable.free other (List.mem_cons_of_mem _ member) front leads content isFile
  incomparable := copyable.incomparable.of_cons

/-- A file that is in no directory's place is copied, and nothing changes in the places of the
others. -/
theorem exists_copy_of_no_directory (copyable : Copyable tree source target (names :: others))
    (noDirectory : tree.occupant (target.place ++ names) ≠ .directory) :
    ∃ parents changed, makeParents (target.join (Path.ofNames names)) tree = .ok () parents ∧
      Access.copy (source.join (Path.ofNames names)) (target.join (Path.ofNames names)) parents =
        .ok () changed ∧
      Copyable changed source target others ∧
      ∀ other ∈ others, changed.occupant (target.place ++ other) =
        tree.occupant (target.place ++ other) := by
  obtain ⟨parents, data, made, makes, read, followed, occupied⟩ := copyable.exists_parents
  obtain ⟨someName, areNames⟩ := copyable.areNames names List.mem_cons_self
  have apart := copyable.place_source_ne List.mem_cons_self
  obtain ⟨changed, copied, replaces⟩ := FileTree.exists_copy_eq_ok apart read
    (copyable.fits names List.mem_cons_self)
    (copyable.reaches.hasTrailingSlash_join someName areNames) followed (occupied ▸ noDirectory)
  obtain ⟨_, -, stores⟩ := FileTree.stores_of_copy apart copied
  refine ⟨parents, changed, made, copied, copyable.tail (stores_of_makeParents made) stores,
    fun other member => ?_⟩
  obtain ⟨notAbove, notBelow⟩ := List.rel_of_pairwise_cons copyable.incomparable member
  have different : target.place ++ other ≠ target.place ++ names := fun equal =>
    notAbove (List.append_cancel_left equal ▸ List.prefix_refl _)
  rw [replaces.occupant, target.place_join_ofNames areNames, Function.update_of_ne different]
  exact makes.occupant_eq fun leads => notBelow (leads.trans (List.dropLast_prefix names))

end Copyable

/-- Copying stops at the first file in a directory's place. -/
theorem copyAll_eq {files : List (List String)} (copyable : Copyable tree source target files)
    (isBlocked : Path → Bool)
    (blocked_iff : ∀ names ∈ files, isBlocked (Path.ofNames names) = true ↔
      tree.occupant (target.place ++ names) = .directory) :
    ∃ changed, copyAll source target (files.map Path.ofNames) tree =
      match (files.map Path.ofNames).find? isBlocked with
      | none => .ok () changed
      | some file => .error (.inaccessible (source.join file) .isDirectory) changed := by
  induction files generalizing tree with
  | nil =>
      exact ⟨tree, rfl⟩
  | cons names others inductionHypothesis =>
      rw [List.forall_mem_cons] at blocked_iff
      rw [List.map_cons]
      by_cases isDirectory : tree.occupant (target.place ++ names) = .directory
      · obtain ⟨parents, made, refused⟩ := copyable.exists_copy_refused isDirectory
        rw [List.find?_cons_of_pos (blocked_iff.1.mpr isDirectory)]
        exact ⟨parents, (Access.bind_of_ok made _).trans
          (Access.bind_of_error (Access.reporting_of_error _ refused) _)⟩
      · obtain ⟨parents, middle, made, copied, copyableLater, sameOccupants⟩ :=
          copyable.exists_copy_of_no_directory isDirectory
        obtain ⟨changed, later⟩ := inductionHypothesis copyableLater fun other member => by
          rw [sameOccupants other member, blocked_iff.2 other member]
        rw [List.find?_cons_of_neg fun blocks => isDirectory (blocked_iff.1.mp blocks)]
        exact ⟨changed, (Access.bind_of_ok made _).trans
          ((Access.bind_of_ok (accessing_eq_ok_iff.mpr copied) _).trans later)⟩

/-! ## Updating -/

/-- The locations of the files that have no counterpart. -/
def stale (tree : FileTree) (actual expected : Path) : List (List String) :=
  (locations tree expected).filter (· ∉ locations tree actual)

theorem map_stale (wellFormed : tree.WellFormed) (actual expected : Path) :
    (filesBelow tree expected).filter (· ∉ filesBelow tree actual) =
      (stale tree actual expected).map Path.ofNames := by
  rw [filesBelow_eq tree expected, List.filter_map, stale]
  congr 1
  refine List.filter_congr fun names listed => ?_
  have areNames := isName_of_mem_locations wellFormed listed
  simp [mem_filesBelow_iff wellFormed areNames]

theorem mem_stale_iff (wellFormed : tree.WellFormed) (isActual : tree.isDirectory actual = true)
    (isExpected : tree.isDirectory expected = true) :
    names ∈ stale tree actual expected ↔
      (∃ data, tree.occupant (expected.place ++ names) = .file data) ∧
        ∀ data, tree.occupant (actual.place ++ names) ≠ .file data := by
  simp [stale, mem_locations_iff_of_isDirectory wellFormed isActual,
    mem_locations_iff_of_isDirectory wellFormed isExpected]

theorem occupant_of_removeAll_stale {middle : FileTree} (wellFormed : tree.WellFormed)
    (removed : removeAll expected ((stale tree actual expected).map Path.ofNames) tree =
      .ok () middle) (location : List String) :
    middle.occupant location =
      if location ∈ (stale tree actual expected).map (expected.place ++ ·) then .nothing
      else tree.occupant location := by
  have places : ((stale tree actual expected).map Path.ofNames).map
      (fun file => (expected.join file).place) =
      (stale tree actual expected).map (expected.place ++ ·) := by
    rw [List.map_map]
    exact List.map_congr_left fun names member => expected.place_join_ofNames
      (isName_of_mem_locations wellFormed (List.mem_of_mem_filter member))
  rw [(occupant_of_removeAll removed).1, places]

/-- Removing files leaves the directories. -/
theorem directory_iff_of_removeAll_stale {middle : FileTree} (wellFormed : tree.WellFormed)
    (isExpected : tree.isDirectory expected = true)
    (removed : removeAll expected ((stale tree actual expected).map Path.ofNames) tree =
      .ok () middle) (location : List String) :
    middle.occupant location = .directory ↔ tree.occupant location = .directory := by
  rw [occupant_of_removeAll_stale wellFormed removed]
  split_ifs with isStale
  · obtain ⟨names, member, rfl⟩ := List.mem_map.mp isStale
    obtain ⟨data, isFile⟩ := (mem_locations_iff_of_isDirectory wellFormed isExpected).mp
      (List.mem_of_mem_filter member)
    simp [isFile]
  · rfl

/-- After the files without counterpart are gone, the others can be copied, as far as no
directory is in the place of one. -/
theorem copyable_of_removeAll_stale {middle : FileTree} (wellFormed : tree.WellFormed)
    (isActual : tree.isDirectory actual = true) (isExpected : tree.isDirectory expected = true)
    (notAbove : ¬ actual.place <+: expected.place) (notBelow : ¬ expected.place <+: actual.place)
    (actualFits : ∀ names ∈ locations tree actual,
      FileTree.checkPath (actual.join (Path.ofNames names)) = .ok ())
    (expectedFits : ∀ names ∈ locations tree actual,
      FileTree.checkPath (expected.join (Path.ofNames names)) = .ok ())
    (removed : removeAll expected ((stale tree actual expected).map Path.ofNames) tree =
      .ok () middle) :
    Copyable middle actual expected (locations tree actual) := by
  have belowActual := ne_nil_of_not_leads notAbove
  have belowExpected := ne_nil_of_not_leads notBelow
  have directories := directory_iff_of_removeAll_stale wellFormed isExpected removed
  have occupants := occupant_of_removeAll_stale wellFormed removed
  have apart (names other : List String) : actual.place ++ names ≠ expected.place ++ other :=
    fun equal => not_leads_append notBelow notAbove ⟨other, equal.symm⟩
  have areNames (names : List String) (listed : names ∈ locations tree actual) :=
    isName_of_mem_locations wellFormed listed
  refine ⟨(FileTree.Reaches.of_isDirectory isExpected belowExpected).of_kept
    fun location => (directories location).mpr, fun names listed => ⟨?_, areNames names listed⟩,
    fun names _ other _ => apart names other, fun names listed => ?_, expectedFits,
    fun names listed front leads data isFile => ?_, incomparable_locations wellFormed⟩
  · exact ne_nil_of_isDirectory wellFormed isActual listed
  · obtain ⟨data, read⟩ := exists_data_of_mem_locations wellFormed isActual belowActual listed
      (actualFits names listed)
    obtain ⟨checked, followed, isFile⟩ := FileTree.data_eq_ok_iff.mp read
    refine ⟨data, FileTree.data_eq_ok_iff.mpr ⟨checked, FileTree.follow_of_kept
      (fun location => (directories location).mpr) followed, ?_⟩⟩
    rw [occupants, if_neg, isFile]
    intro isStale
    obtain ⟨other, -, equal⟩ := List.mem_map.mp isStale
    rw [actual.place_join_ofNames (areNames names listed)] at equal
    exact apart names other equal.symm
  · rw [occupants] at isFile
    split_ifs at isFile with isStale
    -- A file in the way that is not stale has a counterpart, but there a directory must be.
    have isParent := FileTree.occupant_dropLast_eq_directory
      (ne_nil_of_isDirectory wellFormed isActual listed)
      (FileTree.ne_nothing_of_file
        ((mem_locations_iff_of_isDirectory wellFormed isActual).mp listed).choose_spec)
    have isDirectory := FileTree.occupant_eq_directory_of_leads isParent
      ((List.prefix_append_right_inj actual.place).mpr leads)
    refine isStale (List.mem_map_of_mem ((mem_stale_iff wellFormed isActual isExpected).mpr
      ⟨⟨data, isFile⟩, ?_⟩))
    simp [isDirectory]

/-- An update between two directories stops at the first file that has a directory for a
counterpart, which it reports.  If there is none, it succeeds, whatever else the updated side
holds. -/
theorem updateDirectory_eq (wellFormed : tree.WellFormed)
    (isActual : tree.isDirectory actual = true) (isExpected : tree.isDirectory expected = true)
    (notAbove : ¬ actual.place <+: expected.place) (notBelow : ¬ expected.place <+: actual.place)
    (actualFits : ∀ file ∈ filesBelow tree actual,
      (actual.join file).text.utf8ByteSize ≤ FileTree.pathLimit)
    (expectedFits : ∀ file ∈ filesBelow tree actual ++ filesBelow tree expected,
      (expected.join file).text.utf8ByteSize ≤ FileTree.pathLimit) :
    ∃ changed, updateDirectory actual expected tree =
      match (filesBelow tree actual).find? fun file => tree.isDirectory (expected.join file) with
      | none => .ok () changed
      | some file => .error (.inaccessible (actual.join file) .isDirectory) changed := by
  have belowActual := ne_nil_of_not_leads notAbove
  have belowExpected := ne_nil_of_not_leads notBelow
  have reaches := FileTree.Reaches.of_isDirectory isExpected belowExpected
  have sourceChecked : ∀ names ∈ locations tree actual,
      FileTree.checkPath (actual.join (Path.ofNames names)) = .ok () := fun names listed =>
    checkPath_of_mem_locations wellFormed isActual belowActual listed
      (actualFits _ (ofNames_mem_filesBelow listed))
  have targetChecked : ∀ names ∈ locations tree actual,
      FileTree.checkPath (expected.join (Path.ofNames names)) = .ok () := fun names listed =>
    checkPath_of_mem_locations wellFormed isExpected belowExpected listed
      (expectedFits _ (List.mem_append_left _ (ofNames_mem_filesBelow listed)))
  obtain ⟨middle, removed⟩ : ∃ middle,
      removeAll expected ((stale tree actual expected).map Path.ofNames) tree = .ok () middle := by
    refine exists_removeAll_eq_ok wellFormed reaches ((nodup_locations wellFormed).filter _)
      (fun names member => ((mem_stale_iff wellFormed isActual isExpected).mp member).1)
      fun names member => ?_
    have listed : names ∈ locations tree expected := List.mem_of_mem_filter member
    exact checkPath_of_mem_locations wellFormed isExpected belowExpected listed
      (expectedFits _ (List.mem_append_right _ (ofNames_mem_filesBelow listed)))
  have copyable := copyable_of_removeAll_stale wellFormed isActual isExpected notAbove notBelow
    sourceChecked targetChecked removed
  have blocked_iff : ∀ names ∈ locations tree actual,
      tree.isDirectory (expected.join (Path.ofNames names)) = true ↔
        middle.occupant (expected.place ++ names) = .directory := fun names listed => by
    rw [directory_iff_of_removeAll_stale wellFormed isExpected removed]
    exact reaches.isDirectory_join_iff (copyable.areNames names listed).1
      (copyable.areNames names listed).2 (targetChecked names listed)
  obtain ⟨changed, copied⟩ :=
    copyAll_eq copyable (fun file => tree.isDirectory (expected.join file)) blocked_iff
  refine ⟨changed, ?_⟩
  rw [updateDirectory, Access.get_bind, map_stale wellFormed, filesBelow_eq tree actual]
  exact (Access.bind_of_ok removed _).trans copied

/-- Files in other directories, and a directory that is emptied, stop no update. -/
theorem updateDirectory_eq_outdated :
    outdated.isDirectory ⟨["a"]⟩ = true ∧ outdated.isDirectory ⟨["e", ""]⟩ = true ∧
      ∃ changed, updateDirectory ⟨["a"]⟩ ⟨["e", ""]⟩ outdated = .ok () changed :=
  ⟨rfl, rfl, updateDirectory_eq wellFormed_outdated rfl rfl (by decide) (by decide) (by decide)
    (by decide)⟩

/-- A directory with a file in it, in the place of a file. -/
def blocked : FileTree :=
  ⟨[("a", .directory [("x", .file ⟨#[49]⟩)]),
    ("e", .directory [("x", .directory [("y", .file ⟨#[50]⟩)])])]⟩

/-- The directory is emptied, but it stays, and the file is not copied. -/
theorem updateDirectory_blocked :
    blocked.isDirectory ⟨["a"]⟩ = true ∧ blocked.isDirectory ⟨["e"]⟩ = true ∧
      updateDirectory ⟨["a"]⟩ ⟨["e"]⟩ blocked =
        .error (.inaccessible ⟨["a", "x"]⟩ .isDirectory)
          ⟨[("a", .directory [("x", .file ⟨#[49]⟩)]),
            ("e", .directory [("x", .directory [])])]⟩ :=
  ⟨rfl, rfl, rfl⟩

end LieScribe.Snapshot
