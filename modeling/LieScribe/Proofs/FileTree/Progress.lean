import LieScribe.Proofs.FileTree.Accesses
import Mathlib.Data.List.Induction

/-!
# Accesses that are not refused

Below a directory that a path reaches, the only thing in the way of writing is a file where a
directory is needed, or a directory where a file is.  Here is what the accesses do where neither
is in the way, and what they refuse.
-/

namespace LieScribe

theorem Path.stem_trimIdle (segments : List String) :
    stem ⟨trimIdle segments⟩ = trimIdle segments := by
  have drops (others : List String) :
      (others.dropWhile isIdle).dropWhile (· == "") = others.dropWhile isIdle := by
    induction others with
    | nil =>
        rfl
    | cons segment others inductionHypothesis =>
        by_cases idle : isIdle segment = true
        · rw [List.dropWhile_cons_of_pos idle, inductionHypothesis]
        · have notBlank : ¬ (segment == "") = true := fun blank => idle (by simp [isIdle, blank])
          rw [List.dropWhile_cons_of_neg idle]
          exact List.dropWhile_cons_of_neg notBlank
  cases segments with
  | nil =>
      rfl
  | cons first others =>
      simp only [trimIdle, stem, List.reverse_reverse, drops]

namespace FileTree

variable {tree : FileTree} {path : Path} {location here base names : List String}

/-! ## Single accesses -/

theorem locateStem_eq_ok (checked : checkPath path = .ok ())
    (followed : tree.follow [] path.stem = .ok location) :
    tree.locateStem path = .ok location :=
  Outcome.check_eq_ok_iff.mpr ⟨checked, followed⟩

theorem isDirectory_eq_true_iff :
    tree.isDirectory path = true ↔
      checkPath path = .ok () ∧ tree.follow [] path.segments = .ok path.place ∧
        tree.occupant path.place = .directory := by
  have isNode : tree.isDirectory path = true ↔
      ∃ node, tree.node path = .ok node ∧ node.isDirectory = true := by
    rw [FileTree.isDirectory]
    cases tree.node path <;> simp
  simp only [isNode, node_eq_ok_iff]
  constructor
  · rintro ⟨node, ⟨checked, location, followed, found⟩, isDirectory⟩
    obtain rfl : location = path.place := eq_foldl_step_of_follow followed
    refine ⟨checked, followed, ?_⟩
    rwa [occupant, found, Node.occupant_some_eq_directory_iff]
  · rintro ⟨checked, followed, isDirectory⟩
    obtain ⟨entries, found⟩ := occupant_eq_directory_iff.mp isDirectory
    exact ⟨.directory entries, ⟨checked, path.place, followed, found⟩, rfl⟩

theorem exists_withFile_eq_ok (checked : checkPath path = .ok ())
    (followed : tree.follow [] path.stem = .ok location) (noSlash : path.hasTrailingSlash = false)
    (noDirectory : tree.occupant location ≠ .directory) (data : ByteArray) :
    ∃ changed, tree.withFile path data = .ok changed := by
  refine ⟨tree.assign location (some (.file data)),
    Outcome.bind_eq_ok_iff.mpr ⟨location, locateStem_eq_ok checked followed, ?_⟩⟩
  rw [if_neg (by simp [noSlash])]
  split
  · next entries found =>
      exact absurd (occupant_eq_directory_iff.mpr ⟨entries, found⟩) noDirectory
  · rfl

theorem withFile_eq_isDirectory (checked : checkPath path = .ok ())
    (followed : tree.follow [] path.stem = .ok location) (noSlash : path.hasTrailingSlash = false)
    (isDirectory : tree.occupant location = .directory) (data : ByteArray) :
    tree.withFile path data = .error .isDirectory := by
  obtain ⟨entries, found⟩ := occupant_eq_directory_iff.mp isDirectory
  simp [withFile, locateStem_eq_ok checked followed, noSlash, found, bind, Except.bind]

theorem exists_withoutFile_eq_ok (checked : checkPath path = .ok ())
    (followed : tree.follow [] path.stem = .ok location) (noSlash : path.hasTrailingSlash = false)
    {data : ByteArray} (isFile : tree.occupant location = .file data) :
    ∃ changed, tree.withoutFile path = .ok changed := by
  have found := occupant_eq_file_iff.mp isFile
  simp [withoutFile, locateStem_eq_ok checked followed, noSlash, found, bind, Except.bind]

theorem exists_withDirectory_eq_ok (checked : checkPath path = .ok ())
    (followed : tree.follow [] path.stem = .ok location)
    (free : tree.occupant location = .nothing) :
    ∃ changed, tree.withDirectory path = .ok changed := by
  have missing := occupant_eq_nothing_iff.mp free
  simp [withDirectory, locateStem_eq_ok checked followed, missing, bind, Except.bind]

theorem withDirectory_eq_occupied (checked : checkPath path = .ok ())
    (followed : tree.follow [] path.stem = .ok location)
    (isDirectory : tree.occupant location = .directory) :
    tree.withDirectory path = .error .occupied := by
  obtain ⟨entries, found⟩ := occupant_eq_directory_iff.mp isDirectory
  simp [withDirectory, locateStem_eq_ok checked followed, found, bind, Except.bind]

theorem withDirectory_eq_notFound (checked : checkPath path = .ok ())
    (missing : tree.follow [] path.stem = .error .notFound) :
    tree.withDirectory path = .error .notFound := by
  simp [withDirectory, locateStem, checked, missing, bind, Except.bind]

theorem checkCopyable_of_data {data : ByteArray} (read : tree.data path = .ok data) :
    tree.checkCopyable path = .ok () := by
  obtain ⟨node, found, isFile⟩ := Outcome.bind_eq_ok_iff.mp read
  cases node with
  | file data => exact Outcome.bind_eq_ok_iff.mpr ⟨_, found, rfl⟩
  | directory entries => contradiction

/-- A file can be copied to where no directory is. -/
theorem exists_copy_eq_ok {source target : Path} {data : ByteArray}
    (apart : source.place ≠ target.place) (read : tree.data source = .ok data)
    (checked : checkPath target = .ok ()) (noSlash : target.hasTrailingSlash = false)
    (followed : tree.follow [] target.segments = .ok target.place)
    (noDirectory : tree.occupant target.place ≠ .directory) :
    ∃ changed, Access.copy source target tree = .ok () changed ∧
      tree.Replaces target.place (.file data) changed := by
  have stems := Path.stem_eq_segments noSlash
  obtain ⟨cleared, emptied⟩ :=
    exists_withFile_eq_ok checked (stems ▸ followed) noSlash noDirectory ByteArray.empty
  have stores := stores_of_withFile emptied
  obtain ⟨-, -, -, clears⟩ := replaces_of_withFile emptied
  have isFile : cleared.occupant target.place = .file ByteArray.empty := by
    rw [clears.occupant, Function.update_self]
  obtain ⟨changed, written⟩ := exists_withFile_eq_ok checked
    (stems ▸ follow_of_kept stores.kept followed) noSlash (by simp [isFile]) data
  obtain ⟨-, -, -, writes⟩ := replaces_of_withFile written
  have stillRead := stores.data_eq (by simpa using apart) read
  refine ⟨changed, ?_, clears.trans writes⟩
  refine (Access.bind_of_ok (Access.query_eq_ok_iff.mpr ⟨checkCopyable_of_data read, rfl⟩) _).trans
    ((Access.bind_of_ok (Access.change_eq_ok_iff.mpr emptied) _).trans
      ((Access.bind_of_ok (Access.query_eq_ok_iff.mpr ⟨stillRead, rfl⟩) _).trans ?_))
  exact Access.change_eq_ok_iff.mpr written

/-- A file is not copied onto a directory. -/
theorem copy_eq_isDirectory {source target : Path} {data : ByteArray}
    (read : tree.data source = .ok data) (checked : checkPath target = .ok ())
    (noSlash : target.hasTrailingSlash = false)
    (followed : tree.follow [] target.segments = .ok target.place)
    (isDirectory : tree.occupant target.place = .directory) :
    Access.copy source target tree = .error .isDirectory tree := by
  have refused := withFile_eq_isDirectory checked (Path.stem_eq_segments noSlash ▸ followed)
    noSlash isDirectory ByteArray.empty
  refine (Access.bind_of_ok (Access.query_eq_ok_iff.mpr ⟨checkCopyable_of_data read, rfl⟩) _).trans
    (Access.bind_of_error ?_ _)
  rw [Access.write, Access.change, refused]

/-! ## Directories on the way -/

/-- The directories on the way along names have been made, and nothing else. -/
structure Makes (tree : FileTree) (here names : List String) (changed : FileTree) : Prop where
  made : ∀ front, front <+: names → changed.occupant (here ++ front) = .directory
  elsewhere : ∀ location, (∀ front, front <+: names → location ≠ here ++ front) →
    changed.occupant location = tree.occupant location

theorem makes_of_isDirectory (isDirectory : tree.occupant (here ++ names) = .directory) :
    tree.Makes here names tree where
  made _ leads := occupant_eq_directory_of_leads isDirectory
    ((List.prefix_append_right_inj here).mpr leads)
  elsewhere _ _ := rfl

theorem ne_of_leads {front : List String} {name : String} (leads : front <+: names) :
    here ++ (names ++ [name]) ≠ here ++ front := by
  intro equal
  have short := leads.length_le
  have long := congrArg List.length (List.append_cancel_left equal)
  rw [List.length_append, List.length_singleton] at long
  omega

/-- One more directory on the way. -/
theorem Makes.concat {middle changed : FileTree} {name : String}
    (makes : tree.Makes here names middle)
    (replaces : middle.Replaces (here ++ (names ++ [name])) .directory changed) :
    tree.Makes here (names ++ [name]) changed where
  made front leads := by
    rcases List.prefix_concat_iff.mp leads with rfl | shorter
    · rw [replaces.occupant, Function.update_self]
    · rw [replaces.occupant, Function.update_of_ne (ne_of_leads shorter).symm,
        makes.made front shorter]
  elsewhere location away := by
    rw [replaces.occupant, Function.update_of_ne (away _ (List.prefix_refl _))]
    exact makes.elsewhere location fun front leads =>
      away front (leads.trans (List.prefix_append names [name]))

theorem Makes.occupant_eq {changed : FileTree} (makes : tree.Makes here names changed)
    {other : List String} (notOnTheWay : ¬ other <+: names) :
    changed.occupant (here ++ other) = tree.occupant (here ++ other) :=
  makes.elsewhere _ fun _ leads equal => notOnTheWay (List.append_cancel_left equal ▸ leads)

theorem follow_trimIdle (reached : tree.follow [] base = .ok here) :
    tree.follow [] (Path.trimIdle base) = .ok here := by
  obtain ⟨back, split, -⟩ := Path.exists_eq_trimIdle_append base
  obtain ⟨middle, trimmed, -⟩ := follow_append_eq_ok_iff.mp (split ▸ reached)
  obtain rfl : middle = here := by
    rw [eq_foldl_step_of_follow trimmed, Path.foldl_step_trimIdle,
      ← eq_foldl_step_of_follow reached]
  exact trimmed

/-- What is in front of a slash at the end leads where the path does. -/
theorem follow_base (followed : tree.follow [] path.segments = .ok path.place) :
    tree.follow [] path.base = .ok path.place := by
  rcases path.segments_eq_base_or with equal | equal
  · rwa [← equal]
  · rw [equal] at followed
    obtain ⟨middle, reached, -⟩ := follow_append_eq_ok_iff.mp followed
    rw [reached, eq_foldl_step_of_follow reached, Path.foldl_step_base]

/-- A path leads to a directory below the top. -/
structure Reaches (tree : FileTree) (path : Path) : Prop where
  followed : tree.follow [] path.base = .ok path.place
  isDirectory : tree.occupant path.place = .directory
  below : path.place ≠ []

namespace Reaches

theorem of_isDirectory (isDirectory : tree.isDirectory path = true) (below : path.place ≠ []) :
    tree.Reaches path := by
  obtain ⟨-, followed, isDirectory⟩ := isDirectory_eq_true_iff.mp isDirectory
  exact ⟨follow_base followed, isDirectory, below⟩

theorem of_kept (reaches : tree.Reaches path) {changed : FileTree}
    (kept : ∀ location, tree.occupant location = .directory →
      changed.occupant location = .directory) : changed.Reaches path :=
  ⟨follow_of_kept kept reaches.followed, kept _ reaches.isDirectory, reaches.below⟩

theorem foldl_step_ne_nil (reaches : tree.Reaches path)
    (areNames : ∀ name ∈ names, IsName name) : (path.base ++ names).foldl Path.step [] ≠ [] := by
  rw [List.foldl_append, Path.foldl_step_base, Path.foldl_step_names _ areNames]
  simp [reaches.below]

theorem join_concat (reaches : tree.Reaches path) (names : List String) (name : String) :
    path.join (Path.ofNames (names ++ [name])) = ⟨path.base ++ names ++ [name]⟩ := by
  have isNames : Path.ofNames (names ++ [name]) = ⟨names ++ [name]⟩ := by
    cases names <;> rfl
  rw [Path.join_eq (Path.ne_empty_of_place reaches.below), isNames, List.append_assoc]

/-- A name in a directory can be followed. -/
theorem follow_concat {name : String} (reaches : tree.Reaches path)
    (areNames : ∀ other ∈ names, IsName other) (isName : IsName name)
    (parent : tree.occupant (path.place ++ names) = .directory) :
    tree.follow [] (path.base ++ names ++ [name]) = .ok (path.place ++ (names ++ [name])) := by
  rw [List.append_assoc]
  refine follow_append_eq_ok_iff.mpr ⟨path.place, reaches.followed, follow_names ?_ (.inr ?_)⟩
  · exact List.forall_mem_append.mpr ⟨areNames, List.forall_mem_singleton.mpr isName⟩
  · rwa [List.dropLast_concat]

/-- Names below the directory, as long as they are names in directories, can be followed. -/
theorem follow_join (reaches : tree.Reaches path) (someName : names ≠ [])
    (areNames : ∀ name ∈ names, IsName name)
    (parent : tree.occupant (path.place ++ names.dropLast) = .directory) :
    tree.follow [] (path.join (Path.ofNames names)).segments =
      .ok (path.join (Path.ofNames names)).place := by
  rw [path.place_join_ofNames areNames]
  obtain ⟨front, name, rfl⟩ := names.eq_nil_or_concat'.resolve_left someName
  rw [List.dropLast_concat] at parent
  rw [List.forall_mem_append, List.forall_mem_singleton] at areNames
  rw [reaches.join_concat]
  exact reaches.follow_concat areNames.1 areNames.2 parent

theorem hasTrailingSlash_join (reaches : tree.Reaches path) (someName : names ≠ [])
    (areNames : ∀ name ∈ names, IsName name) :
    (path.join (Path.ofNames names)).hasTrailingSlash = false := by
  obtain ⟨front, name, rfl⟩ := names.eq_nil_or_concat'.resolve_left someName
  rw [reaches.join_concat]
  exact Path.hasTrailingSlash_concat _ (areNames name (by simp))

theorem isDirectory_join_iff (reaches : tree.Reaches path) (someName : names ≠ [])
    (areNames : ∀ name ∈ names, IsName name)
    (checked : checkPath (path.join (Path.ofNames names)) = .ok ()) :
    tree.isDirectory (path.join (Path.ofNames names)) = true ↔
      tree.occupant (path.place ++ names) = .directory := by
  rw [isDirectory_eq_true_iff, ← path.place_join_ofNames areNames]
  refine ⟨fun ⟨_, _, isDirectory⟩ => isDirectory, fun isDirectory => ⟨checked, ?_, isDirectory⟩⟩
  refine reaches.follow_join someName areNames ?_
  rw [path.place_join_ofNames areNames] at isDirectory
  exact occupant_eq_directory_of_leads isDirectory
    ((List.prefix_append_right_inj path.place).mpr (List.dropLast_prefix names))

end Reaches

theorem Makes.exists_withDirectory {middle : FileTree} {name : String}
    (makes : tree.Makes path.place names middle) (reaches : middle.Reaches path)
    (areNames : ∀ other ∈ names, IsName other) (isName : IsName name)
    (checked : checkPath ⟨path.base ++ names ++ [name]⟩ = .ok ())
    (free : middle.occupant (path.place ++ (names ++ [name])) = .nothing) :
    ∃ changed, middle.withDirectory ⟨path.base ++ names ++ [name]⟩ = .ok changed ∧
      tree.Makes path.place (names ++ [name]) changed := by
  have followed := reaches.follow_concat areNames isName (makes.made names (List.prefix_refl _))
  have stems := Path.stem_concat (path.base ++ names) isName
  obtain ⟨changed, done⟩ := exists_withDirectory_eq_ok checked (by rwa [stems]) free
  have replaces := (replaces_of_withDirectory done).2
  have placed : Path.place ⟨path.base ++ names ++ [name]⟩ = path.place ++ (names ++ [name]) :=
    (eq_foldl_step_of_follow followed).symm
  rw [placed] at replaces
  exact ⟨changed, done, makes.concat replaces⟩

/-- Where a directory is there already, making it is done. -/
theorem makeDirectoriesWithin_of_isDirectory {steps : Nat} {segments : List String}
    (stems : Path.stem ⟨segments⟩ = segments) (checked : checkPath ⟨segments⟩ = .ok ())
    (followed : tree.follow [] segments = .ok location)
    (isDirectory : tree.occupant location = .directory) :
    Access.makeDirectoriesWithin steps ⟨segments⟩ tree = .ok () tree := by
  have occupied := withDirectory_eq_occupied checked (by rwa [stems]) isDirectory
  obtain rfl : location = Path.place ⟨segments⟩ := eq_foldl_step_of_follow followed
  have there := isDirectory_eq_true_iff.mpr ⟨checked, followed, isDirectory⟩
  cases steps with
  | zero =>
      rw [Access.makeDirectoriesWithin, Access.change_eq_ok_iff, withDirectoryOnce, occupied]
      exact if_pos there
  | succ steps =>
      rw [Access.makeDirectoriesWithin_succ, if_neg (checkPath_eq_ok_iff.mp checked).2.2.1,
        occupied]
      exact if_pos there

/-- Directories can be made along names below a directory, if no file is in the way. -/
theorem exists_makes_of_no_file {steps : Nat} (reaches : tree.Reaches path)
    (areNames : ∀ name ∈ names, IsName name) (checked : checkPath ⟨path.base ++ names⟩ = .ok ())
    (noFile : ∀ front, front <+: names → ∀ data,
      tree.occupant (path.place ++ front) ≠ .file data)
    (enough : names.length ≤ steps) :
    ∃ changed,
      Access.makeDirectoriesWithin steps ⟨Path.trimIdle (path.base ++ names)⟩ tree =
        .ok () changed ∧ tree.Makes path.place names changed := by
  -- The names are taken from the end, since a directory is made after the one it is in.
  induction names using List.reverseRecOn generalizing steps with
  | nil =>
      have belowTop := reaches.foldl_step_ne_nil areNames
      rw [List.append_nil] at checked belowTop ⊢
      obtain ⟨back, split, -⟩ := Path.exists_eq_trimIdle_append path.base
      have trimmedChecked : checkPath ⟨Path.trimIdle path.base⟩ = .ok () := by
        rw [split] at checked
        refine checkPath_of_append checked ?_
        rwa [Path.foldl_step_trimIdle]
      exact ⟨tree, makeDirectoriesWithin_of_isDirectory (Path.stem_trimIdle path.base)
        trimmedChecked (follow_trimIdle reaches.followed) reaches.isDirectory,
        makes_of_isDirectory (by rw [List.append_nil, reaches.isDirectory])⟩
  | append_singleton names name inductionHypothesis =>
      rw [List.forall_mem_append, List.forall_mem_singleton] at areNames
      obtain ⟨areNames, isName⟩ := areNames
      obtain ⟨steps, rfl⟩ : ∃ fewer, steps = fewer + 1 :=
        Nat.exists_eq_succ_of_ne_zero (by rintro rfl; simp at enough)
      rw [← List.append_assoc, Path.trimIdle_concat _ isName]
      rw [← List.append_assoc] at checked
      have stems := Path.stem_concat (path.base ++ names) isName
      have noFileBefore : ∀ front, front <+: names → ∀ data,
          tree.occupant (path.place ++ front) ≠ .file data :=
        fun front leads => noFile front (leads.trans (List.prefix_append names [name]))
      by_cases last : tree.occupant (path.place ++ (names ++ [name])) = .directory
      · have parent := occupant_eq_directory_of_leads last
          ((List.prefix_append_right_inj path.place).mpr (List.prefix_append names [name]))
        exact ⟨tree, makeDirectoriesWithin_of_isDirectory stems checked
          (reaches.follow_concat areNames isName parent) last, makes_of_isDirectory last⟩
      · have free : tree.occupant (path.place ++ (names ++ [name])) = .nothing := by
          cases stands : tree.occupant (path.place ++ (names ++ [name])) with
          | nothing => rfl
          | directory => exact absurd stands last
          | file data => exact absurd stands (noFile _ (List.prefix_refl _) data)
        rw [Access.makeDirectoriesWithin_succ, if_neg (checkPath_eq_ok_iff.mp checked).2.2.1]
        by_cases parent : tree.occupant (path.place ++ names) = .directory
        · obtain ⟨changed, done, makes⟩ := (makes_of_isDirectory parent).exists_withDirectory
            reaches areNames isName checked free
          exact ⟨changed, by rw [done], makes⟩
        · have missing : tree.follow [] (path.base ++ names ++ [name]) = .error .notFound := by
            rw [List.append_assoc, follow_append, reaches.followed]
            refine follow_names_eq_notFound ?_ (by simp) ?_ ?_
            · exact List.forall_mem_append.mpr ⟨areNames, List.forall_mem_singleton.mpr isName⟩
            · rwa [List.dropLast_concat]
            · rwa [List.dropLast_concat]
          have belowTop := reaches.foldl_step_ne_nil areNames
          obtain ⟨middle, parentsMade, makes⟩ := inductionHypothesis areNames
            (checkPath_of_append checked belowTop) noFileBefore (by simpa using enough)
          have stillReaches := reaches.of_kept (stores_of_makeDirectoriesWithin parentsMade).kept
          have stillFree : middle.occupant (path.place ++ (names ++ [name])) = .nothing := by
            rw [makes.elsewhere _ fun front leads => ne_of_leads leads, free]
          obtain ⟨changed, done, makesAll⟩ := makes.exists_withDirectory stillReaches areNames
            isName checked stillFree
          refine ⟨changed, ?_, makesAll⟩
          rw [withDirectory_eq_notFound checked (by rwa [stems]),
            Path.parent?_concat isName belowTop]
          refine (Access.bind_of_ok parentsMade _).trans (Access.change_eq_ok_iff.mpr ?_)
          rw [withDirectoryOnce, done]

/-- The directories that lead to a name can be made, if no file is in the way. -/
theorem exists_makeDirectories_eq_ok (reaches : tree.Reaches path)
    (areNames : ∀ name ∈ names, IsName name) (checked : checkPath ⟨path.base ++ names⟩ = .ok ())
    (noFile : ∀ front, front <+: names → ∀ data,
      tree.occupant (path.place ++ front) ≠ .file data) :
    ∃ changed,
      Access.makeDirectories ⟨Path.trimIdle (path.base ++ names)⟩ tree = .ok () changed ∧
        tree.Makes path.place names changed := by
  refine exists_makes_of_no_file reaches areNames checked noFile ?_
  rcases names.eq_nil_or_concat' with rfl | ⟨front, name, rfl⟩
  · exact Nat.zero_le _
  · rw [List.forall_mem_append, List.forall_mem_singleton] at areNames
    rw [← List.append_assoc, Path.trimIdle_concat _ areNames.2, List.append_assoc]
    exact (List.suffix_append path.base _).length_le

end FileTree

end LieScribe
