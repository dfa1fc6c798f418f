import LieScribe.Package.Writing
import LieScribe.Proofs.FileTree.Accesses
import LieScribe.Proofs.Groups.Operations
import LieScribe.Proofs.Listing.Acceptance

/-!
# Packages in a file tree

A package consists of files at different places below its root, whatever the root is.  So no
file is written over another, each of them can be loaded afterwards, and every other file is
left alone.
-/

namespace LieScribe

/-- Actions that store files in different places store all of them. -/
theorem Access.stores_of_mapM {ε α β : Type} {action : α → Access ε β} {result : α → β}
    {stored : α → List (Path × ByteArray)}
    {items : List α}
    (each : ∀ item ∈ items, ∀ value tree changed, action item tree = .ok value changed →
      value = result item ∧ tree.Stores (stored item) changed)
    (apart : ((items.flatMap stored).map (·.1.place)).Nodup)
    {values : List β} {tree changed : FileTree}
    (done : items.mapM action tree = .ok values changed) :
    values = items.map result ∧ tree.Stores (items.flatMap stored) changed := by
  induction items generalizing values tree with
  | nil =>
      obtain ⟨rfl, rfl⟩ := Access.pure_eq_ok_iff.mp done
      exact ⟨rfl, .refl tree⟩
  | cons item items inductionHypothesis =>
      rw [List.mapM_cons] at done
      obtain ⟨value, middle, first, done⟩ := Access.bind_eq_ok_iff.mp done
      obtain ⟨others, _, rest, returned⟩ := Access.bind_eq_ok_iff.mp done
      obtain ⟨rfl, rfl⟩ := Access.pure_eq_ok_iff.mp returned
      rw [List.forall_mem_cons] at each
      rw [List.flatMap_cons, List.map_append, List.nodup_append] at apart
      obtain ⟨rfl, firstStored⟩ := each.1 value tree middle first
      obtain ⟨rfl, restStored⟩ := inductionHypothesis each.2 apart.2.1 rest
      refine ⟨rfl, firstStored.trans restStored fun entry member again => ?_⟩
      exact apart.2.2 _ (List.mem_map_of_mem member) _ again rfl

theorem MotionGroup.mem_all (group : MotionGroup) : group ∈ all := by
  cases group <;> decide

theorem GroupOperation.mem_all (operation : GroupOperation) : operation ∈ all := by
  cases operation <;> decide

theorem FileTree.textOf_eq_ok {tree : FileTree} {path : Path} {text : String}
    (read : tree.data path = .ok text.toUTF8) : tree.textOf path = .ok text := by
  have decoded : String.fromUTF8? text.toUTF8 = some text := by
    rw [String.fromUTF8?]
    exact dif_pos text.isValidUTF8
  exact Outcome.bind_eq_ok_iff.mpr ⟨_, read, by rw [decoded]⟩

namespace Package

/-! ## The texts of a package -/

/-- Every operation of every group has a source file. -/
theorem exists_fileText (group : MotionGroup) (operation : GroupOperation) (target : Target) :
    ∃ text, fileText group operation target = .ok text := by
  have checked : Naming.packaged.checkRequest (group.inputs operation)
      (group.outputs operation) = .ok () := by
    cases group <;> cases operation <;> rfl
  have uncalled : ∀ name, ¬ Expr.Calls (group.outputs operation) name := by
    rintro name ⟨count, applies⟩
    exact absurd (group.isFunction_of_applies operation applies) (by simp [Operation.isFunction])
  obtain ⟨result, listed⟩ : ∃ result, listing group operation target = .ok result :=
    Listing.exists_generate_eq_ok_iff.mpr ⟨checked, uncalled⟩
  exact ⟨_, Outcome.bind_eq_ok_iff.mpr ⟨result, listed, rfl⟩⟩

/-- The text of the file of an operation, which is always there. -/
def sourceText (group : MotionGroup) (operation : GroupOperation) (target : Target) : String :=
  match fileText group operation target with
  | .ok text => text
  | .error _ => ""

theorem fileText_eq (group : MotionGroup) (operation : GroupOperation) (target : Target) :
    fileText group operation target = .ok (sourceText group operation target) := by
  obtain ⟨text, written⟩ := exists_fileText group operation target
  rw [sourceText, written]

/-! ## The places of a package -/

variable {root : Path} {target : Target}

/-- The file that makes a directory a package, if the target has one. -/
def initFile (root : Path) (target : Target) (group : MotionGroup) : List (Path × ByteArray) :=
  if target.isPython then [(initPath root group, (initText group).toUTF8)] else []

/-- The file of an operation. -/
def operationFile (root : Path) (target : Target) (group : MotionGroup)
    (operation : GroupOperation) : Path × ByteArray :=
  (filePath root group operation target, (sourceText group operation target).toUTF8)

/-- The files of a group. -/
def groupFiles (root : Path) (target : Target) (group : MotionGroup) :
    List (Path × ByteArray) :=
  initFile root target group ++ GroupOperation.all.map (operationFile root target group)

/-- The files of a package. -/
def files (root : Path) (target : Target) : List (Path × ByteArray) :=
  MotionGroup.all.flatMap (groupFiles root target)

theorem isName_name (group : MotionGroup) : IsName group.name := by
  cases group <;> decide

theorem isName_fileName (operation : GroupOperation) (target : Target) :
    IsName (fileName operation target) := by
  cases operation <;> cases target <;> decide

theorem place_directory_join (root : Path) (group : MotionGroup) {name : String}
    (isName : IsName name) :
    ((directory root group).join ⟨[name]⟩).place = root.place ++ [group.name, name] := by
  rw [Path.place_join _ (List.forall_mem_singleton.mpr isName), directory,
    Path.place_join _ (List.forall_mem_singleton.mpr (isName_name group)), List.append_assoc]
  rfl

/-- The locations of the files of a package below its root. -/
def places (target : Target) : List (List String) :=
  MotionGroup.all.flatMap fun group =>
    ((if target.isPython then ["__init__.py"] else []) ++
      GroupOperation.all.map (fileName · target)).map fun name => [group.name, name]

theorem map_place_files (root : Path) (target : Target) :
    (files root target).map (·.1.place) = (places target).map (root.place ++ ·) := by
  rw [files, places, List.map_flatMap, List.map_flatMap]
  congr 1
  funext group
  have initPlace : (initPath root group).place = root.place ++ [group.name, "__init__.py"] :=
    place_directory_join root group (by decide)
  have filePlace (operation : GroupOperation) : (filePath root group operation target).place =
      root.place ++ [group.name, fileName operation target] :=
    place_directory_join root group (isName_fileName operation target)
  rw [groupFiles, initFile]
  cases target.isPython <;> simp [operationFile, initPlace, filePlace]

/-- No two files of a package have the same place. -/
theorem nodup_places (root : Path) (target : Target) :
    ((files root target).map (·.1.place)).Nodup := by
  rw [map_place_files]
  refine List.Nodup.map (List.append_right_injective root.place) ?_
  cases target <;> decide

/-! ## Writing -/

variable {tree changed : FileTree}

theorem accessing_eq_ok_iff {α : Type} {path : Path} {access : Access Refusal α} {result : α} :
    accessing path access tree = .ok result changed ↔ access tree = .ok result changed :=
  Access.reporting_eq_ok_iff

theorem stores_of_writeFile {path written : Path} {text : String}
    (done : writeFile path text tree = .ok written changed) :
    written = path ∧ tree.Stores [(path, text.toUTF8)] changed := by
  obtain ⟨_, _, accessed, returned⟩ := Access.bind_eq_ok_iff.mp done
  obtain ⟨rfl, rfl⟩ := Access.pure_eq_ok_iff.mp returned
  have stored := Access.change_eq_ok_iff.mp (accessing_eq_ok_iff.mp accessed)
  exact ⟨rfl, FileTree.stores_of_withFile stored⟩

theorem writeOperation_eq (root : Path) (target : Target) (group : MotionGroup)
    (operation : GroupOperation) :
    writeOperation root target group operation =
      writeFile (filePath root group operation target) (sourceText group operation target) := by
  rw [writeOperation, fileText_eq]
  rfl

theorem stores_of_writeOperation {group : MotionGroup} {operation : GroupOperation}
    {written : Path}
    (done : writeOperation root target group operation tree = .ok written changed) :
    written = filePath root group operation target ∧
      tree.Stores [operationFile root target group operation] changed := by
  rw [writeOperation_eq] at done
  exact stores_of_writeFile done

theorem stores_of_writeInit {group : MotionGroup} {written : List Path}
    (done : writeInit root target group tree = .ok written changed) :
    written = (initFile root target group).map Prod.fst ∧
      tree.Stores (initFile root target group) changed := by
  rw [writeInit] at done
  rw [initFile]
  split_ifs at done ⊢
  · obtain ⟨path, _, wrote, returned⟩ := Access.bind_eq_ok_iff.mp done
    obtain ⟨rfl, rfl⟩ := Access.pure_eq_ok_iff.mp returned
    obtain ⟨rfl, stored⟩ := stores_of_writeFile wrote
    exact ⟨rfl, stored⟩
  · obtain ⟨rfl, rfl⟩ := Access.pure_eq_ok_iff.mp done
    exact ⟨rfl, .refl tree⟩

/-- The directory of a group is made first, then its files are written in order. -/
theorem stores_of_writeGroup {group : MotionGroup} {written : List Path}
    (apart : ((groupFiles root target group).map (·.1.place)).Nodup)
    (done : writeGroup root target group tree = .ok written changed) :
    written = (groupFiles root target group).map Prod.fst ∧
      tree.Stores (groupFiles root target group) changed := by
  obtain ⟨_, made, accessed, done⟩ := Access.bind_eq_ok_iff.mp done
  obtain ⟨initPaths, middle, wroteInit, done⟩ := Access.bind_eq_ok_iff.mp done
  obtain ⟨operationPaths, _, wroteOperations, returned⟩ := Access.bind_eq_ok_iff.mp done
  obtain ⟨rfl, rfl⟩ := Access.pure_eq_ok_iff.mp returned
  rw [groupFiles, List.map_append, List.nodup_append] at apart
  have directories := FileTree.stores_of_makeDirectories (accessing_eq_ok_iff.mp accessed)
  obtain ⟨rfl, initStored⟩ := stores_of_writeInit wroteInit
  have each : ∀ operation ∈ GroupOperation.all, ∀ value tree changed,
      writeOperation root target group operation tree = .ok value changed →
        value = filePath root group operation target ∧
          tree.Stores [operationFile root target group operation] changed :=
    fun _ _ _ _ _ => stores_of_writeOperation
  have singles : GroupOperation.all.flatMap (fun operation =>
      [operationFile root target group operation]) =
        GroupOperation.all.map (operationFile root target group) :=
    List.flatMap_pure_eq_map _ _
  obtain ⟨rfl, operationsStored⟩ := Access.stores_of_mapM each (singles ▸ apart.2.1)
    wroteOperations
  rw [singles] at operationsStored
  have initThenOperations := initStored.trans operationsStored fun entry member again =>
    apart.2.2 _ (List.mem_map_of_mem member) _ again rfl
  refine ⟨?_, directories.trans initThenOperations fun _ member =>
    absurd member List.not_mem_nil⟩
  simp [groupFiles, operationFile, Function.comp_def]

/-- Writing a package stores its files. -/
theorem stores_of_write {paths : List Path} (done : write root target tree = .ok paths changed) :
    paths = (files root target).map Prod.fst ∧ tree.Stores (files root target) changed := by
  obtain ⟨written, _, wrote, returned⟩ := Access.bind_eq_ok_iff.mp done
  obtain ⟨rfl, rfl⟩ := Access.pure_eq_ok_iff.mp returned
  have apart := nodup_places root target
  have eachApart : ∀ group ∈ MotionGroup.all,
      ((groupFiles root target group).map (·.1.place)).Nodup := by
    rw [files, List.map_flatMap, List.nodup_flatMap] at apart
    exact apart.1
  have each : ∀ group ∈ MotionGroup.all, ∀ value tree changed,
      writeGroup root target group tree = .ok value changed →
        value = (groupFiles root target group).map Prod.fst ∧
          tree.Stores (groupFiles root target group) changed :=
    fun group member _ _ _ => stores_of_writeGroup (eachApart group member)
  obtain ⟨rfl, stored⟩ := Access.stores_of_mapM each apart wrote
  exact ⟨by rw [files, List.map_flatMap]; rfl, stored⟩

theorem operationFile_mem_files (group : MotionGroup) (operation : GroupOperation) :
    operationFile root target group operation ∈ files root target :=
  List.mem_flatMap.mpr ⟨group, group.mem_all,
    List.mem_append_right _ (List.mem_map_of_mem operation.mem_all)⟩

/-- A package that has been written can be loaded.  Its paths are listed group by group, the
file that makes the directory a package (in Python) before the files of the operations, and
they lead to different places.  Each file loads as the text of its operation, and no other file
is created, changed or removed. -/
theorem loadOperation_of_write {paths : List Path}
    (written : write root target tree = .ok paths changed) :
    paths.Nodup ∧ (paths.map Path.place).Nodup ∧
      paths = MotionGroup.all.flatMap (fun group =>
        (if target.isPython then [initPath root group] else []) ++
          GroupOperation.all.map (filePath root group · target)) ∧
      (∀ group operation, ∃ text, fileText group operation target = .ok text ∧
        loadOperation root group operation target changed = .ok text changed) ∧
      (∀ location, location ∉ paths.map Path.place → ∀ data,
        changed.find? location = some (.file data) ↔
          tree.find? location = some (.file data)) := by
  obtain ⟨rfl, stored⟩ := stores_of_write written
  have apart := nodup_places root target
  have placesOf : ((files root target).map Prod.fst).map Path.place =
      (files root target).map (·.1.place) := List.map_map
  rw [placesOf]
  refine ⟨List.Nodup.of_map Path.place (placesOf ▸ apart), apart, ?_, ?_, ?_⟩
  · rw [files, List.map_flatMap]
    congr 1
    funext group
    rw [groupFiles, initFile]
    cases target.isPython <;> simp [operationFile]
  · intro group operation
    have read := stored.readBack _ (operationFile_mem_files group operation)
    exact ⟨_, fileText_eq group operation target, accessing_eq_ok_iff.mpr
      (Access.query_eq_ok_iff.mpr ⟨FileTree.textOf_eq_ok read, rfl⟩)⟩
  · intro location outside data
    rw [← FileTree.occupant_eq_file_iff, ← FileTree.occupant_eq_file_iff]
    exact stored.file_iff outside data

/-- A directory with an old package in it, and a file next to it that is no text. -/
def populated : FileTree :=
  ⟨[("notes", .file ⟨#[255, 0]⟩),
    ("out", .directory [
      ("rot2", .directory [("__init__.py", .file ⟨#[1]⟩), ("kept.py", .file ⟨#[2]⟩)])])]⟩

/-- The texts are left as they are, since only their places decide whether they are written. -/
theorem exists_write_populated :
    ∃ paths changed, write ⟨["out", ""]⟩ .python3 populated = .ok paths changed := by
  have unfolded : writeOperation ⟨["out", ""]⟩ .python3 = fun group operation =>
      writeFile (filePath ⟨["out", ""]⟩ group operation .python3)
        (sourceText group operation .python3) :=
    funext fun group => funext fun operation => writeOperation_eq _ _ group operation
  unfold write writeGroup
  rw [unfolded]
  exact ⟨_, _, rfl⟩

theorem loadOperation_of_write_populated :
    ∃ paths changed, write ⟨["out", ""]⟩ .python3 populated = .ok paths changed ∧
      paths.Nodup ∧ paths.length = 36 ∧
      (∀ group operation, ∃ text, fileText group operation .python3 = .ok text ∧
        loadOperation ⟨["out", ""]⟩ group operation .python3 changed = .ok text changed) ∧
      changed.find? ["notes"] = some (.file ⟨#[255, 0]⟩) ∧
      changed.find? ["out", "rot2", "kept.py"] = some (.file ⟨#[2]⟩) := by
  obtain ⟨paths, changed, written⟩ := exists_write_populated
  obtain ⟨apart, -, listed, loads, elsewhere⟩ := loadOperation_of_write written
  subst listed
  exact ⟨_, changed, written, apart, by decide, loads,
    (elsewhere ["notes"] (by decide +kernel) _).mpr rfl,
    (elsewhere ["out", "rot2", "kept.py"] (by decide +kernel) _).mpr rfl⟩

end Package

end LieScribe
