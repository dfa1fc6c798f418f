import LieScribe.Proofs.Snapshots.Obstacles

/-!
# Comparing snapshots

A comparison looks at the files below two paths, found by a walk, and reads them through joined
paths.  Here its outcome is told from the files alone (`Snapshot.fileBelow?`): the walk misses no
file and repeats none, a joined path reads the file it was made for unless it is too long, and
bytes are compared, not the texts that they stand for.
-/

namespace LieScribe

theorem Path.ofNames_of_ne_nil {names : List String} (someName : names ≠ []) :
    Path.ofNames names = ⟨names⟩ := by
  cases names with
  | nil => exact absurd rfl someName
  | cons name names => rfl

namespace FileTree

variable {tree : FileTree} {path : Path} {names : List String}

theorem checkPath_eq_tooLong
    (endless : ∀ segment ∈ path.segments, '\x00' ∉ segment.toList)
    (leads : path.segments ≠ []) (notEmpty : path ≠ Path.empty)
    (long : pathLimit < path.text.utf8ByteSize) : checkPath path = .error .tooLong := by
  have noEnd : ¬ path.segments.any (·.toList.contains '\x00') = true := by
    simpa using endless
  rw [checkPath, if_neg noEnd, if_neg (by simp [leads, notEmpty]), if_pos long]

theorem data_eq_error_of_checkPath {refusal : Refusal}
    (refused : checkPath path = .error refusal) : tree.data path = .error refusal := by
  simp [data, node, locate, refused, bind, Except.bind]

/-- Names below a path that is not refused can only be too long together with it. -/
theorem checkPath_join_eq (checked : checkPath path = .ok ()) (someName : names ≠ [])
    (areNames : ∀ name ∈ names, IsName name) :
    checkPath (path.join (Path.ofNames names)) =
      if (path.join (Path.ofNames names)).text.utf8ByteSize ≤ pathLimit then .ok ()
      else .error .tooLong := by
  obtain ⟨endless, -, notEmpty, -⟩ := checkPath_eq_ok_iff.mp checked
  obtain ⟨front, name, rfl⟩ := names.eq_nil_or_concat'.resolve_left someName
  have joined : path.join (Path.ofNames (front ++ [name])) = ⟨path.base ++ (front ++ [name])⟩ := by
    rw [Path.join_eq notEmpty]
    cases front <;> rfl
  have baseEndless : ∀ segment ∈ path.base, '\x00' ∉ segment.toList := fun segment member => by
    refine endless segment ?_
    rcases path.segments_eq_base_or with equal | equal
    · rwa [equal]
    · exact equal ▸ List.mem_append_left _ member
  have allEndless : ∀ segment ∈ path.base ++ (front ++ [name]), '\x00' ∉ segment.toList :=
    List.forall_mem_append.mpr
      ⟨baseEndless, fun segment member => (areNames segment member).endless⟩
  have leads : path.base ++ (front ++ [name]) ≠ [] := by simp
  have named : Path.mk (path.base ++ (front ++ [name])) ≠ Path.empty := by
    intro equal
    have last := congrArg (fun other : Path => other.segments.getLast?) equal
    rw [← List.append_assoc] at last
    exact Path.ne_blank_of_isName (areNames name (by simp)) (by simpa [Path.empty] using last)
  rw [joined]
  split
  · next short => exact checkPath_eq_ok_iff.mpr ⟨allEndless, leads, named, short⟩
  · next long => exact checkPath_eq_tooLong allEndless leads named (not_le.mp long)

/-- Names below a directory lead to what stands there when they are joined to its path. -/
theorem follow_join_ofNames (isDirectory : tree.isDirectory path = true) (someName : names ≠ [])
    (areNames : ∀ name ∈ names, IsName name)
    (stands : tree.occupant (path.place ++ names) ≠ .nothing) :
    tree.follow [] (path.join (Path.ofNames names)).segments = .ok (path.place ++ names) := by
  obtain ⟨checked, followed, -⟩ := isDirectory_eq_true_iff.mp isDirectory
  have parent := occupant_dropLast_eq_directory someName stands
  rw [Path.join_eq (checkPath_eq_ok_iff.mp checked).2.2.1, Path.ofNames_of_ne_nil someName]
  exact follow_append_eq_ok_iff.mpr
    ⟨path.place, follow_base followed, follow_names areNames (.inr parent)⟩

end FileTree

namespace Snapshot

variable {tree : FileTree} {path actual expected : Path} {names : List String}

/-! ## The files below a path -/

/-- The bytes of the file that names lead to from a path. -/
def fileBelow? (tree : FileTree) (path : Path) (names : List String) : Option ByteArray :=
  match tree.node path with
  | .error _ => none
  | .ok node =>
      match node.find? names with
      | some (.file data) => some data
      | _ => none

theorem fileBelow?_eq_some_iff {data : ByteArray} :
    fileBelow? tree path names = some data ↔
      ∃ node, tree.node path = .ok node ∧ node.find? names = some (.file data) := by
  rw [fileBelow?]
  cases tree.node path with
  | error refusal =>
      simp
  | ok node =>
      simp only [Except.ok.injEq, exists_eq_left']
      rcases node.find? names with _ | _ | _ <;> simp

/-- The walk lists exactly the files. -/
theorem mem_locations_iff_isSome (wellFormed : tree.WellFormed) :
    names ∈ locations tree path ↔ (fileBelow? tree path names).isSome = true := by
  rw [Option.isSome_iff_exists]
  simp only [fileBelow?_eq_some_iff]
  rw [locations]
  cases found : tree.node path with
  | error refusal =>
      simp
  | ok node =>
      obtain ⟨-, location, -, isNode⟩ := FileTree.node_eq_ok_iff.mp found
      simp [Node.mem_files_iff (wellFormed.of_find? isNode).2]

/-- A path with files below it is there. -/
theorem isDirectory_of_fileBelow? {data : ByteArray}
    (isRoot : tree.isDirectory path = true ∨ tree.isPresent path = false)
    (found : fileBelow? tree path names = some data) : tree.isDirectory path = true := by
  refine isRoot.resolve_right fun missing => ?_
  obtain ⟨node, present, -⟩ := fileBelow?_eq_some_iff.mp found
  simp [FileTree.isPresent, present] at missing

/-- Is the path to a file short enough to be followed? -/
def IsShort (path : Path) (names : List String) : Prop :=
  (path.join (Path.ofNames names)).text.utf8ByteSize ≤ FileTree.pathLimit

instance (path : Path) (names : List String) : Decidable (IsShort path names) :=
  inferInstanceAs (Decidable (_ ≤ _))

/-- A joined path reads the file that it was made for, unless it is too long. -/
theorem data_join {data : ByteArray} (wellFormed : tree.WellFormed)
    (isDirectory : tree.isDirectory path = true)
    (found : fileBelow? tree path names = some data) :
    tree.data (path.join (Path.ofNames names)) =
      if IsShort path names then .ok data else .error .tooLong := by
  have listed : names ∈ locations tree path :=
    (mem_locations_iff_isSome wellFormed).mpr (by rw [found]; rfl)
  have someName := ne_nil_of_isDirectory wellFormed isDirectory listed
  have areNames := isName_of_mem_locations wellFormed listed
  obtain ⟨checked, -, -⟩ := FileTree.isDirectory_eq_true_iff.mp isDirectory
  have joinedCheck := FileTree.checkPath_join_eq checked someName areNames
  have isFile : tree.occupant (path.place ++ names) = .file data := by
    obtain ⟨node, present, isFile⟩ := fileBelow?_eq_some_iff.mp found
    obtain ⟨-, location, reached, isNode⟩ := FileTree.node_eq_ok_iff.mp present
    obtain rfl : location = path.place := FileTree.eq_foldl_step_of_follow reached
    rw [FileTree.occupant_eq_file_iff, FileTree.find?_append, isNode]
    exact isFile
  split
  · next short =>
      have reached := FileTree.follow_join_ofNames isDirectory someName areNames
        (FileTree.ne_nothing_of_file isFile)
      have placed := path.place_join_ofNames areNames
      exact FileTree.data_eq_ok_iff.mpr
        ⟨joinedCheck.trans (if_pos short), placed ▸ reached, placed ▸ isFile⟩
  · next long =>
      exact FileTree.data_eq_error_of_checkPath (joinedCheck.trans (if_neg long))

/-! ## File by file -/

/-- What is reported of a file that stands on both sides.  It is read on the side of `actual`
first. -/
def fileFault? (tree : FileTree) (actual expected : Path) (names : List String) :
    Option SnapshotFault :=
  match fileBelow? tree actual names, fileBelow? tree expected names with
  | some generated, some kept =>
      if ¬ IsShort actual names then
        some (.inaccessible (actual.join (Path.ofNames names)) .tooLong)
      else if ¬ IsShort expected names then
        some (.inaccessible (expected.join (Path.ofNames names)) .tooLong)
      else if generated.data = kept.data then
        none
      else
        some (.contentMismatch (expected.join (Path.ofNames names))
          (LineDiff.report (Utf8.decode kept) (Utf8.decode generated)))
  | _, _ => none

theorem accessing_read_of_error {refusal : Refusal} (refused : tree.data path = .error refusal) :
    accessing path (Access.read path) tree = .error (.inaccessible path refusal) tree := by
  refine Access.reporting_of_error _ ?_
  rw [Access.read, Access.query, refused]

/-- The first file with a fault decides. -/
theorem compareAll_eq {files : List (List String)} (wellFormed : tree.WellFormed)
    (isActual : tree.isDirectory actual = true ∨ tree.isPresent actual = false)
    (isExpected : tree.isDirectory expected = true ∨ tree.isPresent expected = false)
    (onBoth : ∀ names ∈ files, (fileBelow? tree actual names).isSome = true ∧
      (fileBelow? tree expected names).isSome = true) :
    compareAll actual expected (files.map Path.ofNames) tree =
      match files.findSome? (fileFault? tree actual expected) with
      | none => .ok () tree
      | some fault => .error fault tree := by
  induction files with
  | nil =>
      rfl
  | cons names others inductionHypothesis =>
      rw [List.forall_mem_cons] at onBoth
      obtain ⟨⟨isGenerated, isKept⟩, later⟩ := onBoth
      obtain ⟨generated, foundActual⟩ := Option.isSome_iff_exists.mp isGenerated
      obtain ⟨kept, foundExpected⟩ := Option.isSome_iff_exists.mp isKept
      have readActual := data_join wellFormed
        (isDirectory_of_fileBelow? isActual foundActual) foundActual
      have readExpected := data_join wellFormed
        (isDirectory_of_fileBelow? isExpected foundExpected) foundExpected
      rw [List.findSome?_cons, fileFault?, foundActual, foundExpected, List.map_cons]
      by_cases shortActual : IsShort actual names
      · rw [if_pos shortActual] at readActual
        refine (Access.bind_of_ok (accessing_read readActual) _).trans ?_
        by_cases shortExpected : IsShort expected names
        · rw [if_pos shortExpected] at readExpected
          refine (Access.bind_of_ok (accessing_read readExpected) _).trans ?_
          by_cases same : generated = kept
          · simpa [shortActual, shortExpected, same] using inductionHypothesis later
          · have otherBytes : generated.data ≠ kept.data := mt ByteArray.ext same
            simp only [shortActual, shortExpected, same, otherBytes, not_true_eq_false, if_false]
            rfl
        · rw [if_neg shortExpected] at readExpected
          refine (Access.bind_of_error (accessing_read_of_error readExpected) _).trans ?_
          simp [shortActual, shortExpected]
      · rw [if_neg shortActual] at readActual
        refine (Access.bind_of_error (accessing_read_of_error readActual) _).trans ?_
        simp [shortActual]

theorem exists_fileBelow?_of_fileFault? {fault : SnapshotFault}
    (faulty : fileFault? tree actual expected names = some fault) :
    (fileBelow? tree actual names).isSome = true := by
  rw [fileFault?] at faulty
  split at faulty
  · next found _ => rw [found]; rfl
  · contradiction

/-- A file has no fault if both sides have its bytes and can be read. -/
theorem fileFault?_eq_none_iff {generated kept : ByteArray}
    (foundActual : fileBelow? tree actual names = some generated)
    (foundExpected : fileBelow? tree expected names = some kept) :
    fileFault? tree actual expected names = none ↔
      generated = kept ∧ IsShort actual names ∧ IsShort expected names := by
  rw [fileFault?, foundActual, foundExpected]
  by_cases shortActual : IsShort actual names
  · by_cases shortExpected : IsShort expected names
    · simp [shortActual, shortExpected, ByteArray.ext_iff]
    · simp [shortActual, shortExpected]
  · simp [shortActual]

/-! ## Walk order -/

/-- The locations that meet a condition, in the order of a walk. -/
structure Enumerates (listed : List (List String)) (meets : List String → Prop) : Prop where
  ordered : listed.Pairwise (· < ·)
  mem_iff : ∀ names, names ∈ listed ↔ meets names

theorem enumerates_locations (wellFormed : tree.WellFormed) (path : Path) :
    Enumerates (locations tree path) fun names => (fileBelow? tree path names).isSome = true :=
  ⟨pairwise_locations wellFormed, fun _ => mem_locations_iff_isSome wellFormed⟩

theorem enumerates_stale (wellFormed : tree.WellFormed) (actual expected : Path) :
    Enumerates (stale tree actual expected) fun names =>
      fileBelow? tree actual names = none ∧ (fileBelow? tree expected names).isSome = true := by
  refine ⟨(pairwise_locations wellFormed).filter _, fun names => ?_⟩
  rw [stale, List.mem_filter, decide_eq_true_iff, mem_locations_iff_isSome wellFormed,
    mem_locations_iff_isSome wellFormed, Option.not_isSome_iff_eq_none, and_comm]

namespace Enumerates

variable {listed : List (List String)} {meets : List String → Prop}
variable {fault? : List String → Option SnapshotFault}

/-- What is before a location in order is before it on the walk. -/
theorem eq_none_of_lt {front back : List (List String)} (enumerates : Enumerates listed meets)
    (onlyListed : ∀ names fault, fault? names = some fault → meets names)
    (split : listed = front ++ names :: back) (sound : ∀ other ∈ front, fault? other = none) :
    ∀ earlier < names, fault? earlier = none := by
  intro earlier before
  by_contra faulty
  obtain ⟨other, isFault⟩ := Option.ne_none_iff_exists'.mp faulty
  have member := (enumerates.mem_iff earlier).mpr (onlyListed earlier other isFault)
  rw [split, List.mem_append, List.mem_cons] at member
  rcases member with inFront | rfl | inBack
  · exact faulty (sound earlier inFront)
  · exact lt_irrefl earlier before
  · have ordered := (List.pairwise_append.mp (split ▸ enumerates.ordered)).2.1
    exact lt_asymm before (List.rel_of_pairwise_cons ordered inBack)

/-- The fault that a walk meets first is that of the least location with a fault. -/
theorem findSome?_eq_some_iff (enumerates : Enumerates listed meets)
    (onlyListed : ∀ names fault, fault? names = some fault → meets names)
    {fault : SnapshotFault} :
    listed.findSome? fault? = some fault ↔
      ∃ names, fault? names = some fault ∧ ∀ earlier < names, fault? earlier = none := by
  constructor
  · intro found
    obtain ⟨front, names, back, split, isFault, sound⟩ := List.findSome?_eq_some_iff.mp found
    exact ⟨names, isFault, enumerates.eq_none_of_lt onlyListed split sound⟩
  · rintro ⟨names, isFault, sound⟩
    have member := (enumerates.mem_iff names).mpr (onlyListed names fault isFault)
    obtain ⟨other, met⟩ : ∃ other, listed.findSome? fault? = some other := by
      rw [← Option.isSome_iff_exists, List.findSome?_isSome_iff]
      exact ⟨names, member, by rw [isFault]; rfl⟩
    obtain ⟨front, first, back, split, isOther, soundFront⟩ := List.findSome?_eq_some_iff.mp met
    have soundBefore := enumerates.eq_none_of_lt onlyListed split soundFront
    rcases lt_trichotomy first names with before | rfl | after
    · rw [sound first before] at isOther
      contradiction
    · rw [met, ← isOther, isFault]
    · rw [soundBefore names after] at isFault
      contradiction

end Enumerates

/-! ## The outcome -/

/-- The two sides have files at the same locations. -/
def SameFiles (tree : FileTree) (actual expected : Path) : Prop :=
  ∀ names, (fileBelow? tree actual names).isSome = (fileBelow? tree expected names).isSome

theorem sameFiles_iff (wellFormed : tree.WellFormed) :
    SameFiles tree actual expected ↔ stale tree expected actual = [] ∧
      stale tree actual expected = [] := by
  have emptied (one other : Path) : stale tree one other = [] ↔
      ∀ names, (fileBelow? tree other names).isSome = true →
        (fileBelow? tree one names).isSome = true := by
    rw [List.eq_nil_iff_forall_not_mem]
    refine forall_congr' fun names => ?_
    rw [(enumerates_stale wellFormed one other).mem_iff, ← Option.not_isSome_iff_eq_none]
    tauto
  rw [emptied, emptied, SameFiles, ← forall_and]
  exact forall_congr' fun names => Bool.eq_iff_iff.trans iff_iff_implies_and_implies

/-- Files on one side only are reported first; otherwise the first file with a fault is. -/
theorem compareDirectory_eq (wellFormed : tree.WellFormed)
    (isActual : tree.isDirectory actual = true ∨ tree.isPresent actual = false)
    (isExpected : tree.isDirectory expected = true ∨ tree.isPresent expected = false) :
    (SameFiles tree actual expected → compareDirectory actual expected tree =
      match (locations tree actual).findSome? (fileFault? tree actual expected) with
      | none => .ok () tree
      | some fault => .error fault tree) ∧
    (¬ SameFiles tree actual expected → compareDirectory actual expected tree =
      .error (.fileSetMismatch expected ((stale tree expected actual).map Path.ofNames)
        ((stale tree actual expected).map Path.ofNames)) tree) := by
  rw [compareDirectory, Access.get_bind]
  simp only [map_stale wellFormed, sameFiles_iff wellFormed]
  constructor
  · rintro ⟨noActual, noExpected⟩
    have same := (sameFiles_iff wellFormed).mpr ⟨noActual, noExpected⟩
    rw [noActual, noExpected, filesBelow_eq]
    refine compareAll_eq wellFormed isActual isExpected fun names listed => ?_
    have isSome := (mem_locations_iff_isSome wellFormed).mp listed
    exact ⟨isSome, same names ▸ isSome⟩
  · intro different
    rw [if_neg (by simpa using different)]
    rfl

/-- All files are without fault if they have the same bytes and can be read. -/
theorem findSome?_fileFault?_eq_none_iff (wellFormed : tree.WellFormed)
    (same : SameFiles tree actual expected) :
    (locations tree actual).findSome? (fileFault? tree actual expected) = none ↔
      (∀ names, fileBelow? tree actual names = fileBelow? tree expected names) ∧
        ∀ names, (fileBelow? tree actual names).isSome = true →
          IsShort actual names ∧ IsShort expected names := by
  rw [List.findSome?_eq_none_iff, ← forall_and]
  refine forall_congr' fun names => ?_
  rw [mem_locations_iff_isSome wellFormed]
  have onBoth := same names
  cases foundActual : fileBelow? tree actual names with
  | none =>
      cases foundExpected : fileBelow? tree expected names with
      | none => simp
      | some kept => simp [foundActual, foundExpected] at onBoth
  | some generated =>
      cases foundExpected : fileBelow? tree expected names with
      | none => simp [foundActual, foundExpected] at onBoth
      | some kept => simp [fileFault?_eq_none_iff foundActual foundExpected]

/-- A comparison of directories succeeds if and only if both sides have the same files with the
same bytes and no path to a file is too long.  If the files differ, those on one side only are
reported in walk order.  Otherwise the first file in walk order that has other bytes, or cannot be
read, is. -/
theorem compareDirectory_exact (wellFormed : tree.WellFormed)
    (isActual : tree.isDirectory actual = true ∨ tree.isPresent actual = false)
    (isExpected : tree.isDirectory expected = true ∨ tree.isPresent expected = false) :
    (compareDirectory actual expected tree = .ok () tree ↔
      (∀ names, fileBelow? tree actual names = fileBelow? tree expected names) ∧
        ∀ names, (fileBelow? tree actual names).isSome = true →
          IsShort actual names ∧ IsShort expected names) ∧
    (¬ SameFiles tree actual expected →
      ∃ onlyActual onlyExpected,
        Enumerates onlyActual (fun names =>
          fileBelow? tree expected names = none ∧ (fileBelow? tree actual names).isSome = true) ∧
        Enumerates onlyExpected (fun names =>
          fileBelow? tree actual names = none ∧ (fileBelow? tree expected names).isSome = true) ∧
        compareDirectory actual expected tree =
          .error (.fileSetMismatch expected (onlyActual.map Path.ofNames)
            (onlyExpected.map Path.ofNames)) tree) ∧
    (SameFiles tree actual expected → ∀ fault,
      compareDirectory actual expected tree = .error fault tree ↔
        ∃ names, fileFault? tree actual expected names = some fault ∧
          ∀ earlier < names, fileFault? tree actual expected earlier = none) := by
  obtain ⟨ofSame, ofDifferent⟩ := compareDirectory_eq wellFormed isActual isExpected
  refine ⟨?_, fun different => ?_, fun same fault => ?_⟩
  · by_cases same : SameFiles tree actual expected
    · rw [ofSame same, ← findSome?_fileFault?_eq_none_iff wellFormed same]
      cases (locations tree actual).findSome? (fileFault? tree actual expected) <;> simp
    · rw [ofDifferent same]
      refine iff_of_false (by simp) fun ⟨equal, _⟩ => same fun names => ?_
      rw [equal names]
  · exact ⟨_, _, enumerates_stale wellFormed expected actual,
      enumerates_stale wellFormed actual expected, ofDifferent different⟩
  · rw [ofSame same, ← (enumerates_locations wellFormed actual).findSome?_eq_some_iff
      fun names fault => exists_fileBelow?_of_fileFault?]
    cases (locations tree actual).findSome? (fileFault? tree actual expected) <;> simp

/-- Bytes that are no text, and that would be shown as the same text. -/
def garbled : FileTree :=
  ⟨[("a", .directory [("deep", .directory [("x", .file ⟨#[255]⟩)]), ("y", .file ⟨#[1]⟩)]),
    ("e", .directory [("deep", .directory [("x", .file ⟨#[254]⟩)]), ("y", .file ⟨#[2]⟩)])]⟩

theorem wellFormed_garbled : garbled.WellFormed := by
  decide

/-- Of two files that differ the first is reported, by its bytes. -/
theorem compareDirectory_exact_garbled :
    garbled.WellFormed ∧ SameFiles garbled ⟨["a"]⟩ ⟨["e"]⟩ ∧
      Utf8.decode ⟨#[254]⟩ = Utf8.decode ⟨#[255]⟩ ∧
      ∃ names,
        fileFault? garbled ⟨["a"]⟩ ⟨["e"]⟩ names =
          some (.contentMismatch ⟨["e", "deep", "x"]⟩
            (LineDiff.report (Utf8.decode ⟨#[254]⟩) (Utf8.decode ⟨#[255]⟩))) ∧
        ∀ earlier < names, fileFault? garbled ⟨["a"]⟩ ⟨["e"]⟩ earlier = none := by
  have same : SameFiles garbled ⟨["a"]⟩ ⟨["e"]⟩ := (sameFiles_iff wellFormed_garbled).mpr ⟨rfl, rfl⟩
  exact ⟨wellFormed_garbled, same, by decide +kernel,
    ((compareDirectory_exact wellFormed_garbled (.inl rfl) (.inl rfl)).2.2 same _).mp rfl⟩

/-! ## Paths that are too long -/

theorem follow_idle {here segments : List String} (isDirectory : tree.occupant here = .directory)
    (idle : ∀ segment ∈ segments, Path.isIdle segment = true) :
    tree.follow here segments = .ok here := by
  induction segments with
  | nil =>
      rfl
  | cons segment others inductionHypothesis =>
      rw [List.forall_mem_cons] at idle
      have stays : Path.step here segment = here := if_pos idle.1
      rw [FileTree.follow_cons_eq_ok_iff, stays]
      exact ⟨isDirectory, FileTree.size_le_of_isIdle idle.1, inductionHypothesis idle.2⟩

theorem size_text_cons_replicate (first : String) (count : Nat) :
    (Path.text ⟨first :: List.replicate count "."⟩).utf8ByteSize =
      first.utf8ByteSize + 2 * count := by
  induction count generalizing first with
  | zero =>
      simp [Path.text]
  | succ count inductionHypothesis =>
      have longer := Path.size_text_append (List.cons_ne_nil first [])
        (List.cons_ne_nil "." (List.replicate count "."))
      have dot : ".".utf8ByteSize = 1 := by decide
      have alone : (Path.text ⟨[first]⟩).utf8ByteSize = first.utf8ByteSize := by simp [Path.text]
      rw [inductionHypothesis, alone, dot] at longer
      rw [List.replicate_succ, ← List.singleton_append, longer]
      omega

/-- A name close to the longest. -/
def longName : String :=
  String.ofList (List.replicate 250 'n')

/-- The same file on both sides. -/
def identical : FileTree :=
  ⟨[("a", .directory [(longName, .file ⟨#[49]⟩)]), ("e", .directory [(longName, .file ⟨#[49]⟩)])]⟩

/-- A path to the kept side that leaves no room for the name. -/
def winding : Path :=
  ⟨"e" :: List.replicate 1950 "."⟩

theorem size_longName : longName.utf8ByteSize = 250 := by
  decide +kernel

theorem isName_longName : IsName longName := by
  decide +kernel

theorem wellFormed_identical : identical.WellFormed := by
  simp only [identical, FileTree.WellFormed, Node.wellFormed_directory_iff, Node.wellFormed_file,
    List.forall_mem_cons, List.not_mem_nil, IsEmpty.forall_iff, implies_true, and_true,
    List.pairwise_singleton, isName_longName]
  decide

theorem forall_mem_winding {holds : String → Prop} (first : holds "e") (dot : holds ".") :
    ∀ segment ∈ winding.segments, holds segment :=
  List.forall_mem_cons.mpr ⟨first, fun _ member => List.eq_of_mem_replicate member ▸ dot⟩

theorem winding_ne_empty : winding ≠ Path.empty := fun equal =>
  absurd (List.cons_eq_cons.mp (congrArg Path.segments equal)).1 (by decide)

theorem node_winding :
    identical.node winding = .ok (.directory [(longName, .file ⟨#[49]⟩)]) := by
  have short : winding.text.utf8ByteSize ≤ FileTree.pathLimit := by
    have size := size_text_cons_replicate "e" 1950
    have one : "e".utf8ByteSize = 1 := by decide
    rw [winding, size, one, FileTree.pathLimit]
    omega
  have checked : FileTree.checkPath winding = .ok () :=
    FileTree.checkPath_eq_ok_iff.mpr
      ⟨forall_mem_winding (by decide) (by decide), List.cons_ne_nil _ _, winding_ne_empty, short⟩
  have idle : ∀ segment ∈ List.replicate 1950 ".", Path.isIdle segment = true :=
    fun segment member => List.eq_of_mem_replicate member ▸ rfl
  have followed : identical.follow [] winding.segments = .ok ["e"] :=
    FileTree.follow_cons_eq_ok_iff.mpr ⟨rfl, by decide, follow_idle rfl idle⟩
  exact FileTree.node_eq_ok_iff.mpr ⟨checked, ["e"], followed, rfl⟩

theorem not_isShort_winding : ¬ IsShort winding [longName] := by
  have joined : winding.join (Path.ofNames [longName]) = ⟨winding.segments ++ [longName]⟩ := by
    have notBlank : ∀ segment ∈ winding.segments, segment ≠ "" :=
      forall_mem_winding (by decide) (by decide)
    have noSlash : winding.segments.getLast? ≠ some "" := fun last =>
      notBlank "" (List.mem_of_getLast? last) rfl
    rw [Path.join, if_neg winding_ne_empty, if_neg noSlash]
    rfl
  have size := Path.size_text_append (List.cons_ne_nil "e" (List.replicate 1950 "."))
    (List.cons_ne_nil longName [])
  have alone : (Path.text ⟨[longName]⟩).utf8ByteSize = 250 := by
    simpa [Path.text] using size_longName
  rw [size_text_cons_replicate, alone] at size
  rw [IsShort, joined, winding, size, FileTree.pathLimit]
  omega

/-- The same file on both sides is not the same to a comparison that cannot read it. -/
theorem compareDirectory_winding :
    identical.isDirectory ⟨["a"]⟩ = true ∧ identical.isDirectory winding = true ∧
      (∀ names, fileBelow? identical ⟨["a"]⟩ names = fileBelow? identical winding names) ∧
      compareDirectory ⟨["a"]⟩ winding identical =
        .error (.inaccessible (winding.join ⟨[longName]⟩) .tooLong) identical := by
  have isActual : identical.isDirectory ⟨["a"]⟩ = true := rfl
  have isExpected : identical.isDirectory winding = true := by
    rw [FileTree.isDirectory, node_winding]
    rfl
  have equal (names : List String) :
      fileBelow? identical ⟨["a"]⟩ names = fileBelow? identical winding names := by
    rw [fileBelow?, fileBelow?, node_winding]
    rfl
  have faulty : fileFault? identical ⟨["a"]⟩ winding [longName] =
      some (.inaccessible (winding.join ⟨[longName]⟩) .tooLong) := by
    have foundActual : fileBelow? identical ⟨["a"]⟩ [longName] = some ⟨#[49]⟩ :=
      fileBelow?_eq_some_iff.mpr ⟨_, rfl, by simp [Node.find?, Node.entry?]⟩
    have shortActual : IsShort ⟨["a"]⟩ [longName] := by
      decide +kernel
    rw [fileFault?, ← equal, foundActual]
    simp [shortActual, not_isShort_winding, Path.ofNames]
  refine ⟨isActual, isExpected, equal, ?_⟩
  rw [(compareDirectory_eq wellFormed_identical (.inl isActual) (.inl isExpected)).1
    fun names => by rw [equal names]]
  have listed : locations identical ⟨["a"]⟩ = [[longName]] := rfl
  rw [listed, List.findSome?_cons, faulty]

end Snapshot

end LieScribe
