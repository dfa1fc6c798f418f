import LieScribe.Proofs.FileTree.Places
import LieScribe.Proofs.Outcome

/-!
# What accesses change

An access that is not refused changes what stands at the place of its path, and nothing else
(`FileTree.Replaces`).  A sequence of them that makes directories and writes files leaves the
files readable through their paths, and every other file as it was (`FileTree.Stores`).
-/

namespace LieScribe

/-! ## Outcomes of actions -/

namespace Access

variable {ε α β : Type} {tree final : FileTree}

theorem bind_eq_ok_iff {access : Access ε α} {next : α → Access ε β} {result : β} :
    (access >>= next) tree = .ok result final ↔
      ∃ value middle, access tree = .ok value middle ∧ next value middle = .ok result final := by
  change EStateM.bind access next tree = _ ↔ _
  rw [EStateM.bind]
  cases access tree <;> simp

theorem bind_of_ok {access : Access ε α} {value : α} {middle : FileTree}
    (done : access tree = .ok value middle) (next : α → Access ε β) :
    (access >>= next) tree = next value middle := by
  change EStateM.bind access next tree = _
  rw [EStateM.bind, done]

theorem bind_of_error {access : Access ε α} {fault : ε} {middle : FileTree}
    (refused : access tree = .error fault middle) (next : α → Access ε β) :
    (access >>= next) tree = .error fault middle := by
  change EStateM.bind access next tree = _
  rw [EStateM.bind, refused]

theorem get_bind (next : FileTree → Access ε α) : (get >>= next) tree = next tree tree := rfl

theorem pure_eq_ok_iff {value result : α} :
    (pure value : Access ε α) tree = .ok result final ↔ value = result ∧ tree = final := by
  change EStateM.Result.ok value tree = _ ↔ _
  simp

theorem reporting_eq_ok_iff {fault : Refusal → ε} {access : Access Refusal α} {result : α} :
    reporting fault access tree = .ok result final ↔ access tree = .ok result final := by
  rw [reporting, EStateM.adaptExcept]
  cases access tree <;> simp

theorem reporting_of_error (fault : Refusal → ε) {access : Access Refusal α} {refusal : Refusal}
    (refused : access tree = .error refusal final) :
    reporting fault access tree = .error (fault refusal) final := by
  rw [reporting, EStateM.adaptExcept, refused]

theorem query_eq_ok_iff {look : FileTree → Except Refusal α} {result : α} :
    query look tree = .ok result final ↔ look tree = .ok result ∧ tree = final := by
  rw [query]
  cases look tree <;> simp

theorem change_eq_ok_iff {update : FileTree → Except Refusal FileTree} :
    change update tree = .ok () final ↔ update tree = .ok final := by
  rw [change]
  cases update tree <;> simp

theorem makeDirectoriesWithin_succ (steps : Nat) (path : Path) (tree : FileTree) :
    makeDirectoriesWithin (steps + 1) path tree =
      if path = Path.empty then
        .ok () tree
      else
        match tree.withDirectory path with
        | .ok changed => .ok () changed
        | .error .notFound =>
            match path.parent? with
            | some parent =>
                (do
                  makeDirectoriesWithin steps parent
                  change (·.withDirectoryOnce path)) tree
            | none => .error .notFound tree
        | .error refusal =>
            if tree.isDirectory path then .ok () tree else .error refusal tree := rfl

end Access

namespace FileTree

variable {tree changed : FileTree} {path : Path} {location : List String}

/-! ## One change -/

/-- The second tree is the first with something else at one location. -/
structure Replaces (tree : FileTree) (location : List String) (new : Occupant)
    (changed : FileTree) : Prop where
  occupant : changed.occupant = Function.update tree.occupant location new
  wellFormed : tree.WellFormed → changed.WellFormed

/-- Of two things put at one location, the second stays. -/
theorem Replaces.trans {middle : FileTree} {new newer : Occupant}
    (first : tree.Replaces location new middle) (second : middle.Replaces location newer changed) :
    tree.Replaces location newer changed where
  occupant := by rw [second.occupant, first.occupant, Function.update_idem]
  wellFormed start := second.wellFormed (first.wellFormed start)

theorem follow_of_locateStem (located : tree.locateStem path = .ok location) :
    checkPath path = .ok () ∧ tree.follow [] path.stem = .ok location :=
  Outcome.check_eq_ok_iff.mp located

theorem mem_segments_of_mem_stem {segment : String} (member : segment ∈ path.stem) :
    segment ∈ path.segments := by
  obtain ⟨segments⟩ := path
  cases segments with
  | nil =>
      exact member
  | cons first others =>
      obtain ⟨back, split, -⟩ := Path.exists_eq_dropEnd_append (· == "") others
      rw [split, ← List.cons_append]
      exact List.mem_append_left back member

/-- A file, an empty directory or nothing can be assigned where a path leads to and no directory
is. -/
theorem replaces_assign (node? : Option Node)
    (located : tree.locateStem path = .ok location)
    (noDirectory : tree.occupant location ≠ .directory)
    (leaf : ∀ names, names ≠ [] → node?.bind (·.find? names) = none)
    (nodeWellFormed : ∀ node ∈ node?, node.WellFormed) :
    location = path.place ∧
      tree.Replaces location (Node.occupant node?) (tree.assign location node?) := by
  obtain ⟨checked, followed⟩ := follow_of_locateStem located
  have below : location ≠ [] := by
    rintro rfl
    exact noDirectory tree.occupant_top
  have reached := (directory_dropLast_of_follow (.inl rfl) followed).resolve_left below
  have endless := (checkPath_eq_ok_iff.mp checked).1
  have areNames := isName_of_follow
    (fun name member => absurd member List.not_mem_nil)
    (fun segment member => endless segment (mem_segments_of_mem_stem member)) followed
  exact ⟨(eq_foldl_step_of_follow followed).trans path.place_stem,
    occupant_assign_of_leaf below reached noDirectory leaf,
    fun wellFormed => wellFormed.assign areNames nodeWellFormed⟩

theorem find?_ne_directory (noDirectory : ∀ entries,
    tree.find? location ≠ some (.directory entries)) : tree.occupant location ≠ .directory := by
  rw [Ne, occupant_eq_directory_iff]
  exact fun ⟨entries, found⟩ => noDirectory entries found

theorem replaces_of_withFile {data : ByteArray} (written : tree.withFile path data = .ok changed) :
    checkPath path = .ok () ∧ tree.follow [] path.segments = .ok path.place ∧
      tree.occupant path.place ≠ .directory ∧ tree.Replaces path.place (.file data) changed := by
  obtain ⟨location, located, written⟩ := Outcome.bind_eq_ok_iff.mp written
  obtain ⟨checked, followed⟩ := follow_of_locateStem located
  split_ifs at written with slash
  split at written
  · contradiction
  · next noDirectory =>
      obtain ⟨rfl, replaces⟩ := replaces_assign (some (.file data)) located
        (find?_ne_directory noDirectory) (fun names some => by
          obtain ⟨name, names, rfl⟩ := List.exists_cons_of_ne_nil some
          rfl) (fun node member => Option.mem_some_iff.mp member ▸ .file data)
      rw [Path.stem_eq_segments (eq_false_of_ne_true slash)] at followed
      obtain rfl := Except.ok.inj written
      exact ⟨checked, followed, find?_ne_directory noDirectory, replaces⟩

theorem replaces_of_withoutFile (removed : tree.withoutFile path = .ok changed) :
    (∃ data, tree.occupant path.place = .file data) ∧ path.hasTrailingSlash = false ∧
      tree.Replaces path.place .nothing changed := by
  obtain ⟨location, located, removed⟩ := Outcome.bind_eq_ok_iff.mp removed
  split at removed
  · contradiction
  · contradiction
  · next data found =>
      split_ifs at removed with slash
      have isFile : tree.occupant location = .file data := occupant_eq_file_iff.mpr found
      obtain ⟨rfl, replaces⟩ := replaces_assign none located
        (by simp [isFile]) (fun names some => rfl) (fun node member => nomatch member)
      obtain rfl := Except.ok.inj removed
      exact ⟨⟨data, isFile⟩, eq_false_of_ne_true slash, replaces⟩

theorem replaces_of_withDirectory (made : tree.withDirectory path = .ok changed) :
    tree.occupant path.place = .nothing ∧ tree.Replaces path.place .directory changed := by
  obtain ⟨location, located, made⟩ := Outcome.bind_eq_ok_iff.mp made
  split at made
  · contradiction
  · next missing =>
      have free : tree.occupant location = .nothing := occupant_eq_nothing_iff.mpr missing
      obtain ⟨rfl, replaces⟩ := replaces_assign (some (.directory [])) located
        (by simp [free]) (fun names some => by
          obtain ⟨name, names, rfl⟩ := List.exists_cons_of_ne_nil some
          rfl) (fun node member => Option.mem_some_iff.mp member ▸ wellFormed_empty)
      obtain rfl := Except.ok.inj made
      exact ⟨free, replaces⟩

/-! ## Reading -/

theorem node_eq_ok_iff {node : Node} :
    tree.node path = .ok node ↔
      checkPath path = .ok () ∧ ∃ location, tree.follow [] path.segments = .ok location ∧
        tree.find? location = some node := by
  rw [FileTree.node, locate, Outcome.bind_eq_ok_iff]
  simp only [Outcome.check_eq_ok_iff, and_assoc, exists_and_left]
  refine and_congr_right fun _ => exists_congr fun location => and_congr_right fun _ => ?_
  cases tree.find? location <;> simp

theorem data_eq_ok_iff {data : ByteArray} :
    tree.data path = .ok data ↔
      checkPath path = .ok () ∧ tree.follow [] path.segments = .ok path.place ∧
        tree.occupant path.place = .file data := by
  have isData : tree.data path = .ok data ↔ tree.node path = .ok (.file data) := by
    rw [FileTree.data, Outcome.bind_eq_ok_iff]
    constructor
    · rintro ⟨node, found, isFile⟩
      cases node with
      | file other => exact found.trans (congrArg _ (congrArg _ (Except.ok.inj isFile)))
      | directory entries => contradiction
    · exact fun found => ⟨_, found, rfl⟩
  rw [isData, node_eq_ok_iff]
  refine and_congr_right fun _ => ?_
  constructor
  · rintro ⟨location, followed, found⟩
    obtain rfl : location = path.place := eq_foldl_step_of_follow followed
    exact ⟨followed, occupant_eq_file_iff.mpr found⟩
  · rintro ⟨followed, isFile⟩
    exact ⟨path.place, followed, occupant_eq_file_iff.mp isFile⟩

theorem data_of_checkCopyable (copyable : tree.checkCopyable path = .ok ()) :
    ∃ data, tree.data path = .ok data := by
  obtain ⟨node, found, isFile⟩ := Outcome.bind_eq_ok_iff.mp copyable
  cases node with
  | file data => exact ⟨data, Outcome.bind_eq_ok_iff.mpr ⟨_, found, rfl⟩⟩
  | directory entries => contradiction

theorem checkPath_of_data {data : ByteArray} (read : tree.data path = .ok data) :
    checkPath path = .ok () :=
  (data_eq_ok_iff.mp read).1

theorem occupant_of_data {data : ByteArray} (read : tree.data path = .ok data) :
    tree.occupant path.place = .file data :=
  (data_eq_ok_iff.mp read).2.2

/-! ## Storing files -/

/-- Files have been written that are read back through their paths.  Elsewhere directories may
have been made, and nothing else is different. -/
structure Stores (tree : FileTree) (stored : List (Path × ByteArray)) (changed : FileTree) :
    Prop where
  readBack : ∀ entry ∈ stored, changed.data entry.1 = .ok entry.2
  kept : ∀ location, tree.occupant location = .directory →
    changed.occupant location = .directory
  elsewhere : ∀ location, location ∉ stored.map (·.1.place) →
    changed.occupant location = tree.occupant location ∨
      tree.occupant location = .nothing ∧ changed.occupant location = .directory
  wellFormed : tree.WellFormed → changed.WellFormed

namespace Stores

variable {stored later : List (Path × ByteArray)} {middle : FileTree}

theorem refl (tree : FileTree) : tree.Stores [] tree where
  readBack _ member := absurd member List.not_mem_nil
  kept _ isDirectory := isDirectory
  elsewhere _ _ := .inl rfl
  wellFormed := id

/-- Files elsewhere are as they were. -/
theorem file_iff (stores : tree.Stores stored changed)
    (apart : location ∉ stored.map (·.1.place)) (data : ByteArray) :
    changed.occupant location = .file data ↔ tree.occupant location = .file data := by
  rcases stores.elsewhere location apart with same | ⟨free, made⟩
  · rw [same]
  · simp [free, made]

/-- Files elsewhere can be read as before. -/
theorem data_eq (stores : tree.Stores stored changed)
    (apart : path.place ∉ stored.map (·.1.place)) {data : ByteArray}
    (read : tree.data path = .ok data) : changed.data path = .ok data := by
  obtain ⟨checked, followed, isFile⟩ := data_eq_ok_iff.mp read
  exact data_eq_ok_iff.mpr ⟨checked, follow_of_kept stores.kept followed,
    (stores.file_iff apart data).mpr isFile⟩

theorem elsewhere_trans (first : tree.Stores stored middle) (second : middle.Stores later changed)
    (outside : location ∉ stored.map (·.1.place))
    (outsideLater : location ∉ later.map (·.1.place)) :
    changed.occupant location = tree.occupant location ∨
      tree.occupant location = .nothing ∧ changed.occupant location = .directory := by
  rcases second.elsewhere location outsideLater with same | ⟨free, made⟩
  · rw [same]
    exact first.elsewhere location outside
  · rcases first.elsewhere location outside with same | ⟨_, madeBefore⟩
    · exact .inr ⟨same ▸ free, made⟩
    · simp [free] at madeBefore

theorem trans (first : tree.Stores stored middle) (second : middle.Stores later changed)
    (apart : ∀ entry ∈ stored, entry.1.place ∉ later.map (·.1.place)) :
    tree.Stores (stored ++ later) changed where
  readBack entry member := by
    rcases List.mem_append.mp member with early | late
    · exact second.data_eq (apart entry early) (first.readBack entry early)
    · exact second.readBack entry late
  kept location isDirectory := second.kept location (first.kept location isDirectory)
  elsewhere location outside := by
    rw [List.map_append, List.mem_append, not_or] at outside
    exact first.elsewhere_trans second outside.1 outside.2
  wellFormed start := second.wellFormed (first.wellFormed start)

/-- Of two files written to one path, the second stays. -/
theorem overwrite {data data' : ByteArray} (first : tree.Stores [(path, data)] middle)
    (second : middle.Stores [(path, data')] changed) : tree.Stores [(path, data')] changed where
  readBack := second.readBack
  kept location isDirectory := second.kept location (first.kept location isDirectory)
  elsewhere _ outside := first.elsewhere_trans second outside outside
  wellFormed start := second.wellFormed (first.wellFormed start)

end Stores

theorem stores_of_withFile {data : ByteArray} (written : tree.withFile path data = .ok changed) :
    tree.Stores [(path, data)] changed := by
  obtain ⟨checked, followed, noDirectory, replaces⟩ := replaces_of_withFile written
  have kept : ∀ location, tree.occupant location = .directory →
      changed.occupant location = .directory := by
    intro location isDirectory
    have apart : location ≠ path.place := by
      rintro rfl
      exact noDirectory isDirectory
    rw [replaces.occupant, Function.update_of_ne apart, isDirectory]
  refine ⟨fun entry member => ?_, kept, fun location outside => ?_, replaces.wellFormed⟩
  · obtain rfl := List.mem_singleton.mp member
    exact data_eq_ok_iff.mpr ⟨checked, follow_of_kept kept followed, by
      rw [replaces.occupant, Function.update_self]⟩
  · have apart : location ≠ path.place := by simpa using outside
    exact .inl (by rw [replaces.occupant, Function.update_of_ne apart])

theorem stores_of_withDirectory (made : tree.withDirectory path = .ok changed) :
    tree.Stores [] changed := by
  obtain ⟨free, replaces⟩ := replaces_of_withDirectory made
  refine ⟨fun entry member => absurd member List.not_mem_nil, fun location isDirectory => ?_,
    fun location _ => ?_, replaces.wellFormed⟩
  · have apart : location ≠ path.place := by
      rintro rfl
      simp [free] at isDirectory
    rw [replaces.occupant, Function.update_of_ne apart, isDirectory]
  · by_cases equal : location = path.place
    · subst equal
      exact .inr ⟨free, by rw [replaces.occupant, Function.update_self]⟩
    · exact .inl (by rw [replaces.occupant, Function.update_of_ne equal])

theorem stores_of_withDirectoryOnce (made : tree.withDirectoryOnce path = .ok changed) :
    tree.Stores [] changed := by
  rw [withDirectoryOnce] at made
  split at made
  · next other done =>
      exact stores_of_withDirectory (done.trans made)
  · split_ifs at made
    exact Except.ok.inj made ▸ .refl tree

theorem stores_of_makeDirectoriesWithin {steps : Nat}
    (made : Access.makeDirectoriesWithin steps path tree = .ok () changed) :
    tree.Stores [] changed := by
  induction steps generalizing path changed with
  | zero =>
      exact stores_of_withDirectoryOnce (Access.change_eq_ok_iff.mp made)
  | succ steps inductionHypothesis =>
      rw [Access.makeDirectoriesWithin_succ] at made
      by_cases isEmpty : path = Path.empty
      · rw [if_pos isEmpty] at made
        cases made
        exact .refl tree
      · rw [if_neg isEmpty] at made
        split at made
        · next other done =>
            cases made
            exact stores_of_withDirectory done
        · split at made
          · obtain ⟨_, middle, parents, last⟩ := Access.bind_eq_ok_iff.mp made
            exact (inductionHypothesis parents).trans
              (stores_of_withDirectoryOnce (Access.change_eq_ok_iff.mp last))
              (fun entry member => absurd member List.not_mem_nil)
          · cases made
        · split_ifs at made
          cases made
          exact .refl tree

/-- Making directories only makes directories. -/
theorem stores_of_makeDirectories (made : Access.makeDirectories path tree = .ok () changed) :
    tree.Stores [] changed :=
  stores_of_makeDirectoriesWithin made

/-- A file copied to another place is there what it was. -/
theorem stores_of_copy {source target : Path} (apart : source.place ≠ target.place)
    (copied : Access.copy source target tree = .ok () changed) :
    ∃ data, tree.data source = .ok data ∧ tree.Stores [(target, data)] changed := by
  obtain ⟨_, _, queried, copied⟩ := Access.bind_eq_ok_iff.mp copied
  obtain ⟨copyable, rfl⟩ := Access.query_eq_ok_iff.mp queried
  obtain ⟨_, cleared, emptied, copied⟩ := Access.bind_eq_ok_iff.mp copied
  obtain ⟨data, _, looked, written⟩ := Access.bind_eq_ok_iff.mp copied
  obtain ⟨read, rfl⟩ := Access.query_eq_ok_iff.mp looked
  have first := stores_of_withFile (Access.change_eq_ok_iff.mp emptied)
  have second := stores_of_withFile (Access.change_eq_ok_iff.mp written)
  -- The source is read after the target is cleared, but clearing does not touch it.
  obtain ⟨original, isFile⟩ := data_of_checkCopyable copyable
  have unharmed : cleared.data source = .ok original :=
    first.data_eq (by simpa using apart) isFile
  obtain rfl : original = data := Except.ok.inj (unharmed.symm.trans read)
  exact ⟨original, isFile, first.overwrite second⟩

end FileTree

end LieScribe
