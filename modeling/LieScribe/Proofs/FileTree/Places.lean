import LieScribe.Proofs.FileTree.WellFormed
import LieScribe.Proofs.Outcome
import Mathlib.Data.List.TakeWhile

/-!
# The places of paths

The location that a path leads to can be read off its segments; the tree only decides whether
the path can be followed (`FileTree.follow_cons_eq_ok_iff`).  A path can be followed to where a
directory leads, and it stays so as long as directories stay.
-/

namespace LieScribe

namespace Path

/-- Where a segment leads from a location. -/
def step (here : List String) (segment : String) : List String :=
  if isIdle segment then
    here
  else if segment = ".." then
    here.dropLast
  else
    here ++ [segment]

/-- The location that a path leads to, if it can be followed. -/
def place (path : Path) : List String :=
  path.segments.foldl step []

theorem step_of_isName (here : List String) {name : String} (isName : IsName name) :
    step here name = here ++ [name] := by
  simp [step, isName.notIdle, isName.notUp]

theorem foldl_step_names (here : List String) {names : List String}
    (areNames : ∀ name ∈ names, IsName name) : names.foldl step here = here ++ names := by
  induction names generalizing here with
  | nil =>
      simp
  | cons name names inductionHypothesis =>
      rw [List.forall_mem_cons] at areNames
      rw [List.foldl_cons, step_of_isName here areNames.1, inductionHypothesis _ areNames.2,
        List.append_assoc, List.singleton_append]

theorem foldl_step_idle (here : List String) {segments : List String}
    (idle : ∀ segment ∈ segments, isIdle segment = true) : segments.foldl step here = here := by
  induction segments with
  | nil =>
      rfl
  | cons segment others inductionHypothesis =>
      rw [List.forall_mem_cons] at idle
      rw [List.foldl_cons, step, if_pos idle.1, inductionHypothesis idle.2]

/-- Segments that do not lead upward lead on from where they start. -/
theorem foldl_step_of_not_up (here : List String) {segments : List String}
    (plain : ".." ∉ segments) :
    segments.foldl step here = here ++ segments.filter (!isIdle ·) := by
  induction segments generalizing here with
  | nil =>
      simp
  | cons segment others inductionHypothesis =>
      rw [List.mem_cons, not_or] at plain
      rw [List.foldl_cons, inductionHypothesis _ plain.2, step]
      cases idle : isIdle segment with
      | true =>
          simp [idle]
      | false =>
          simp [idle, Ne.symm plain.1]

/-! ## The end of a path -/

/-- What is dropped from the end of segments meets the condition for it. -/
theorem exists_eq_dropEnd_append (drop : String → Bool) (segments : List String) :
    ∃ back, segments = (segments.reverse.dropWhile drop).reverse ++ back ∧
      ∀ segment ∈ back, drop segment = true := by
  refine ⟨(segments.reverse.takeWhile drop).reverse, ?_, fun segment member => ?_⟩
  · rw [← List.reverse_append, List.takeWhile_append_dropWhile, List.reverse_reverse]
  · exact List.mem_takeWhile_imp (List.mem_reverse.mp member)

theorem place_stem (path : Path) : path.stem.foldl step [] = path.place := by
  obtain ⟨segments⟩ := path
  cases segments with
  | nil =>
      rfl
  | cons first others =>
      obtain ⟨blanks, split, areBlank⟩ := exists_eq_dropEnd_append (· == "") others
      have idle : ∀ segment ∈ blanks, isIdle segment = true := fun segment member => by
        simp [isIdle, areBlank segment member]
      calc
        (first :: (others.reverse.dropWhile (· == "")).reverse).foldl step [] =
            blanks.foldl step
              ((first :: (others.reverse.dropWhile (· == "")).reverse).foldl step []) :=
          (foldl_step_idle _ idle).symm
        _ = (first :: others).foldl step [] := by
          rw [← List.foldl_append, List.cons_append, ← split]

/-- Idle segments are dropped from the end only. -/
theorem exists_eq_trimIdle_append (segments : List String) :
    ∃ back, segments = trimIdle segments ++ back ∧
      ∀ segment ∈ back, isIdle segment = true := by
  cases segments with
  | nil =>
      exact ⟨[], rfl, fun segment member => absurd member List.not_mem_nil⟩
  | cons first others =>
      obtain ⟨back, split, idle⟩ := exists_eq_dropEnd_append isIdle others
      exact ⟨back, by rw [trimIdle, List.cons_append, ← split], idle⟩

theorem foldl_step_trimIdle (here segments : List String) :
    (trimIdle segments).foldl step here = segments.foldl step here := by
  obtain ⟨back, split, idle⟩ := exists_eq_trimIdle_append segments
  conv_rhs => rw [split, List.foldl_append, foldl_step_idle _ idle]

theorem trimIdle_concat (segments : List String) {name : String} (isName : IsName name) :
    trimIdle (segments ++ [name]) = segments ++ [name] := by
  cases segments with
  | nil =>
      rfl
  | cons first others =>
      simp [trimIdle, isName.notIdle]

theorem ne_blank_of_isName {name : String} (isName : IsName name) : name ≠ "" := by
  rintro rfl
  exact absurd isName.notIdle (by decide)

theorem stem_concat (segments : List String) {name : String} (isName : IsName name) :
    stem ⟨segments ++ [name]⟩ = segments ++ [name] := by
  cases segments with
  | nil =>
      rfl
  | cons first others =>
      simp [stem, ne_blank_of_isName isName]

/-- Without a slash at its end, a path is all stem. -/
theorem stem_eq_segments {path : Path} (noSlash : path.hasTrailingSlash = false) :
    path.stem = path.segments := by
  obtain ⟨segments⟩ := path
  cases segments with
  | nil =>
      rfl
  | cons first others =>
      rcases List.eq_nil_or_concat others with rfl | ⟨front, last, rfl⟩
      · rfl
      · have notBlank : last ≠ "" := by
          simpa [hasTrailingSlash, List.getLast?_cons] using noSlash
        simp [stem, notBlank]

theorem hasTrailingSlash_concat (segments : List String) {name : String}
    (isName : IsName name) : hasTrailingSlash ⟨segments ++ [name]⟩ = false := by
  simp [hasTrailingSlash, ne_blank_of_isName isName]

/-- The path to a name in a directory other than the top has a parent, the path to that
directory. -/
theorem parent?_concat {segments : List String} {name : String} (isName : IsName name)
    (below : segments.foldl step [] ≠ []) :
    parent? ⟨segments ++ [name]⟩ = some ⟨trimIdle segments⟩ := by
  obtain ⟨first, others, rfl⟩ : ∃ first others, segments = first :: others :=
    List.exists_cons_of_ne_nil fun none => below (by rw [none]; rfl)
  have notTop : trimIdle (first :: others) ≠ [""] := by
    intro top
    rw [← foldl_step_trimIdle, top] at below
    exact below rfl
  rw [parent?, trimIdle_concat _ isName]
  split
  · next none => simp at none
  · next single => simp at single
  · next single => simp at single
  · rw [List.dropLast_concat]
    split
    · next top => exact absurd top notTop
    · rfl

/-! ## Joined paths -/

/-- The segments of a path that stay in front of what is joined to it. -/
def base (path : Path) : List String :=
  if path.segments.getLast? = some "" then path.segments.dropLast else path.segments

theorem segments_eq_base_or (path : Path) :
    path.segments = path.base ∨ path.segments = path.base ++ [""] := by
  by_cases slash : path.segments.getLast? = some ""
  · rw [base, if_pos slash]
    exact .inr (List.dropLast_append_getLast? "" slash).symm
  · rw [base, if_neg slash]
    exact .inl rfl

theorem foldl_step_base (path : Path) : path.base.foldl step [] = path.place := by
  rcases path.segments_eq_base_or with equal | equal
  · rw [place, equal]
  · rw [place, equal, List.foldl_append]
    exact (foldl_step_idle _ (by decide)).symm

theorem join_eq {path : Path} (notEmpty : path ≠ empty) (rest : Path) :
    path.join rest = ⟨path.base ++ rest.segments⟩ := by
  rw [join, if_neg notEmpty, base]
  split <;> rfl

/-- A path that goes on along names leads to a location below. -/
theorem place_join (path : Path) {names : List String}
    (areNames : ∀ name ∈ names, IsName name) :
    (path.join ⟨names⟩).place = path.place ++ names := by
  by_cases isEmpty : path = empty
  · rw [isEmpty, join, if_pos rfl]
    exact foldl_step_names [] areNames
  · rw [join_eq isEmpty, place, List.foldl_append, foldl_step_base,
      foldl_step_names _ areNames]

theorem place_join_ofNames (path : Path) {names : List String}
    (areNames : ∀ name ∈ names, IsName name) :
    (path.join (ofNames names)).place = path.place ++ names := by
  cases names with
  | nil =>
      by_cases isEmpty : path = empty
      · rw [isEmpty]
        rfl
      · rw [join_eq isEmpty, place, List.foldl_append, foldl_step_base, List.append_nil]
        rfl
  | cons name names =>
      exact path.place_join areNames

/-- Different names make different paths. -/
theorem ofNames_inj {names others : List String} (areNames : ∀ name ∈ names, IsName name)
    (othersAreNames : ∀ name ∈ others, IsName name) (equal : ofNames names = ofNames others) :
    names = others := by
  cases names with
  | nil =>
      cases others with
      | nil =>
          rfl
      | cons other others =>
          obtain ⟨blank, -⟩ := List.cons_eq_cons.mp (congrArg segments equal)
          exact absurd blank.symm (ne_blank_of_isName (othersAreNames other List.mem_cons_self))
  | cons name names =>
      cases others with
      | nil =>
          obtain ⟨blank, -⟩ := List.cons_eq_cons.mp (congrArg segments equal)
          exact absurd blank (ne_blank_of_isName (areNames name List.mem_cons_self))
      | cons other others =>
          exact congrArg segments equal

theorem ne_empty_of_place {path : Path} (below : path.place ≠ []) : path ≠ empty := by
  rintro rfl
  exact below rfl

/-! ## The size of a path -/

theorem size_text_append {front back : List String} (frontSome : front ≠ [])
    (backSome : back ≠ []) :
    (text ⟨front ++ back⟩).utf8ByteSize =
      (text ⟨front⟩).utf8ByteSize + 1 + (text ⟨back⟩).utf8ByteSize := by
  have slash : "/".utf8ByteSize = 1 := by decide
  rw [text, String.intercalate_append_of_ne_nil frontSome backSome, String.utf8ByteSize_append,
    String.utf8ByteSize_append, slash]
  rfl

theorem size_text_le_append (front back : List String) :
    (text ⟨front⟩).utf8ByteSize ≤ (text ⟨front ++ back⟩).utf8ByteSize := by
  by_cases frontSome : front = []
  · simp [frontSome, text]
  · by_cases backSome : back = []
    · simp [backSome]
    · rw [size_text_append frontSome backSome]
      omega

end Path

namespace FileTree

theorem checkPath_eq_ok_iff {path : Path} :
    checkPath path = .ok () ↔
      (∀ segment ∈ path.segments, '\x00' ∉ segment.toList) ∧ path.segments ≠ [] ∧
        path ≠ Path.empty ∧ path.text.utf8ByteSize ≤ pathLimit := by
  rw [checkPath]
  by_cases ends : path.segments.any (·.toList.contains '\x00') = true
  · simp_all
  · by_cases nowhere : path.segments = [] ∨ path = Path.empty
    · have refused : (decide (path.segments = []) || decide (path = Path.empty)) = true := by
        simpa using nowhere
      simp only [if_neg ends, if_pos refused, reduceCtorEq, false_iff]
      rintro ⟨-, some, notEmpty, -⟩
      exact nowhere.elim some notEmpty
    · have led : (decide (path.segments = []) || decide (path = Path.empty)) ≠ true := by
        simpa using nowhere
      rw [if_neg ends, if_neg led]
      simp_all

/-- A path can be checked as far as it goes. -/
theorem checkPath_of_append {front back : List String}
    (checked : checkPath ⟨front ++ back⟩ = .ok ()) (below : front.foldl Path.step [] ≠ []) :
    checkPath ⟨front⟩ = .ok () := by
  rw [checkPath_eq_ok_iff] at checked ⊢
  obtain ⟨endless, -, -, short⟩ := checked
  refine ⟨fun segment member => endless segment (List.mem_append_left back member), ?_,
    Path.ne_empty_of_place below, (Path.size_text_le_append front back).trans short⟩
  rintro none
  exact below (by rw [show front = [] from none]; rfl)

theorem checkPath_of_join {path rest : Path} (checked : checkPath (path.join rest) = .ok ())
    (below : path.place ≠ []) (goesOn : rest.segments ≠ []) : checkPath path = .ok () := by
  rw [Path.join_eq (Path.ne_empty_of_place below)] at checked
  rw [← Path.foldl_step_base] at below
  obtain ⟨segments⟩ := path
  rcases Path.segments_eq_base_or ⟨segments⟩ with equal | equal
  · rw [show segments = _ from equal]
    exact checkPath_of_append checked below
  · -- The slash at the end of the path is there in front of what is joined to it, too.
    have someBase : Path.base ⟨segments⟩ ≠ [] := fun none => below (by rw [none]; rfl)
    have longer := Path.size_text_append someBase goesOn
    have shorter := Path.size_text_append someBase (List.cons_ne_nil "" [])
    have blank : (Path.text ⟨[""]⟩).utf8ByteSize = 0 := by decide
    rw [checkPath_eq_ok_iff] at checked
    rw [show segments = _ from equal, checkPath_eq_ok_iff]
    refine ⟨?_, by simp, ?_, by omega⟩
    · refine List.forall_mem_append.mpr ⟨fun segment member => ?_, by decide⟩
      exact checked.1 segment (List.mem_append_left _ member)
    · exact fun isEmpty => someBase (by simpa [Path.empty] using isEmpty)

theorem checkPath_join {path : Path} {names : List String} (checked : checkPath path = .ok ())
    (below : path.place ≠ []) (areNames : ∀ name ∈ names, IsName name)
    (short : (path.join (Path.ofNames names)).text.utf8ByteSize ≤ pathLimit) :
    checkPath (path.join (Path.ofNames names)) = .ok () := by
  have placed := path.place_join_ofNames areNames
  have belowTop : (path.join (Path.ofNames names)).place ≠ [] := by simp [placed, below]
  refine checkPath_eq_ok_iff.mpr ⟨?_, fun none => belowTop ?_, Path.ne_empty_of_place belowTop,
    short⟩
  · rw [Path.join_eq (Path.ne_empty_of_place below)]
    refine List.forall_mem_append.mpr ⟨fun segment member => ?_, fun segment member => ?_⟩
    · refine (checkPath_eq_ok_iff.mp checked).1 segment ?_
      rcases path.segments_eq_base_or with equal | equal
      · rwa [equal]
      · rw [equal]
        exact List.mem_append_left _ member
    · cases names with
      | nil => exact List.mem_singleton.mp member ▸ by decide
      | cons name names => exact (areNames segment member).endless
  · rw [Path.place, none]
    rfl

theorem size_le_of_isIdle {segment : String} (idle : Path.isIdle segment = true) :
    segment.utf8ByteSize ≤ nameLimit := by
  rcases Bool.or_eq_true_iff.mp idle with blank | dot
  · rw [eq_of_beq blank]
    decide
  · rw [eq_of_beq dot]
    decide

/-- Each step needs a directory to start from, and no segment may be too long. -/
theorem follow_cons_eq_ok_iff {tree : FileTree} {here location : List String}
    {segment : String} {others : List String} :
    tree.follow here (segment :: others) = .ok location ↔
      tree.occupant here = .directory ∧ segment.utf8ByteSize ≤ nameLimit ∧
        tree.follow (Path.step here segment) others = .ok location := by
  rw [follow, occupant]
  rcases tree.find? here with _ | _ | _
  · simp [Node.occupant]
  · simp [Node.occupant]
  · simp only [Node.occupant, true_and, Path.step]
    by_cases idle : Path.isIdle segment = true
    · simp [idle, size_le_of_isIdle idle]
    · by_cases up : segment = ".."
      · subst up
        have short : "..".utf8ByteSize ≤ nameLimit := by decide
        simp [idle, short]
      · by_cases long : nameLimit < segment.utf8ByteSize
        · simp [idle, up, long]
        · simp [idle, up, long, not_lt.mp long]

section

variable {tree : FileTree} {here location : List String}

theorem follow_append (front back : List String) :
    tree.follow here (front ++ back) =
      (do
        let middle ← tree.follow here front
        tree.follow middle back) := by
  induction front generalizing here with
  | nil =>
      rfl
  | cons segment others inductionHypothesis =>
      rw [List.cons_append, follow, follow]
      simp only [inductionHypothesis]
      rcases tree.find? here with _ | _ | _
      · rfl
      · rfl
      · dsimp only
        split_ifs <;> rfl

theorem follow_append_eq_ok_iff {front back : List String} :
    tree.follow here (front ++ back) = .ok location ↔
      ∃ middle, tree.follow here front = .ok middle ∧
        tree.follow middle back = .ok location := by
  rw [follow_append, Outcome.bind_eq_ok_iff]

/-- Where a path leads does not depend on the tree. -/
theorem eq_foldl_step_of_follow {segments : List String}
    (followed : tree.follow here segments = .ok location) :
    location = segments.foldl Path.step here := by
  induction segments generalizing here with
  | nil =>
      exact (Except.ok.inj followed).symm
  | cons segment others inductionHypothesis =>
      exact inductionHypothesis (follow_cons_eq_ok_iff.mp followed).2.2

/-- A path can be followed as long as directories stay. -/
theorem follow_of_kept {changed : FileTree} {segments : List String}
    (kept : ∀ location, tree.occupant location = .directory →
      changed.occupant location = .directory)
    (followed : tree.follow here segments = .ok location) :
    changed.follow here segments = .ok location := by
  induction segments generalizing here with
  | nil =>
      exact followed
  | cons segment others inductionHypothesis =>
      rw [follow_cons_eq_ok_iff] at followed ⊢
      obtain ⟨isDirectory, short, followed⟩ := followed
      exact ⟨kept here isDirectory, short, inductionHypothesis followed⟩

/-- What a path leads to is in a directory, unless it is the top. -/
theorem directory_dropLast_of_follow {segments : List String}
    (start : here = [] ∨ tree.occupant here.dropLast = .directory)
    (followed : tree.follow here segments = .ok location) :
    location = [] ∨ tree.occupant location.dropLast = .directory := by
  induction segments generalizing here with
  | nil =>
      exact Except.ok.inj followed ▸ start
  | cons segment others inductionHypothesis =>
      obtain ⟨isDirectory, -, followed⟩ := follow_cons_eq_ok_iff.mp followed
      refine inductionHypothesis ?_ followed
      rw [Path.step]
      split_ifs
      · exact start
      · have leads : here.dropLast.dropLast <+: here :=
          (List.dropLast_prefix _).trans (List.dropLast_prefix here)
        exact .inr (occupant_eq_directory_of_leads isDirectory leads)
      · exact .inr (by rwa [List.dropLast_concat])

/-- What a path leads to has a location of names. -/
theorem isName_of_follow {segments : List String} (areNames : ∀ name ∈ here, IsName name)
    (endless : ∀ segment ∈ segments, '\x00' ∉ segment.toList)
    (followed : tree.follow here segments = .ok location) :
    ∀ name ∈ location, IsName name := by
  induction segments generalizing here with
  | nil =>
      exact Except.ok.inj followed ▸ areNames
  | cons segment others inductionHypothesis =>
      obtain ⟨-, short, followed⟩ := follow_cons_eq_ok_iff.mp followed
      rw [List.forall_mem_cons] at endless
      refine inductionHypothesis (fun name member => ?_) endless.2 followed
      rw [Path.step] at member
      split_ifs at member with idle up
      · exact areNames name member
      · exact areNames name ((List.dropLast_subset here) member)
      · rcases List.mem_append.mp member with earlier | last
        · exact areNames name earlier
        · obtain rfl := List.mem_singleton.mp last
          exact ⟨eq_false_of_ne_true idle, up, short, endless.1⟩

/-- Names can be followed from a directory to a directory. -/
theorem follow_names {names : List String} (areNames : ∀ name ∈ names, IsName name)
    (leads : names = [] ∨ tree.occupant (here ++ names.dropLast) = .directory) :
    tree.follow here names = .ok (here ++ names) := by
  induction names generalizing here with
  | nil =>
      simp [follow]
  | cons name names inductionHypothesis =>
      rw [List.forall_mem_cons] at areNames
      have isDirectory := leads.resolve_left (List.cons_ne_nil name names)
      rw [follow_cons_eq_ok_iff, Path.step_of_isName here areNames.1]
      refine ⟨occupant_eq_directory_of_leads isDirectory (List.prefix_append _ _),
        areNames.1.short, ?_⟩
      rw [List.append_cons here name names]
      refine inductionHypothesis areNames.2 ?_
      cases names with
      | nil =>
          exact .inl rfl
      | cons second names =>
          exact .inr (by simpa using isDirectory)

/-- Names that start to be missing somewhere, and are no files before, are not found. -/
theorem follow_names_eq_notFound {names : List String} (areNames : ∀ name ∈ names, IsName name)
    (some : names ≠ []) (missing : tree.occupant (here ++ names.dropLast) ≠ .directory)
    (noFile : ∀ front, front <+: names.dropLast → ∀ data,
      tree.occupant (here ++ front) ≠ .file data) :
    tree.follow here names = .error .notFound := by
  induction names generalizing here with
  | nil =>
      exact absurd rfl some
  | cons name names inductionHypothesis =>
      rw [List.forall_mem_cons] at areNames
      have start := noFile [] List.nil_prefix
      rw [List.append_nil, occupant] at start
      rw [follow]
      cases found : tree.find? here with
      | none =>
          rfl
      | some node =>
          cases node with
          | file data =>
              exact absurd (by rw [found]; rfl) (start data)
          | directory entries =>
              have isDirectory : tree.occupant here = .directory :=
                occupant_eq_directory_iff.mpr ⟨entries, found⟩
              cases names with
              | nil =>
                  exact absurd (by simpa using isDirectory) missing
              | cons second names =>
                  simp only [areNames.1.notIdle, areNames.1.notUp, not_lt.mpr areNames.1.short,
                    if_false, Bool.false_eq_true]
                  refine inductionHypothesis areNames.2 (List.cons_ne_nil second names)
                    (by simpa using missing) fun front leads data => ?_
                  have deeper : name :: front <+: (name :: second :: names).dropLast := by
                    rw [List.dropLast_cons_cons]
                    exact (List.cons_prefix_cons).mpr ⟨rfl, leads⟩
                  simpa using noFile (name :: front) deeper data

/-- A path that does not lead upward names what stands at its place, if an idle segment at its
end finds a directory there. -/
theorem exists_follow_iff_of_plain (wellFormed : tree.WellFormed) {segments : List String}
    (plain : ".." ∉ segments) {node : Node} :
    (∃ location, tree.follow here segments = .ok location ∧
        tree.find? location = some node) ↔
      tree.find? (segments.foldl Path.step here) = some node ∧
        (segments.getLast?.any Path.isIdle = true → node.isDirectory = true) := by
  induction segments generalizing here with
  | nil =>
      simp [follow]
  | cons segment others inductionHypothesis =>
      have othersPlain : ".." ∉ others := fun member => plain (List.mem_cons_of_mem _ member)
      simp only [follow_cons_eq_ok_iff, and_assoc, exists_and_left,
        inductionHypothesis othersPlain, List.foldl_cons]
      have led := Path.foldl_step_of_not_up here plain
      rw [List.foldl_cons] at led
      constructor
      · rintro ⟨isDirectory, -, found, ends⟩
        refine ⟨found, fun endsIdle => ?_⟩
        cases others with
        | nil =>
            have stays : Path.step here segment = here :=
              Path.foldl_step_idle here (by simpa using endsIdle : ∀ other ∈ [segment], _)
            rw [List.foldl_nil, stays] at found
            rwa [occupant, found, Node.occupant_some_eq_directory_iff] at isDirectory
        | cons second others =>
            exact ends (by simpa using endsIdle)
      · rintro ⟨found, ends⟩
        have stands : tree.occupant (here ++ (segment :: others).filter (!Path.isIdle ·)) ≠
            .nothing := by
          rw [Ne, occupant_eq_nothing_iff, ← led, found]
          exact Option.some_ne_none node
        refine ⟨?_, ?_, found, fun endsIdle => ends ?_⟩
        · by_cases moved : (segment :: others).filter (!Path.isIdle ·) = []
          · have endsIdle : (segment :: others).getLast?.any Path.isIdle = true := by
              have last := List.getLast_mem (List.cons_ne_nil segment others)
              rw [List.getLast?_eq_some_getLast (List.cons_ne_nil segment others), Option.any_some]
              simpa using List.filter_eq_nil_iff.mp moved _ last
            rw [led, moved, List.append_nil] at found
            rw [occupant, found, Node.occupant_some_eq_directory_iff]
            exact ends endsIdle
          · exact occupant_eq_directory_of_append moved stands
        · cases idle : Path.isIdle segment with
          | true =>
              exact size_le_of_isIdle idle
          | false =>
              refine (wellFormed.isName_of_occupant stands segment ?_).short
              simp [idle]
        · cases others with
          | nil =>
              simp at endsIdle
          | cons second others =>
              simpa using endsIdle

end

end FileTree

end LieScribe
