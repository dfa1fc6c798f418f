import LieScribe.Proofs.Python.Kinds
import LieScribe.Proofs.Python.Scripts

/-!
# Quotients in the older dialect

When the script of a program runs on floats, its temporaries are floats as well, and no
quotient is one of integers, up to the first minimum or maximum of integers and floats
that turns out to be an integer.  The printer takes such a choice for a float, so that a
quotient of it can be floored.
-/

namespace LieScribe

open Python

namespace Python

variable {α : Type} {floats : Floats α} {bindings : Bindings (Value α)} {scope : List Symbol}

/-! ## One text -/

theorem Typed.definitionTree {definition : Expr}
    (typed : Typed floats bindings scope (Target.python2.tree definition)
      (Target.python2.isInteger definition)) :
    Typed floats bindings scope (definitionTree definition) false := by
  rw [Python.definitionTree]
  cases marked : Target.python2.isInteger definition with
  | false => simpa [marked] using typed
  | true => exact typed.converted

/-- A text with a mark has a value.  If the names are bound to floats and no choice is
mixed, then nothing is floored, and the value is a float unless it is marked. -/
theorem Typed.at? {tree : ParseTree} {integer : Bool}
    (typed : Typed floats bindings scope tree integer) :
    ∃ moment, Moment.at? floats bindings tree = some moment ∧
      ((∀ symbol ∈ scope, ∃ value, bindings.get? symbol = some (.float value)) →
        moment.mixes floats = false →
          moment.floors floats = false ∧
            (integer = false → ∃ value, moment.value = .float value)) := by
  obtain ⟨value, evaluated⟩ := typed.evaluates
  refine ⟨⟨bindings, tree, value⟩, by rw [Moment.at?, evaluated]; rfl, fun float unmixed => ?_⟩
  rw [Moment.mixes, List.any_eq_false] at unmixed
  have calm : Calm floats bindings scope tree :=
    ⟨float, fun node member => Bool.eq_false_iff.mpr (unmixed node member)⟩
  constructor
  · rw [Moment.floors, List.any_eq_false]
    exact fun node member => Bool.eq_false_iff.mp (typed.unfloored calm node member)
  · intro notMarked
    have isFloat := typed.float calm notMarked
    rw [ParseTree.isInt_eq_of_value? evaluated] at isFloat
    cases value with
    | int number => cases isFloat
    | float number => exact ⟨number, rfl⟩

/-! ## Runs -/

/-- No quotient is floored up to the first mixed choice. -/
def Unfloored (floats : Floats α) (moments : List (Moment α)) : Prop :=
  ∀ count, (∀ moment ∈ moments.take count, moment.mixes floats = false) →
    ∀ moment ∈ moments.take count, moment.floors floats = false

theorem Unfloored.cons {moment : Moment α} {later : List (Moment α)}
    (first : moment.mixes floats = false → moment.floors floats = false)
    (others : moment.mixes floats = false → Unfloored floats later) :
    Unfloored floats (moment :: later) := by
  intro count unmixed
  cases count with
  | zero => exact fun _ => (nomatch ·)
  | succ count =>
      rw [List.take_succ_cons, List.forall_mem_cons] at unmixed ⊢
      exact ⟨first unmixed.1, others unmixed.1 count unmixed.2⟩

/-- Where integers and other texts are never mixed, no quotient is floored at all. -/
theorem Unfloored.of_unmixed {moments : List (Moment α)} (unfloored : Unfloored floats moments)
    (unmixed : ∀ tree ∈ moments.map Moment.tree, ∀ node ∈ tree.nodes,
      node.isMixture = false) :
    ∀ moment ∈ moments, moment.floors floats = false := by
  have whole := unfloored moments.length
  rw [List.take_length] at whole
  refine whole fun moment member => ?_
  rw [Moment.mixes, List.any_eq_false]
  intro node below
  rw [ParseTree.isMixed, unmixed _ (List.mem_map_of_mem member) node below]
  exact Bool.false_ne_true

theorem tree_of_at? {tree : ParseTree} {moment : Moment α}
    (evaluated : Moment.at? floats bindings tree = some moment) : moment.tree = tree := by
  obtain ⟨value, _, rfl⟩ := Option.map_eq_some_iff.mp evaluated
  rfl

theorem map_tree_of_evaluate? {results : List ParseTree} {moments : List (Moment α)}
    (evaluated : Script.evaluate? floats bindings results = some moments) :
    moments.map Moment.tree = results := by
  induction results generalizing moments with
  | nil =>
      cases evaluated
      rfl
  | cons first others inductionHypothesis =>
      obtain ⟨moment, ofFirst, remaining⟩ := Option.bind_eq_some_iff.mp evaluated
      obtain ⟨later, ofOthers, isResult⟩ := Option.bind_eq_some_iff.mp remaining
      cases isResult
      rw [List.map_cons, tree_of_at? ofFirst, inductionHypothesis ofOthers]

/-- A run evaluates all texts of its script in order. -/
theorem map_tree_of_execute? {results : List ParseTree}
    {assignments : List (Symbol × ParseTree)} {moments : List (Moment α)}
    (executed : Script.execute? floats results assignments bindings = some moments) :
    moments.map Moment.tree = assignments.map Prod.snd ++ results := by
  induction assignments generalizing bindings moments with
  | nil =>
      exact map_tree_of_evaluate? executed
  | cons first others inductionHypothesis =>
      obtain ⟨moment, ofFirst, remaining⟩ := Option.bind_eq_some_iff.mp executed
      obtain ⟨later, ofOthers, isResult⟩ := Option.bind_eq_some_iff.mp remaining
      cases isResult
      rw [List.map_cons, tree_of_at? ofFirst, inductionHypothesis ofOthers, List.map_cons,
        List.cons_append]

/-- Binding one more symbol to a value of the same shape. -/
theorem forall_mem_bind {β γ : Type} {shape : γ → β} {bindings : Bindings β}
    (bound : ∀ symbol ∈ scope, ∃ value, bindings.get? symbol = some (shape value))
    (added : Symbol) (value : γ) :
    ∀ symbol ∈ scope ++ [added],
      ∃ value', (bindings.bind added (shape value)).get? symbol = some (shape value') := by
  intro symbol member
  rw [Bindings.get?_bind]
  split
  · exact ⟨value, rfl⟩
  · next different =>
      rw [List.mem_append, List.mem_singleton] at member
      exact bound symbol (member.resolve_right different)

variable {temporaries : List Temporary} {outputs : List Expr}

theorem exists_evaluate?
    (written : ∀ output ∈ outputs, ∃ fragment, Target.python2.write output = .ok fragment)
    (declared : ∀ output ∈ outputs, ∀ symbol ∈ output.symbols, symbol ∈ scope)
    (bound : ∀ symbol ∈ scope, ∃ value, bindings.get? symbol = some value) :
    ∃ moments,
      Script.evaluate? floats bindings (outputs.map Target.python2.tree) = some moments ∧
        ((∀ symbol ∈ scope, ∃ value, bindings.get? symbol = some (.float value)) →
          Unfloored floats moments) := by
  induction outputs with
  | nil =>
      exact ⟨[], rfl, fun _ _ _ _ => by simp⟩
  | cons output others inductionHypothesis =>
      rw [List.forall_mem_cons] at written declared
      obtain ⟨fragment, ofOutput⟩ := written.1
      have typed : Typed floats bindings scope _ _ :=
        Target.typed_tree ofOutput bound declared.1
      obtain ⟨moment, evaluated, ofMoment⟩ := typed.at?
      obtain ⟨later, evaluatedLater, ofLater⟩ := inductionHypothesis written.2 declared.2
      refine ⟨moment :: later, ?_, fun float => ?_⟩
      · rw [List.map_cons, Script.evaluate?, evaluated, evaluatedLater]
        rfl
      · exact .cons (fun unmixed => (ofMoment float unmixed).1) fun _ => ofLater float

/-- A script runs to its end if every text mentions only what is bound before.  While no
choice is mixed, each assignment binds another name to a float. -/
theorem exists_execute?
    (written : ∀ temporary ∈ temporaries,
      ∃ fragment, Target.python2.write temporary.definition = .ok fragment)
    (outputsWritten : ∀ output ∈ outputs, ∃ fragment, Target.python2.write output = .ok fragment)
    (declared : ∀ (position : Nat) (temporary : Temporary),
      temporaries[position]? = some temporary → ∀ symbol ∈ temporary.definition.symbols,
        symbol ∈ scope ++ (temporaries.take position).map Temporary.symbol)
    (outputsDeclared : ∀ output ∈ outputs, ∀ symbol ∈ output.symbols,
      symbol ∈ scope ++ temporaries.map Temporary.symbol)
    (bound : ∀ symbol ∈ scope, ∃ value, bindings.get? symbol = some value) :
    ∃ moments,
      Script.execute? floats (outputs.map Target.python2.tree)
          (temporaries.map fun temporary =>
            (temporary.symbol, definitionTree temporary.definition)) bindings = some moments ∧
        ((∀ symbol ∈ scope, ∃ value, bindings.get? symbol = some (.float value)) →
          Unfloored floats moments) := by
  induction temporaries generalizing scope bindings with
  | nil =>
      rw [List.map_nil, List.append_nil] at outputsDeclared
      exact exists_evaluate? outputsWritten outputsDeclared bound
  | cons temporary others inductionHypothesis =>
      rw [List.forall_mem_cons] at written
      obtain ⟨fragment, ofDefinition⟩ := written.1
      have mentioned : ∀ symbol ∈ temporary.definition.symbols, symbol ∈ scope := by
        simpa using declared 0 temporary rfl
      have typed : Typed floats bindings scope _ _ :=
        Target.typed_tree ofDefinition bound mentioned
      obtain ⟨moment, evaluated, ofMoment⟩ := typed.definitionTree.at?
      have laterDeclared : ∀ (position : Nat) (later : Temporary),
          others[position]? = some later → ∀ symbol ∈ later.definition.symbols,
            symbol ∈ (scope ++ [temporary.symbol]) ++
              (others.take position).map Temporary.symbol := by
        intro position later found
        simpa using declared (position + 1) later found
      have laterOutputs : ∀ output ∈ outputs, ∀ symbol ∈ output.symbols,
          symbol ∈ (scope ++ [temporary.symbol]) ++ others.map Temporary.symbol := by
        simpa using outputsDeclared
      have laterBound : ∀ symbol ∈ scope ++ [temporary.symbol],
          ∃ value, (bindings.bind temporary.symbol moment.value).get? symbol = some value :=
        forall_mem_bind bound temporary.symbol moment.value
      obtain ⟨later, executed, ofLater⟩ :=
        inductionHypothesis written.2 laterDeclared laterOutputs laterBound
      refine ⟨moment :: later, ?_, fun float => ?_⟩
      · rw [List.map_cons, Script.execute?, evaluated, Option.bind_eq_bind, Option.bind_some,
          executed]
        rfl
      · refine .cons (fun unmixed => (ofMoment float unmixed).1) fun unmixed => ofLater ?_
        obtain ⟨value, isFloat⟩ := (ofMoment float unmixed).2 rfl
        rw [isFloat]
        exact forall_mem_bind float temporary.symbol value

end Python

/-! ## Programs -/

namespace Program

variable {naming : Naming} {leaves : List Symbol} {program : Program}

theorem exists_run? (wellFormed : program.WellFormed naming leaves)
    {listing : Listing} (written : Listing.ofProgram .python2 program = .ok listing)
    {α : Type} (floats : Floats α) {bindings : Bindings (Value α)}
    (float : ∀ symbol ∈ leaves, ∃ value, bindings.get? symbol = some (.float value)) :
    ∃ moments, program.script.run? floats bindings = some moments ∧
      Unfloored floats moments := by
  obtain ⟨_, _, ofTemporaries, ofOutputs, _⟩ := Listing.ofProgram_eq_ok_iff.mp written
  have bound : ∀ symbol ∈ leaves, ∃ value, bindings.get? symbol = some value := by
    intro symbol leaf
    obtain ⟨value, found⟩ := float symbol leaf
    exact ⟨_, found⟩
  have declared : ∀ (position : Nat) (temporary : Temporary),
      program.temporaries[position]? = some temporary →
        ∀ symbol ∈ temporary.definition.symbols,
          symbol ∈ leaves ++ (program.temporaries.take position).map Temporary.symbol := by
    intro position temporary found
    have inside := (List.getElem?_eq_some_iff.mp found).1
    exact wellFormed.mem_scope inside.le (wellFormed.definitions position temporary found)
  have outputsDeclared : ∀ output ∈ program.outputs, ∀ symbol ∈ output.symbols,
      symbol ∈ leaves ++ program.temporaries.map Temporary.symbol := by
    intro output member
    simpa using wellFormed.mem_scope le_rfl (wellFormed.outputs output member)
  obtain ⟨moments, executed, unfloored⟩ := exists_execute?
    (Listing.written_of_temporaryTexts ofTemporaries) (Listing.written_of_outputTexts ofOutputs)
    declared outputsDeclared bound
  exact ⟨moments, executed, unfloored float⟩

end Program

/-! ## Accepted requests -/

namespace Listing

/-- The listing of a request in the older dialect reads back as the script of its
program, and the script evaluates all its texts if the inputs are floats.  No quotient is
floored before a minimum or maximum, some of whose arguments are marked as integers and
some not, turns out to be an integer; a script without such a choice floors none. -/
theorem unfloored_of_generate {request : ListingRequest} {listing : Listing}
    (older : request.target = .python2) (accepted : generate request = .ok listing)
    {α : Type} (floats : Floats α) {bindings : Bindings (Value α)}
    (float : ∀ symbol ∈ request.naming.leaves request.inputs,
      ∃ value, bindings.get? symbol = some (.float value)) :
    ∃ program, request.program = .ok program ∧
      (∀ decimal? : String → Option Float,
        (∀ symbol ∈ request.naming.leaves request.inputs,
            isIdentifier symbol.baseName = true) →
          isIdentifier request.naming.stem = true →
            (∀ tree ∈ program.script.trees, Lexicon.ReadsBack ⟨true, decimal?⟩ tree) →
              listing.script? ⟨true, decimal?⟩ = some program.script) ∧
        ∃ moments, program.script.run? floats bindings = some moments ∧
          moments.map Moment.tree = program.script.trees ∧
            (∀ count, (∀ moment ∈ moments.take count, moment.mixes floats = false) →
              ∀ moment ∈ moments.take count, moment.floors floats = false) ∧
              ((∀ tree ∈ program.script.trees, ∀ node ∈ tree.nodes, node.isMixture = false) →
                ∀ moment ∈ moments, moment.floors floats = false) := by
  obtain ⟨program, found, written⟩ := Outcome.bind_eq_ok_iff.mp accepted
  rw [older] at written
  have wellFormed := ListingRequest.wellFormed_program found
  obtain ⟨moments, ran, unfloored⟩ := Program.exists_run? wellFormed written floats float
  have evaluated : moments.map Moment.tree = program.script.trees := map_tree_of_execute? ran
  refine ⟨program, found, ?_, moments, ran, evaluated, unfloored, fun unmixed => ?_⟩
  · intro decimal? leafNames stem readsBack
    exact script?_ofProgram rfl wellFormed written leafNames stem readsBack
  · exact unfloored.of_unmixed (by rwa [evaluated])

/-- Double precision, where an integer is converted before it is compared to a float. -/
def doubles : Floats Float where
  arithmetic := .double
  ofInt := Float.ofInt
  ofText
    | "inf" => 1.0 / 0.0
    | "-inf" => -1.0 / 0.0
    | _ => 0.0 / 0.0
  less
    | .int left, .int right => left < right
    | .int left, .float right => Float.ofInt left < right
    | .float left, .int right => left < Float.ofInt right
    | .float left, .float right => left < right
  lessEqual
    | .int left, .int right => left ≤ right
    | .int left, .float right => Float.ofInt left ≤ right
    | .float left, .int right => left ≤ Float.ofInt right
    | .float left, .float right => left ≤ right

def oneInput (value : Float) : Bindings (Value Float) :=
  Bindings.empty.bind (.element "inp" 0) (.float value)

/-- Quotients of a shared product of integers, of a comparison and of a choice. -/
def integerRatios : ListingRequest where
  inputs := [.named "x"]
  outputs :=
    let product := Expr.op .mul [.literal (.int 2), .literal (.int 3)]
    [.op .div [product, .literal (.int 4)],
      .op .div [.literal (.int 1), product],
      .op .div [.op .lt [.named "x", .literal (.int 1)], .literal (.int 2)],
      .op .div [.op .min [.named "x", .literal (.int 1)], .literal (.int 2)]]
  target := .python2
  sharing := true
  naming := .arrayed

def integerRatiosListing : Listing where
  temporaries := [("tmp0", "float(2*3)")]
  outputs := ["tmp0/4", "1/tmp0", "float(inp[0] < 1)/2", "min(inp[0], 1)/2"]
  totalOps := 7

def integerRatiosScript : Script where
  assignments :=
    [(.named "tmp0", .call "float" [.binary .mul (.integer 2) (.integer 3)])]
  results :=
    [.binary .div (.name "tmp0") (.integer 4),
      .binary .div (.integer 1) (.name "tmp0"),
      .binary .div (.call "float" [.binary .lt (.element "inp" 0) (.integer 1)]) (.integer 2),
      .binary .div (.call "min" [.element "inp" 0, .integer 1]) (.integer 2)]

theorem unfloored_integerRatios :
    generate integerRatios = .ok integerRatiosListing ∧
      integerRatiosListing.script? ⟨true, fun _ => none⟩ = some integerRatiosScript ∧
        ∃ moments, integerRatiosScript.run? doubles (oneInput 0.5) = some moments ∧
          moments.length = 5 ∧ ∀ moment ∈ moments, moment.floors doubles = false := by
  have accepted : generate integerRatios = .ok integerRatiosListing := rfl
  have float : ∀ symbol ∈ integerRatios.naming.leaves integerRatios.inputs,
      ∃ value, (oneInput 0.5).get? symbol = some (.float value) :=
    List.forall_mem_singleton.mpr ⟨0.5, rfl⟩
  obtain ⟨program, found, reads, moments, ran, _, unfloored, _⟩ :=
    unfloored_of_generate rfl accepted doubles float
  obtain rfl : _ = program := Except.ok.inj found
  replace ran : integerRatiosScript.run? doubles (oneInput 0.5) = some moments := ran
  -- At this input the minimum is the input, so no choice is mixed.
  have computed : (integerRatiosScript.run? doubles (oneInput 0.5)).all
      (fun moments => moments.length == 5 && moments.all (!·.mixes doubles)) = true := by
    decide +kernel
  rw [ran, Option.all_some, Bool.and_eq_true, beq_iff_eq, List.all_eq_true] at computed
  refine ⟨accepted, reads _ (by decide) (by decide) (by decide), moments, ran, computed.1, ?_⟩
  have whole := unfloored moments.length
  rw [List.take_length] at whole
  exact whole fun moment member => by simpa using computed.2 moment member

/-- A choice of a float and an integer is not marked, so half of it is not converted, and
it is floored when the choice is the integer. -/
theorem floored_halvedMinimum :
    generate
        { inputs := [.named "x"]
          outputs := [.op .div [.op .min [.named "x", .literal (.int 1)], .literal (.int 2)]]
          target := .python2
          sharing := true
          naming := .arrayed } =
        .ok ⟨[], ["min(inp[0], 1)/2"], 2⟩ ∧
      ∃ script moment,
        script? ⟨true, fun _ => none⟩ ⟨[], ["min(inp[0], 1)/2"], 2⟩ = some script ∧
          script.run? doubles (oneInput 5.0) = some [moment] ∧
            moment.value = .int 0 ∧ moment.floors doubles = true := by
  refine ⟨rfl, ⟨[], [.binary .div (.call "min" [.element "inp" 0, .integer 1]) (.integer 2)]⟩,
    ⟨oneInput 5.0, .binary .div (.call "min" [.element "inp" 0, .integer 1]) (.integer 2),
      .int 0⟩,
    ?_, rfl, rfl, ?_⟩
  · cbv
  · decide +kernel

end Listing

end LieScribe
