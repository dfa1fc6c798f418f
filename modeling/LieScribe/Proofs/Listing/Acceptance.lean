import LieScribe.Proofs.Listing.Texts
import LieScribe.Proofs.Sharing.Applications
import LieScribe.Proofs.Traversals

/-!
# Which requests get a listing

Expressions that pass their check can be written in every target, unless a function known
by name only occurs in them; then the fault names the target and one of these functions.
Making a program changes neither which applications are well formed nor which functions
occur, so whether a request gets a listing is settled by its inputs and outputs alone.
-/

namespace LieScribe

/-! ## Functions -/

/-- A function known by name only is applied somewhere in the expressions. -/
def Expr.Calls (exprs : List Expr) (name : String) : Prop :=
  ∃ count, Applies exprs (.function name) count

namespace Expr

variable {exprs others : List Expr} {name : String}

theorem not_calls_nil : ¬ Calls [] name := by
  rintro ⟨_, applies⟩
  exact not_applies_nil applies

theorem calls_append : Calls (exprs ++ others) name ↔ Calls exprs name ∨ Calls others name := by
  simp only [Calls, applies_append, exists_or]

end Expr

/-! ## Outcomes -/

/-- The outcome of writing expressions: a result if no function occurs in them, and
otherwise a fault that names one that does. -/
inductive Target.Settles (target : Target) (exprs : List Expr) {α : Type} :
    Except Fault α → Prop
  | written (result : α) : (∀ name, ¬ Expr.Calls exprs name) → Settles target exprs (.ok result)
  | refused (name : String) : Expr.Calls exprs name →
      Settles target exprs (.error (.unsupportedOperation name target))

namespace Target

variable {target : Target} {exprs others : List Expr} {α β : Type} {outcome : Except Fault α}

theorem Settles.congr (settles : target.Settles exprs outcome)
    (alike : ∀ name, Expr.Calls exprs name ↔ Expr.Calls others name) :
    target.Settles others outcome := by
  cases settles with
  | written result uncalled =>
      exact .written result fun name => mt (alike name).mpr (uncalled name)
  | refused name calls => exact .refused name ((alike name).mp calls)

/-- One expression after another is written, up to the first function. -/
theorem Settles.bind {next : α → Except Fault β} (first : target.Settles exprs outcome)
    (later : ∀ result, target.Settles others (next result)) :
    target.Settles (exprs ++ others) (outcome >>= next) := by
  cases first with
  | refused name calls => exact .refused name (Expr.calls_append.mpr (.inl calls))
  | written result uncalled =>
      refine (later result).congr fun name => ?_
      rw [Expr.calls_append, or_iff_right (uncalled name)]

/-- Nothing more is written in a step that succeeds. -/
theorem Settles.map {next : α → Except Fault β} (first : target.Settles exprs outcome)
    (succeeds : ∀ result, outcome = .ok result → ∃ value, next result = .ok value) :
    target.Settles exprs (outcome >>= next) := by
  cases first with
  | refused name calls => exact .refused name calls
  | written result uncalled =>
      obtain ⟨value, isValue⟩ := succeeds result rfl
      have done : Except.ok result >>= next = .ok value := isValue
      rw [done]
      exact .written value uncalled

theorem Settles.exists_eq_ok_iff (settles : target.Settles exprs outcome) :
    (∃ result, outcome = .ok result) ↔ ∀ name, ¬ Expr.Calls exprs name := by
  cases settles with
  | written result uncalled => exact ⟨fun _ => uncalled, fun _ => ⟨result, rfl⟩⟩
  | refused name calls => exact ⟨nofun, fun uncalled => absurd calls (uncalled name)⟩

theorem Settles.exists_eq_error (settles : target.Settles exprs outcome)
    (called : ∃ name, Expr.Calls exprs name) :
    ∃ name, Expr.Calls exprs name ∧ outcome = .error (.unsupportedOperation name target) := by
  cases settles with
  | written result uncalled =>
      obtain ⟨name, calls⟩ := called
      exact absurd calls (uncalled name)
  | refused name calls => exact ⟨name, calls, rfl⟩

/-! ## Writing -/

/-- Writing well-formed expressions fails at functions only. -/
theorem settles_write {expr : Expr} (checked : expr.check = .ok ()) :
    target.Settles [expr] (target.write expr) := by
  cases written : target.write expr with
  | ok fragment =>
      refine .written fragment fun name calls => ?_
      obtain ⟨count, arguments, _, occurs⟩ := calls
      have sound := exists_write_eq_ok_iff.mp ⟨fragment, written⟩
      cases sound _ (Expr.mem_nodes_iff.mpr occurs)
  | error fault =>
      rw [← Outcome.fault?_eq_some_iff, fault?_write] at written
      obtain ⟨node, member, reported⟩ := List.exists_of_findSome?_eq_some written
      -- The check passes, so what is reported cannot be a number of arguments.
      have counted : ∀ node ∈ expr.nodes, node.arityFault? = none := by
        rw [← List.findSome?_eq_none_iff, ← Expr.fault?_check, checked]
        rfl
      cases node with
      | symbol leaf => cases reported
      | literal constant => cases reported
      | op operation arguments =>
          cases operation with
          | function name =>
              cases reported
              exact .refused name ⟨_, arguments, rfl, Expr.mem_nodes_iff.mp member⟩
          | _ => cases (counted _ member).symm.trans reported

end Target

/-! ## Programs -/

namespace ListingRequest

variable {request : ListingRequest} {program : Program}

/-- The program of a request applies the operations that the outputs apply. -/
theorem applies_program_iff (found : request.program = .ok program) {operation : Operation}
    {count : Nat} :
    Expr.Applies program.exprs operation count ↔
      Expr.Applies request.outputs operation count := by
  obtain ⟨checked, rfl⟩ := program_eq_ok_iff.mp found
  obtain ⟨distinct, _, _⟩ := Naming.declares_of_checkRequest checked
  rw [Program.exprs_substitute,
    Expr.applies_map_substitute_of_renames (Naming.renames_arrangement distinct), body]
  split
  · exact Program.applies_shared_iff (Naming.unreserved_of_checkRequest checked)
  · rfl

theorem length_outputs_program (found : request.program = .ok program) :
    program.outputs.length = request.outputs.length := by
  obtain ⟨_, rfl⟩ := program_eq_ok_iff.mp found
  rw [Program.substitute, List.length_map, body]
  split
  · exact (Hoisted.walks_outputs request.naming request.outputs).1.length_eq
  · rfl

theorem checkAll_program (found : request.program = .ok program) :
    Expr.checkAll program.exprs = .ok () := by
  obtain ⟨checked, _⟩ := program_eq_ok_iff.mp found
  have outputsChecked := Expr.checkAll_eq_ok_iff.mpr (Naming.check_of_checkRequest checked)
  rw [Expr.checkAll_eq_ok_iff_applies] at outputsChecked ⊢
  intro operation count applies
  exact outputsChecked operation count ((applies_program_iff found).mp applies)

end ListingRequest

/-! ## Listings -/

namespace Listing

variable {target : Target}

theorem settles_temporaryText {definition : Expr} (checked : definition.check = .ok ()) :
    target.Settles [definition] (temporaryText target definition) := by
  refine (Target.settles_write checked).map fun fragment _ => ?_
  split
  · exact ⟨_, rfl⟩
  · exact ⟨_, rfl⟩

theorem settles_temporaryTexts {temporaries : List Temporary}
    (checked : ∀ temporary ∈ temporaries, temporary.definition.check = .ok ()) :
    target.Settles (temporaries.map (·.definition)) (temporaryTexts target temporaries) := by
  induction temporaries with
  | nil =>
      exact .written _ fun _ => Expr.not_calls_nil
  | cons temporary others inductionHypothesis =>
      rw [List.forall_mem_cons] at checked
      exact (settles_temporaryText checked.1).bind fun text =>
        (inductionHypothesis checked.2).map fun texts _ => ⟨_, rfl⟩

theorem settles_outputTexts {outputs : List Expr}
    (checked : ∀ output ∈ outputs, output.check = .ok ()) :
    target.Settles outputs (outputTexts target outputs) := by
  induction outputs with
  | nil =>
      exact .written _ fun _ => Expr.not_calls_nil
  | cons output others inductionHypothesis =>
      rw [List.forall_mem_cons] at checked
      have text : target.Settles [output] (target.render output) :=
        (Target.settles_write checked.1).map fun fragment _ => ⟨fragment.text, rfl⟩
      exact text.bind fun text =>
        (inductionHypothesis checked.2).map fun texts _ => ⟨_, rfl⟩

theorem settles_ofProgram {program : Program} (checked : Expr.checkAll program.exprs = .ok ()) :
    target.Settles program.exprs (ofProgram target program) := by
  rw [Expr.checkAll_eq_ok_iff, Program.exprs, List.forall_mem_append, List.forall_mem_map]
    at checked
  exact (settles_temporaryTexts checked.1).bind fun temporaries =>
    (settles_outputTexts checked.2).map fun outputs _ => ⟨_, rfl⟩

/-- A request that passes its check gets a listing unless its outputs call a function. -/
theorem settles_generate {request : ListingRequest}
    (checked : request.naming.checkRequest request.inputs request.outputs = .ok ()) :
    request.target.Settles request.outputs (generate request) := by
  have found := ListingRequest.program_eq_ok_iff.mpr ⟨checked, rfl⟩
  rw [generate, found]
  refine (settles_ofProgram (ListingRequest.checkAll_program found)).congr fun name => ?_
  exact exists_congr fun count => ListingRequest.applies_program_iff found

theorem generate_eq_error {request : ListingRequest} {fault : Fault}
    (failed : request.naming.checkRequest request.inputs request.outputs = .error fault) :
    generate request = .error fault := by
  rw [generate, ListingRequest.program_eq_checked, failed]
  rfl

theorem exists_generate_eq_ok_iff {request : ListingRequest} :
    (∃ listing, generate request = .ok listing) ↔
      request.naming.checkRequest request.inputs request.outputs = .ok () ∧
        ∀ name, ¬ Expr.Calls request.outputs name := by
  cases checked : request.naming.checkRequest request.inputs request.outputs with
  | error fault => simp [generate_eq_error checked]
  | ok _ =>
      rw [(settles_generate checked).exists_eq_ok_iff]
      exact (and_iff_right rfl).symm

/-! ## Requests -/

/-- A request gets a listing exactly if it passes its check and its outputs call no
function, whatever the target is and however the program is made.  Otherwise it fails with
the fault of the check, or with one that names a function of the outputs.  A listing has
the texts of the program of the request, one for each output, and counts its operations. -/
theorem generate_outcome (request : ListingRequest) :
    ((∃ listing, generate request = .ok listing) ↔
        request.naming.checkRequest request.inputs request.outputs = .ok () ∧
          ∀ name, ¬ Expr.Calls request.outputs name) ∧
      (∀ target sharing linear,
        (∃ listing,
            generate { request with
              target := target, sharing := sharing,
              naming := { request.naming with linear := linear } } = .ok listing) ↔
          ∃ listing, generate request = .ok listing) ∧
      (∀ fault, request.naming.checkRequest request.inputs request.outputs = .error fault →
        generate request = .error fault) ∧
      (request.naming.checkRequest request.inputs request.outputs = .ok () →
        (∃ name, Expr.Calls request.outputs name) →
          ∃ name, Expr.Calls request.outputs name ∧
            generate request = .error (.unsupportedOperation name request.target)) ∧
      ∀ listing, generate request = .ok listing →
        listing.outputs.length = request.outputs.length ∧
          ∃ program, request.program = .ok program ∧
            List.Forall₂
              (fun temporary entry => entry.1 = temporary.symbol.text ∧
                temporaryText request.target temporary.definition = .ok entry.2)
              program.temporaries listing.temporaries ∧
            List.Forall₂ (fun output text => request.target.render output = .ok text)
              program.outputs listing.outputs ∧
            listing.totalOps = program.opCount := by
  refine ⟨exists_generate_eq_ok_iff, fun target sharing linear => ?_,
    fun fault => generate_eq_error, fun checked => (settles_generate checked).exists_eq_error,
    fun listing accepted => ?_⟩
  · rw [exists_generate_eq_ok_iff, exists_generate_eq_ok_iff, Naming.checkRequest_linear_iff]
  · obtain ⟨program, found, written⟩ := Outcome.bind_eq_ok_iff.mp accepted
    obtain ⟨temporaries, outputs, ofTemporaries, ofOutputs, rfl⟩ := ofProgram_eq_ok_iff.mp written
    rw [temporaryTexts_eq_ok_iff] at ofTemporaries
    rw [outputTexts_eq_ok_iff] at ofOutputs
    refine ⟨?_, program, found, ofTemporaries, ofOutputs, rfl⟩
    rw [← ofOutputs.length_eq, ListingRequest.length_outputs_program found]

/-- Two functions, the second of them inside a subexpression that is computed first if it
is computed once. -/
def unknownWaves : ListingRequest where
  inputs := [.named "x"]
  outputs :=
    let swell := Expr.sin (.op (.function "wave") [.named "x"])
    [.op (.function "gust") [.named "x"] - swell, swell]
  target := .cpp
  sharing := true
  naming := .arrayed

theorem generate_outcome_unknownWaves :
    generate unknownWaves = .error (.unsupportedOperation "wave" .cpp) ∧
      generate { unknownWaves with sharing := false } =
          .error (.unsupportedOperation "gust" .cpp) ∧
        ∀ target sharing linear,
          ¬ ∃ listing,
            generate { unknownWaves with
              target := target, sharing := sharing,
              naming := { unknownWaves.naming with linear := linear } } = .ok listing := by
  refine ⟨rfl, rfl, fun target sharing linear => ?_⟩
  obtain ⟨accepts, independent, _⟩ := generate_outcome unknownWaves
  rw [independent target sharing linear, accepts]
  rintro ⟨_, uncalled⟩
  have inOutputs : Expr.Occurs unknownWaves.outputs
      (.op (.function "wave") [.named "x"]) :=
    .argument (.root (List.mem_cons_of_mem _ List.mem_cons_self)) List.mem_cons_self
  exact uncalled "wave" ⟨1, _, rfl, inOutputs⟩

end Listing

end LieScribe
