import LieScribe.Listing
import LieScribe.Proofs.Sharing.WellFormed
import Mathlib.Data.List.Forall2

/-!
# The texts of a listing

A request is checked, its program is made, and the program is written: one text for each
temporary under its name, and one for each output, in the order of the program.
-/

namespace LieScribe

/-! ## The program of a request -/

namespace ListingRequest

variable {request : ListingRequest} {program : Program}

/-- The program under the names that the inputs are declared with. -/
def body (request : ListingRequest) : Program :=
  if request.sharing then
    Program.shared request.naming request.outputs
  else
    Program.ofOutputs request.outputs

theorem program_eq_checked (request : ListingRequest) :
    request.program = do
      request.naming.checkRequest request.inputs request.outputs
      return request.body.substitute (request.naming.arrangement request.inputs) := by
  rw [ListingRequest.program, body]
  split
  · rw [Program.share, Program.arrange_eq_substitute]
  · rw [Program.plain, Program.arrange_eq_substitute]

theorem program_eq_ok_iff :
    request.program = .ok program ↔
      request.naming.checkRequest request.inputs request.outputs = .ok () ∧
        request.body.substitute (request.naming.arrangement request.inputs) = program := by
  rw [program_eq_checked, Outcome.checked_eq_ok_iff]

theorem wellFormed_program (found : request.program = .ok program) :
    program.WellFormed request.naming (request.naming.leaves request.inputs) := by
  obtain ⟨checked, rfl⟩ := program_eq_ok_iff.mp found
  obtain ⟨distinct, free, declared⟩ := Naming.declares_of_checkRequest checked
  have wellFormed : request.body.WellFormed request.naming request.inputs := by
    rw [body]
    split
    · exact Program.wellFormed_shared _ declared
    · exact Program.wellFormed_ofOutputs _ declared
  exact wellFormed.arrange distinct free

end ListingRequest

/-! ## Written programs -/

namespace Listing

variable {target : Target} {program : Program} {listing : Listing}

theorem temporaryTexts_cons_eq_ok_iff {temporary : Temporary} {others : List Temporary}
    {texts : List (String × String)} :
    temporaryTexts target (temporary :: others) = .ok texts ↔
      ∃ text further, temporaryText target temporary.definition = .ok text ∧
        temporaryTexts target others = .ok further ∧
          (temporary.symbol.text, text) :: further = texts := by
  simp only [temporaryTexts, Outcome.bind_eq_ok_iff, Outcome.pure_eq_ok_iff]
  grind

theorem outputTexts_cons_eq_ok_iff {output : Expr} {others : List Expr}
    {texts : List String} :
    outputTexts target (output :: others) = .ok texts ↔
      ∃ text further, target.render output = .ok text ∧
        outputTexts target others = .ok further ∧ text :: further = texts := by
  simp only [outputTexts, Outcome.bind_eq_ok_iff, Outcome.pure_eq_ok_iff]
  grind

theorem temporaryTexts_eq_ok_iff {temporaries : List Temporary}
    {texts : List (String × String)} :
    temporaryTexts target temporaries = .ok texts ↔
      List.Forall₂
        (fun temporary entry => entry.1 = temporary.symbol.text ∧
          temporaryText target temporary.definition = .ok entry.2)
        temporaries texts := by
  induction temporaries generalizing texts with
  | nil =>
      simp [temporaryTexts, eq_comm]
  | cons temporary others inductionHypothesis =>
      rw [temporaryTexts_cons_eq_ok_iff, List.forall₂_cons_left_iff]
      simp only [inductionHypothesis, Prod.exists]
      grind

theorem outputTexts_eq_ok_iff {outputs : List Expr} {texts : List String} :
    outputTexts target outputs = .ok texts ↔
      List.Forall₂ (fun output text => target.render output = .ok text) outputs texts := by
  induction outputs generalizing texts with
  | nil =>
      simp [outputTexts, eq_comm]
  | cons output others inductionHypothesis =>
      rw [outputTexts_cons_eq_ok_iff, List.forall₂_cons_left_iff]
      simp only [inductionHypothesis]
      grind

theorem ofProgram_eq_ok_iff :
    ofProgram target program = .ok listing ↔
      ∃ temporaries outputs, temporaryTexts target program.temporaries = .ok temporaries ∧
        outputTexts target program.outputs = .ok outputs ∧
          ⟨temporaries, outputs, program.opCount⟩ = listing := by
  simp only [ofProgram, Outcome.bind_eq_ok_iff, Outcome.pure_eq_ok_iff]
  grind

theorem written_of_temporaryTexts {temporaries : List Temporary}
    {texts : List (String × String)}
    (accepted : temporaryTexts target temporaries = .ok texts) :
    ∀ temporary ∈ temporaries, ∃ fragment, target.write temporary.definition = .ok fragment := by
  induction temporaries generalizing texts with
  | nil =>
      exact fun _ => (nomatch ·)
  | cons temporary others inductionHypothesis =>
      obtain ⟨_, _, ofFirst, ofOthers, _⟩ := temporaryTexts_cons_eq_ok_iff.mp accepted
      obtain ⟨fragment, written, _⟩ := Outcome.bind_eq_ok_iff.mp ofFirst
      exact List.forall_mem_cons.mpr ⟨⟨fragment, written⟩, inductionHypothesis ofOthers⟩

theorem written_of_outputTexts {outputs : List Expr} {texts : List String}
    (accepted : outputTexts target outputs = .ok texts) :
    ∀ output ∈ outputs, ∃ fragment, target.write output = .ok fragment := by
  induction outputs generalizing texts with
  | nil =>
      exact fun _ => (nomatch ·)
  | cons output others inductionHypothesis =>
      obtain ⟨_, _, ofFirst, ofOthers, _⟩ := outputTexts_cons_eq_ok_iff.mp accepted
      obtain ⟨fragment, written, _⟩ := Outcome.bind_eq_ok_iff.mp ofFirst
      exact List.forall_mem_cons.mpr ⟨⟨fragment, written⟩, inductionHypothesis ofOthers⟩

end Listing

end LieScribe
