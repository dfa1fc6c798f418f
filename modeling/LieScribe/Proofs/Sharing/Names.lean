import LieScribe.Program.Request
import LieScribe.Proofs.Expr
import LieScribe.Proofs.Outcome

/-!
# The names of temporaries

Temporaries at different positions have different names, and every one of these
names is reserved.  A request that passes its check therefore declares no symbol
that a temporary could capture, and its outputs use none.
-/

namespace LieScribe

namespace Naming

variable {naming : Naming}

theorem isReserved_temporary (naming : Naming) (position : Nat) :
    naming.isReserved (naming.temporary position) = true := by
  simp [isReserved, temporary, Symbol.isNumeral_toDigits]

theorem temporary_injective {left right : Nat}
    (equal : naming.temporary left = naming.temporary right) :
    left = right := by
  have names :
      naming.stem ++ Nat.repr left = naming.stem ++ Nat.repr right := by
    simpa [temporary] using equal
  have digits : Nat.toDigits 10 left = Nat.toDigits 10 right := by
    simpa using congrArg String.toList names
  calc
    left = Nat.ofDigitChars 10 (Nat.toDigits 10 left) 0 :=
      Nat.ofDigitChars_ten_toDigits.symm
    _ = Nat.ofDigitChars 10 (Nat.toDigits 10 right) 0 := by rw [digits]
    _ = right := Nat.ofDigitChars_ten_toDigits

@[simp]
theorem temporary_inj {left right : Nat} :
    naming.temporary left = naming.temporary right ↔ left = right :=
  ⟨temporary_injective, congrArg naming.temporary⟩

/-! ## What a checked request uses -/

/-- Inputs pass exactly if each of them is declared once and under a free name. -/
theorem checkInputs_eq_ok_iff {declared inputs : List Symbol} :
    naming.checkInputs declared inputs = .ok () ↔
      inputs.Nodup ∧ (∀ symbol ∈ inputs, symbol ∉ declared) ∧
        ∀ symbol ∈ inputs, naming.isReserved symbol = false := by
  induction inputs generalizing declared with
  | nil =>
      simp [checkInputs]
  | cons first others inductionHypothesis =>
      rw [checkInputs]
      by_cases earlier : first ∈ declared
      · simp [earlier]
      · cases reserved : naming.isReserved first with
        | true => simp [earlier, reserved]
        | false =>
            simp only [earlier, if_false, Bool.false_eq_true, inductionHypothesis,
              List.nodup_cons, List.mem_cons, not_or]
            grind

theorem checkOutput_eq_ok_iff {declared : List Symbol} {output : Expr} :
    checkOutput declared output = .ok () ↔
      output.check = .ok () ∧ ∀ symbol ∈ output.symbols, symbol ∈ declared := by
  rw [checkOutput, Outcome.check_eq_ok_iff]
  refine and_congr_right fun _ => ?_
  have noneMissing : output.symbols.find? (· ∉ declared) = none ↔
      ∀ symbol ∈ output.symbols, symbol ∈ declared := by
    simp
  rw [← noneMissing]
  cases output.symbols.find? (· ∉ declared) <;> simp

theorem checkOutputs_eq_ok_iff {declared : List Symbol} {outputs : List Expr} :
    checkOutputs declared outputs = .ok () ↔
      ∀ output ∈ outputs, checkOutput declared output = .ok () := by
  induction outputs with
  | nil =>
      simp [checkOutputs]
  | cons first others inductionHypothesis =>
      rw [checkOutputs, Outcome.check_eq_ok_iff, inductionHypothesis, List.forall_mem_cons]

/-- What a request has to be like to pass its check. -/
theorem checkRequest_eq_ok_iff {inputs : List Symbol} {outputs : List Expr} :
    naming.checkRequest inputs outputs = .ok () ↔
      inputs.Nodup ∧ (∀ symbol ∈ inputs, naming.isReserved symbol = false) ∧
        ∀ output ∈ outputs,
          output.check = .ok () ∧ ∀ symbol ∈ output.symbols, symbol ∈ inputs := by
  rw [checkRequest, Outcome.check_eq_ok_iff, checkInputs_eq_ok_iff, checkOutputs_eq_ok_iff]
  simp only [checkOutput_eq_ok_iff, List.not_mem_nil, not_false_eq_true, implies_true, true_and,
    and_assoc]

/-- An expression that mentions no reserved symbol. -/
def Unreserved (naming : Naming) (expr : Expr) : Prop :=
  ∀ symbol ∈ expr.symbols, naming.isReserved symbol = false

theorem Unreserved.ne_temporary {expr : Expr}
    (unreserved : naming.Unreserved expr) {symbol : Symbol}
    (member : symbol ∈ expr.symbols) (position : Nat) :
    symbol ≠ naming.temporary position := by
  rintro rfl
  have free := unreserved _ member
  rw [isReserved_temporary] at free
  cases free

theorem Unreserved.arguments {operation : Operation} {arguments : List Expr}
    (unreserved : naming.Unreserved (.op operation arguments)) :
    ∀ argument ∈ arguments, naming.Unreserved argument := by
  intro argument member symbol mentioned
  exact unreserved symbol (Expr.mem_symbols_op.mpr ⟨argument, member, mentioned⟩)

section Checked

variable {inputs : List Symbol} {outputs : List Expr}

/-- What a request that passes its check declares and uses. -/
theorem declares_of_checkRequest (checked : naming.checkRequest inputs outputs = .ok ()) :
    inputs.Nodup ∧ (∀ position, naming.temporary position ∉ inputs) ∧
      ∀ output ∈ outputs, ∀ symbol ∈ output.symbols, symbol ∈ inputs := by
  obtain ⟨distinct, unreserved, each⟩ := checkRequest_eq_ok_iff.mp checked
  refine ⟨distinct, fun position declared => ?_, fun output member => (each output member).2⟩
  have free := unreserved _ declared
  rw [isReserved_temporary] at free
  cases free

theorem unreserved_of_checkRequest (checked : naming.checkRequest inputs outputs = .ok ()) :
    ∀ output ∈ outputs, naming.Unreserved output := by
  obtain ⟨_, unreserved, each⟩ := checkRequest_eq_ok_iff.mp checked
  intro output member symbol mentioned
  exact unreserved symbol ((each output member).2 symbol mentioned)

theorem check_of_checkRequest (checked : naming.checkRequest inputs outputs = .ok ()) :
    ∀ output ∈ outputs, output.check = .ok () := by
  obtain ⟨_, _, each⟩ := checkRequest_eq_ok_iff.mp checked
  exact fun output member => (each output member).1

/-- How the inputs are read does not matter to the check. -/
theorem checkRequest_linear_iff (linear : Bool) :
    Naming.checkRequest { naming with linear := linear } inputs outputs = .ok () ↔
      naming.checkRequest inputs outputs = .ok () := by
  rw [checkRequest_eq_ok_iff, checkRequest_eq_ok_iff]
  rfl

/-- The order of the outputs does not matter to the check. -/
theorem checkRequest_of_perm {others : List Expr}
    (checked : naming.checkRequest inputs outputs = .ok ()) (perm : outputs.Perm others) :
    naming.checkRequest inputs others = .ok () := by
  rw [checkRequest_eq_ok_iff] at checked ⊢
  obtain ⟨distinct, unreserved, each⟩ := checked
  exact ⟨distinct, unreserved, fun output member => each output (perm.mem_iff.mpr member)⟩

end Checked

end Naming

end LieScribe
