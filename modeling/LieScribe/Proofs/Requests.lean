import LieScribe.Proofs.FirstFault
import LieScribe.Proofs.Sharing.Names
import LieScribe.Proofs.Symbols

/-!
# Which requests pass their check

A request passes its check exactly if its inputs are declared once each and under names that
no temporary can get, and if its outputs apply operations to numbers of arguments that they
accept, and to declared symbols.  Otherwise the check ends with the first thing that is wrong,
when the inputs are read before the outputs, and each output for its operations before its
symbols.  `Naming.FirstFault` describes this fault without following the check.
-/

namespace LieScribe

/-! ## Nodes -/

namespace Expr

/-- Every operation among the nodes accepts the number of its arguments. -/
def Counted (nodes : List Expr) : Prop :=
  ∀ operation arguments, .op operation arguments ∈ nodes →
    operation.arity.accepts arguments.length = true

/-- Every symbol among the nodes is declared. -/
def Declared (inputs : List Symbol) (nodes : List Expr) : Prop :=
  ∀ symbol, .symbol symbol ∈ nodes → symbol ∈ inputs

theorem arityFault?_eq_some_iff {node : Expr} {fault : Fault} :
    node.arityFault? = some fault ↔
      ∃ operation arguments, node = .op operation arguments ∧
        operation.arity.accepts arguments.length = false ∧
          fault = .malformedOperation operation.name operation.arity arguments.length := by
  constructor
  · intro reported
    cases node with
    | symbol leaf => cases reported
    | literal constant => cases reported
    | op operation arguments =>
        rw [arityFault?] at reported
        by_cases accepted : operation.arity.accepts arguments.length = true
        · rw [if_pos accepted] at reported
          cases reported
        · rw [if_neg accepted] at reported
          cases reported
          exact ⟨operation, arguments, rfl, Bool.eq_false_iff.mpr accepted, rfl⟩
  · rintro ⟨operation, arguments, rfl, refused, rfl⟩
    rw [arityFault?, refused]
    rfl

theorem counted_iff {nodes : List Expr} :
    Counted nodes ↔ ∀ node ∈ nodes, node.arityFault? = none := by
  constructor
  · intro counted node member
    cases node with
    | symbol leaf => rfl
    | literal constant => rfl
    | op operation arguments => exact if_pos (counted operation arguments member)
  · intro faultless operation arguments member
    have none := faultless _ member
    rw [arityFault?] at none
    by_contra refused
    rw [if_neg refused] at none
    cases none

theorem check_eq_ok_iff_counted {expr : Expr} : expr.check = .ok () ↔ Counted expr.nodes := by
  rw [counted_iff, ← List.findSome?_eq_none_iff, ← fault?_check, Outcome.fault?_eq_none_iff]
  exact ⟨fun passes => ⟨(), passes⟩, fun ⟨_, passes⟩ => passes⟩

theorem check_eq_error_iff {expr : Expr} {fault : Fault} :
    expr.check = .error fault ↔
      ∃ before operation arguments after,
        expr.nodes = before ++ .op operation arguments :: after ∧ Counted before ∧
          operation.arity.accepts arguments.length = false ∧
            fault = .malformedOperation operation.name operation.arity arguments.length := by
  rw [← Outcome.fault?_eq_some_iff, fault?_check, List.findSome?_eq_some_iff]
  simp only [arityFault?_eq_some_iff, ← counted_iff]
  grind

theorem forall_symbols_mem_iff_declared {expr : Expr} {inputs : List Symbol} :
    (∀ symbol ∈ expr.symbols, symbol ∈ inputs) ↔ Declared inputs expr.nodes := by
  simp only [Declared, mem_symbols_iff_mem_nodes]

/-- The first symbol that is not declared. -/
theorem find?_symbols_eq_some_iff {expr : Expr} {inputs : List Symbol} {symbol : Symbol} :
    expr.symbols.find? (· ∉ inputs) = some symbol ↔
      ∃ before after, expr.nodes = before ++ .symbol symbol :: after ∧
        Declared inputs before ∧ symbol ∉ inputs := by
  rw [symbols_eq_filterMap, List.find?_filterMap, Option.bind_eq_some_iff]
  simp only [List.find?_eq_some_iff_append]
  constructor
  · rintro ⟨node, ⟨undeclared, before, after, split, earlier⟩, isLeaf⟩
    cases node with
    | symbol leaf =>
        cases isLeaf
        refine ⟨before, after, split, fun early member => ?_, by simpa [symbol?] using undeclared⟩
        simpa [symbol?] using earlier _ member
    | literal constant => cases isLeaf
    | op operation arguments => cases isLeaf
  · rintro ⟨before, after, split, declared, undeclared⟩
    refine ⟨.symbol symbol, ⟨by simpa [symbol?] using undeclared, before, after, split, ?_⟩, rfl⟩
    intro node member
    cases node with
    | symbol leaf => simpa [symbol?] using declared leaf member
    | literal constant => rfl
    | op operation arguments => rfl

end Expr

/-! ## Inputs -/

namespace Naming

variable {naming : Naming} {inputs : List Symbol} {outputs : List Expr} {fault : Fault}

/-- The names that temporaries are taken from: the stem and one or more digits. -/
inductive Reserves (naming : Naming) : Symbol → Prop
  | numbered (digits : List Char) :
      digits ≠ [] → (∀ digit ∈ digits, '0' ≤ digit ∧ digit ≤ '9') →
      Reserves naming (.named (naming.stem ++ String.ofList digits))

theorem isReserved_iff {symbol : Symbol} :
    naming.isReserved symbol = true ↔ naming.Reserves symbol := by
  constructor
  · intro reserved
    cases symbol with
    | element array index => cases reserved
    | named name =>
        rw [isReserved, Bool.and_eq_true, List.isPrefixOf_iff_prefix] at reserved
        obtain ⟨⟨digits, split⟩, numeral⟩ := reserved
        rw [← split, List.drop_left, Symbol.isNumeral_iff] at numeral
        have isName : naming.stem ++ String.ofList digits = name := by
          rw [← String.toList_inj, String.toList_append, String.toList_ofList, split]
        exact isName ▸ .numbered digits numeral.1 numeral.2
  · rintro ⟨digits, nonempty, each⟩
    have numeral := Symbol.isNumeral_iff.mpr ⟨nonempty, each⟩
    simp [isReserved, numeral]

/-- Inputs that are declared once each, under names that are not reserved. -/
def Declares (naming : Naming) (inputs : List Symbol) : Prop :=
  inputs.Nodup ∧ ∀ symbol ∈ inputs, ¬ naming.Reserves symbol

/-- What is wrong with an input after the ones before it. -/
inductive RefusesInput (naming : Naming) (before : List Symbol) (symbol : Symbol) : Fault → Prop
  | duplicate : symbol ∈ before → RefusesInput naming before symbol (.duplicateInput symbol)
  | reserved : symbol ∉ before → naming.Reserves symbol →
      RefusesInput naming before symbol (.reservedSymbol symbol naming.stem)

theorem declares_iff_checkInputs :
    naming.Declares inputs ↔ naming.checkInputs [] inputs = .ok () := by
  simp only [Declares, checkInputs_eq_ok_iff, ← isReserved_iff, List.not_mem_nil,
    not_false_eq_true, implies_true, true_and, Bool.not_eq_true]

theorem checkInputs_append {declared others : List Symbol} :
    naming.checkInputs declared (inputs ++ others) = (do
      naming.checkInputs declared inputs
      naming.checkInputs (inputs.reverse ++ declared) others) := by
  induction inputs generalizing declared with
  | nil =>
      rfl
  | cons first rest inductionHypothesis =>
      rw [List.cons_append, checkInputs, checkInputs]
      split
      · rfl
      · split
        · rfl
        · rw [inductionHypothesis, List.reverse_cons, List.append_assoc, List.singleton_append]

theorem RefusesInput.congr {before others : List Symbol} {symbol : Symbol}
    (refuses : naming.RefusesInput before symbol fault)
    (alike : symbol ∈ before ↔ symbol ∈ others) : naming.RefusesInput others symbol fault := by
  cases refuses with
  | duplicate earlier => exact .duplicate (alike.mp earlier)
  | reserved fresh reserves => exact .reserved (mt alike.mpr fresh) reserves

/-- The inputs that are passed are declared by then, the last one first. -/
theorem exists_refusesInput_of_checkInputs {declared : List Symbol}
    (failed : naming.checkInputs declared inputs = .error fault) :
    ∃ before symbol after, inputs = before ++ symbol :: after ∧
      naming.checkInputs declared before = .ok () ∧
        naming.RefusesInput (before.reverse ++ declared) symbol fault := by
  induction inputs generalizing declared with
  | nil =>
      cases failed
  | cons first rest inductionHypothesis =>
      rw [checkInputs] at failed
      by_cases earlier : first ∈ declared
      · rw [if_pos earlier] at failed
        cases failed
        exact ⟨[], first, rest, rfl, rfl, .duplicate earlier⟩
      · rw [if_neg earlier] at failed
        by_cases reserved : naming.isReserved first = true
        · rw [if_pos reserved] at failed
          cases failed
          exact ⟨[], first, rest, rfl, rfl, .reserved earlier (isReserved_iff.mp reserved)⟩
        · rw [if_neg reserved] at failed
          obtain ⟨before, symbol, after, rfl, passes, refuses⟩ := inductionHypothesis failed
          refine ⟨first :: before, symbol, after, rfl, ?_, ?_⟩
          · rw [checkInputs, if_neg earlier, if_neg reserved, passes]
          · rwa [List.reverse_cons, List.append_assoc, List.singleton_append]

theorem checkInputs_eq_error_of_refuses {declared others : List Symbol} {symbol : Symbol}
    (refuses : naming.RefusesInput declared symbol fault) :
    naming.checkInputs declared (symbol :: others) = .error fault := by
  rw [checkInputs]
  cases refuses with
  | duplicate earlier => rw [if_pos earlier]
  | reserved fresh reserves => rw [if_neg fresh, if_pos (isReserved_iff.mpr reserves)]

/-- The check of the inputs fails at the first one that is refused. -/
theorem checkInputs_eq_error_iff :
    naming.checkInputs [] inputs = .error fault ↔
      ∃ before symbol after, inputs = before ++ symbol :: after ∧ naming.Declares before ∧
        naming.RefusesInput before symbol fault := by
  constructor
  · intro failed
    obtain ⟨before, symbol, after, split, passes, refuses⟩ :=
      exists_refusesInput_of_checkInputs failed
    exact ⟨before, symbol, after, split, declares_iff_checkInputs.mpr passes,
      refuses.congr (by simp)⟩
  · rintro ⟨before, symbol, after, rfl, declares, refuses⟩
    rw [checkInputs_append, declares_iff_checkInputs.mp declares]
    exact checkInputs_eq_error_of_refuses (refuses.congr (by simp))

/-! ## Outputs -/

/-- An output whose operations accept the numbers of their arguments, in declared symbols. -/
def AdmitsOutput (inputs : List Symbol) (output : Expr) : Prop :=
  Expr.Counted output.nodes ∧ Expr.Declared inputs output.nodes

/-- What is wrong with an output: its first operation that does not accept the number of its
arguments or, if there is none, its first symbol that is not declared. -/
inductive RefusesOutput (inputs : List Symbol) (output : Expr) : Fault → Prop
  | malformed {operation : Operation} {arguments before after : List Expr} :
      output.nodes = before ++ .op operation arguments :: after →
      Expr.Counted before →
      operation.arity.accepts arguments.length = false →
      RefusesOutput inputs output
        (.malformedOperation operation.name operation.arity arguments.length)
  | undefined {symbol : Symbol} {before after : List Expr} :
      Expr.Counted output.nodes →
      output.nodes = before ++ .symbol symbol :: after →
      Expr.Declared inputs before →
      symbol ∉ inputs →
      RefusesOutput inputs output (.undefinedSymbol symbol)

theorem admitsOutput_iff_checkOutput {output : Expr} :
    AdmitsOutput inputs output ↔ checkOutput inputs output = .ok () := by
  rw [AdmitsOutput, checkOutput_eq_ok_iff, Expr.check_eq_ok_iff_counted,
    Expr.forall_symbols_mem_iff_declared]

theorem checkOutput_eq_error_iff {output : Expr} :
    checkOutput inputs output = .error fault ↔ RefusesOutput inputs output fault := by
  rw [checkOutput, Outcome.check_eq_error_iff, Expr.check_eq_error_iff,
    Expr.check_eq_ok_iff_counted]
  constructor
  · rintro (⟨before, operation, arguments, after, split, counted, refused, rfl⟩ | ⟨counted, failed⟩)
    · exact .malformed split counted refused
    · cases found : output.symbols.find? (· ∉ inputs) with
      | none =>
          rw [found] at failed
          cases failed
      | some symbol =>
          rw [found] at failed
          cases failed
          obtain ⟨before, after, split, declared, undeclared⟩ :=
            Expr.find?_symbols_eq_some_iff.mp found
          exact .undefined counted split declared undeclared
  · intro refuses
    cases refuses with
    | malformed split counted refused =>
        exact .inl ⟨_, _, _, _, split, counted, refused, rfl⟩
    | undefined counted split declared undeclared =>
        have found := Expr.find?_symbols_eq_some_iff.mpr ⟨_, _, split, declared, undeclared⟩
        exact .inr ⟨counted, by rw [found]⟩

/-- The check of the outputs fails at the first one that is refused. -/
theorem checkOutputs_eq_error_iff :
    checkOutputs inputs outputs = .error fault ↔
      ∃ before output after, outputs = before ++ output :: after ∧
        (∀ earlier ∈ before, AdmitsOutput inputs earlier) ∧ RefusesOutput inputs output fault := by
  induction outputs with
  | nil =>
      constructor
      · intro failed
        cases failed
      · rintro ⟨before, output, after, split, _⟩
        cases before <;> cases split
  | cons first rest inductionHypothesis =>
      rw [checkOutputs, Outcome.check_eq_error_iff, checkOutput_eq_error_iff,
        ← admitsOutput_iff_checkOutput, inductionHypothesis]
      constructor
      · rintro (refuses | ⟨admitted, before, output, after, rfl, each, refuses⟩)
        · exact ⟨[], first, rest, rfl, List.forall_mem_nil _, refuses⟩
        · exact ⟨first :: before, output, after, rfl,
            List.forall_mem_cons.mpr ⟨admitted, each⟩, refuses⟩
      · rintro ⟨before, output, after, split, each, refuses⟩
        cases before with
        | nil =>
            cases split
            exact .inl refuses
        | cons early before =>
            cases split
            obtain ⟨admitted, others⟩ := List.forall_mem_cons.mp each
            exact .inr ⟨admitted, before, output, after, rfl, others, refuses⟩

/-! ## Requests -/

/-- The first fault of a request.  Inputs come before outputs, and what comes before the
fault is in order. -/
inductive FirstFault (naming : Naming) (inputs : List Symbol) (outputs : List Expr) :
    Fault → Prop
  | input {before after : List Symbol} {symbol : Symbol} {fault : Fault} :
      inputs = before ++ symbol :: after →
      naming.Declares before →
      naming.RefusesInput before symbol fault →
      FirstFault naming inputs outputs fault
  | output {before after : List Expr} {output : Expr} {fault : Fault} :
      naming.Declares inputs →
      outputs = before ++ output :: after →
      (∀ earlier ∈ before, AdmitsOutput inputs earlier) →
      RefusesOutput inputs output fault →
      FirstFault naming inputs outputs fault

/-- A request passes its check exactly if its inputs are declared once each under names that
are not reserved, and its outputs apply operations to numbers of arguments that they accept
and use declared symbols only.  Otherwise the check ends with the first fault. -/
theorem checkRequest_outcome (naming : Naming) (inputs : List Symbol) (outputs : List Expr) :
    (naming.checkRequest inputs outputs = .ok () ↔
        naming.Declares inputs ∧ ∀ output ∈ outputs, AdmitsOutput inputs output) ∧
      ∀ fault, naming.checkRequest inputs outputs = .error fault ↔
        naming.FirstFault inputs outputs fault := by
  constructor
  · rw [checkRequest, Outcome.check_eq_ok_iff, ← declares_iff_checkInputs,
      checkOutputs_eq_ok_iff]
    simp only [admitsOutput_iff_checkOutput]
  · intro fault
    rw [checkRequest, Outcome.check_eq_error_iff, checkInputs_eq_error_iff,
      ← declares_iff_checkInputs, checkOutputs_eq_error_iff]
    constructor
    · rintro (⟨before, symbol, after, split, declares, refuses⟩ |
        ⟨declares, before, output, after, split, admitted, refuses⟩)
      · exact .input split declares refuses
      · exact .output declares split admitted refuses
    · intro first
      cases first with
      | input split declares refuses => exact .inl ⟨_, _, _, split, declares, refuses⟩
      | output declares split admitted refuses =>
          exact .inr ⟨declares, _, _, _, split, admitted, refuses⟩

/-- A symbol, and a sum of another one and a sine without an argument. -/
def misusedSymbols : List Expr :=
  [.named "x", .named "y" + .op .sin []]

theorem checkRequest_outcome_misusedSymbols :
    Naming.named.FirstFault [.named "x"] misusedSymbols
        (.malformedOperation "sin" (.exactly 1) 0) ∧
      Naming.named.FirstFault [.named "x", .named "tmp12", .named "x"] misusedSymbols
        (.reservedSymbol (.named "tmp12") "tmp") ∧
      Naming.named.FirstFault [.named "tmp"] misusedSymbols (.undefinedSymbol (.named "x")) := by
  refine ⟨?_, ?_, ?_⟩
  · exact ((checkRequest_outcome .named [.named "x"] misusedSymbols).2 _).mp rfl
  · exact ((checkRequest_outcome .named [.named "x", .named "tmp12", .named "x"]
      misusedSymbols).2 _).mp rfl
  · exact ((checkRequest_outcome .named [.named "tmp"] misusedSymbols).2 _).mp rfl

end Naming

end LieScribe
