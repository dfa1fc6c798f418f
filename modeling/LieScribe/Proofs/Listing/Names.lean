import LieScribe.Proofs.Listing.Texts
import LieScribe.Proofs.Reading.Lexicon
import LieScribe.Proofs.Stepwise

/-!
# The variables of a listing

A listing assigns temporaries, which are variables with a name each, while an element of an
array is a part of the variable that holds the array.  Assigning a variable therefore
overwrites all elements of an array of that name.  The check of a request keeps the names of
temporaries free of named inputs, but does not look at the names of arrays: unless one of
these is reserved, a listing computes what its program computes.
-/

namespace LieScribe

/-! ## Assignment to a variable -/

namespace Bindings

variable {α : Type}

/-- Give a variable a value.  All symbols that it held are gone. -/
def overwrite (bindings : Bindings α) (symbol : Symbol) (value : α) : Bindings α :=
  ⟨(symbol, value) ::
    bindings.entries.filter fun entry => entry.1.baseName != symbol.baseName⟩

theorem lookup_filter (keep : Symbol → Bool) (entries : List (Symbol × α)) (symbol : Symbol) :
    (entries.filter fun entry => keep entry.1).lookup symbol =
      if keep symbol then entries.lookup symbol else none := by
  induction entries with
  | nil =>
      simp
  | cons entry others inductionHypothesis =>
      obtain ⟨name, value⟩ := entry
      by_cases found : symbol = name
      · subst found
        cases kept : keep symbol <;> simp [kept, inductionHypothesis]
      · have passedOver : (symbol == name) = false := by simpa using found
        cases kept : keep name <;>
          simp [List.lookup_cons, kept, passedOver, inductionHypothesis]

theorem get?_overwrite (bindings : Bindings α) (bound symbol : Symbol) (value : α) :
    (bindings.overwrite bound value).get? symbol =
      if symbol = bound then some value
      else if symbol.baseName = bound.baseName then none
      else bindings.get? symbol := by
  rw [overwrite, get?, List.lookup_cons,
    lookup_filter fun other => other.baseName != bound.baseName]
  by_cases isBound : symbol = bound
  · simp [isBound]
  · have passedOver : (symbol == bound) = false := by simpa using isBound
    simp [isBound, passedOver, get?]

end Bindings

namespace Program

variable {α : Type} {arithmetic : Arithmetic α} {program : Program}

/-- Run a program where assigning a temporary overwrites the variable of its name. -/
def runOverwriting (arithmetic : Arithmetic α) (program : Program) (bindings : Bindings α) :
    Except Fault (List α) :=
  runAssigning arithmetic Bindings.overwrite program.temporaries program.outputs bindings

/-- What a program reads from the variable of a temporary is the temporary. -/
def NamesApart (program : Program) : Prop :=
  ∀ temporary ∈ program.temporaries, ∀ expr ∈ program.exprs, ∀ symbol ∈ expr.symbols,
    symbol.baseName = temporary.symbol.baseName → symbol = temporary.symbol

/-- Two bindings give everything that a program reads the same value. -/
def ReadsAlike (program : Program) (bindings bindings' : Bindings α) : Prop :=
  ∀ expr ∈ program.exprs, ∀ symbol ∈ expr.symbols, bindings.get? symbol = bindings'.get? symbol

/-- Overwriting a variable of which only the temporary is read is as good as binding the
temporary. -/
theorem ReadsAlike.overwrite (apart : program.NamesApart) {temporary : Temporary}
    (member : temporary ∈ program.temporaries) {bindings bindings' : Bindings α}
    (alike : program.ReadsAlike bindings bindings') (value : α) :
    program.ReadsAlike (bindings.overwrite temporary.symbol value)
      (bindings'.bind temporary.symbol value) := by
  intro expr exprMember symbol mentioned
  have same := alike expr exprMember symbol mentioned
  rw [Bindings.get?_overwrite, Bindings.get?_bind, same]
  by_cases isTemporary : symbol = temporary.symbol
  · rw [if_pos isTemporary, if_pos isTemporary]
  · have otherVariable : symbol.baseName ≠ temporary.symbol.baseName :=
      mt (apart temporary member expr exprMember symbol mentioned) isTemporary
    rw [if_neg isTemporary, if_neg isTemporary, if_neg otherVariable]

theorem runOverwriting_eq_runIn (apart : program.NamesApart) (bindings : Bindings α) :
    program.runOverwriting arithmetic bindings = program.runIn arithmetic bindings := by
  have steps : List.Forall₂
      (StepsAlike arithmetic Bindings.overwrite Bindings.bind program.ReadsAlike)
      program.temporaries program.temporaries := by
    rw [List.forall₂_same]
    intro temporary member
    have inExprs : temporary.definition ∈ program.exprs :=
      List.mem_append_left _ (List.mem_map_of_mem member)
    exact ⟨fun _ _ alike => Expr.evaluateIn_congr (alike _ inExprs),
      fun _ _ value alike => alike.overwrite apart member value⟩
  rw [runOverwriting, runIn_eq_runAssigning]
  refine runAssigning_congr steps (fun _ _ alike => ?_) fun _ _ _ _ => rfl
  apply Expr.evaluateAllIn_congr
  rw [List.forall₂_same]
  exact fun output member => Expr.evaluateIn_congr (alike output (List.mem_append_right _ member))

end Program

/-! ## The names of a program -/

namespace Program

variable {naming : Naming} {leaves : List Symbol} {program : Program}

theorem WellFormed.symbol_eq_named (wellFormed : program.WellFormed naming leaves)
    {temporary : Temporary} (member : temporary ∈ program.temporaries) :
    temporary.symbol = .named temporary.symbol.baseName := by
  obtain ⟨position, named⟩ := wellFormed.isTemporary temporary member
  rw [named]
  rfl

/-- The variable of a temporary holds the temporary, and besides it at most elements of an
array among the leaves. -/
theorem WellFormed.eq_or_element (wellFormed : program.WellFormed naming leaves)
    {temporary : Temporary} (member : temporary ∈ program.temporaries) {expr : Expr}
    (exprMember : expr ∈ program.exprs) {symbol : Symbol} (mentioned : symbol ∈ expr.symbols)
    (sameVariable : symbol.baseName = temporary.symbol.baseName) :
    symbol = temporary.symbol ∨
      ∃ index, symbol = .element temporary.symbol.baseName index ∧ symbol ∈ leaves := by
  cases symbol with
  | named name =>
      rw [wellFormed.symbol_eq_named member]
      exact .inl (congrArg Symbol.named sameVariable)
  | element array index =>
      have isLeaf := wellFormed.mem_leaves_or_temporaries expr exprMember _ mentioned
      refine .inr ⟨index, congrArg (Symbol.element · index) sameVariable,
        isLeaf.resolve_right fun isTemporary => ?_⟩
      obtain ⟨other, otherMember, isElement⟩ := List.mem_map.mp isTemporary
      cases (wellFormed.symbol_eq_named otherMember).symm.trans isElement

/-- Where no array that is read has a reserved name, temporaries have variables of their
own. -/
theorem WellFormed.namesApart (wellFormed : program.WellFormed naming leaves)
    (unreserved : ∀ expr ∈ program.exprs, ∀ array index,
      .element array index ∈ expr.symbols → naming.isReserved (.named array) = false) :
    program.NamesApart := by
  intro temporary member expr exprMember symbol mentioned sameVariable
  rcases wellFormed.eq_or_element member exprMember mentioned sameVariable with
    equal | ⟨index, rfl, _⟩
  · exact equal
  · obtain ⟨position, named⟩ := wellFormed.isTemporary temporary member
    have free := unreserved expr exprMember _ index mentioned
    rw [← wellFormed.symbol_eq_named member, named, Naming.isReserved_temporary] at free
    cases free

theorem WellFormed.map_text (wellFormed : program.WellFormed naming leaves) :
    program.temporaries.map (·.symbol.text) = program.temporaries.map (·.symbol.baseName) := by
  refine List.map_congr_left fun temporary member => ?_
  rw [wellFormed.symbol_eq_named member]
  rfl

theorem WellFormed.nodup_baseNames (wellFormed : program.WellFormed naming leaves) :
    (program.temporaries.map (·.symbol.baseName)).Nodup := by
  have symbols : program.temporaries.map (·.symbol) =
      (program.temporaries.map (·.symbol.baseName)).map Symbol.named := by
    rw [List.map_map]
    exact List.map_congr_left fun temporary member => wellFormed.symbol_eq_named member
  have distinct := wellFormed.nodup_symbols
  rw [symbols] at distinct
  exact distinct.of_map

end Program

/-! ## Accepted requests -/

namespace Listing

theorem map_fst_of_temporaryTexts {target : Target} {temporaries : List Temporary}
    {texts : List (String × String)} (written : temporaryTexts target temporaries = .ok texts) :
    texts.map Prod.fst = temporaries.map (·.symbol.text) := by
  rw [temporaryTexts_eq_ok_iff] at written
  induction written with
  | nil => rfl
  | cons first _ inductionHypothesis =>
      rw [List.map_cons, List.map_cons, first.1, inductionHypothesis]

/-- The temporaries of a listing are different variables, and none of them is a named input.
One of them may still be the variable of an array of which elements are read.  If no array
that is read has a reserved name, then assigning a temporary overwrites nothing that is read,
and running the program with variables overwritten is running it. -/
theorem namesApart_of_generate {request : ListingRequest} {listing : Listing}
    (accepted : generate request = .ok listing) :
    ∃ program, request.program = .ok program ∧
      listing.temporaries.map Prod.fst = program.temporaries.map (·.symbol.baseName) ∧
      (program.temporaries.map (·.symbol.baseName)).Nodup ∧
      (∀ temporary ∈ program.temporaries,
        .named temporary.symbol.baseName ∉ request.inputs ∧
          ∀ expr ∈ program.exprs, ∀ symbol ∈ expr.symbols,
            symbol.baseName = temporary.symbol.baseName →
              symbol = temporary.symbol ∨
                ∃ index, symbol = .element temporary.symbol.baseName index ∧
                  symbol ∈ request.naming.leaves request.inputs) ∧
      ((∀ expr ∈ program.exprs, ∀ array index, .element array index ∈ expr.symbols →
          request.naming.isReserved (.named array) = false) →
        program.NamesApart ∧
          ∀ {α : Type} (arithmetic : Arithmetic α) (bindings : Bindings α),
            program.runOverwriting arithmetic bindings = program.runIn arithmetic bindings) := by
  obtain ⟨program, found, written⟩ := Outcome.bind_eq_ok_iff.mp accepted
  obtain ⟨_, _, ofTemporaries, _, rfl⟩ := ofProgram_eq_ok_iff.mp written
  obtain ⟨checked, _⟩ := ListingRequest.program_eq_ok_iff.mp found
  obtain ⟨_, free, _⟩ := Naming.declares_of_checkRequest checked
  have wellFormed := ListingRequest.wellFormed_program found
  refine ⟨program, found, (map_fst_of_temporaryTexts ofTemporaries).trans wellFormed.map_text,
    wellFormed.nodup_baseNames, fun temporary member => ⟨?_, ?_⟩, fun unreserved => ?_⟩
  · obtain ⟨position, named⟩ := wellFormed.isTemporary temporary member
    rw [← wellFormed.symbol_eq_named member, named]
    exact free position
  · intro expr exprMember symbol mentioned
    exact wellFormed.eq_or_element member exprMember mentioned
  · have apart := wellFormed.namesApart unreserved
    exact ⟨apart, fun arithmetic bindings => Program.runOverwriting_eq_runIn apart bindings⟩

/-- The square of an element that is computed once, where the temporary is called by the
name of the array and a digit. -/
def squaredElement : ListingRequest where
  inputs := [.element "t" 0, .named "t0x"]
  outputs :=
    let square := Expr.element "t" 0 * Expr.element "t" 0
    [square, square + .element "t" 0 * .named "t0x"]
  target := .python3
  sharing := true
  naming := ⟨false, "t", "inp"⟩

theorem namesApart_squaredElement :
    generate squaredElement =
        .ok ⟨[("t0", "t[0]*t[0]")], ["t0", "t0 + t[0]*t0x"], 3⟩ ∧
      ∃ program, squaredElement.program = .ok program ∧
        ∀ bindings, program.runOverwriting .double bindings = program.run bindings := by
  have accepted : generate squaredElement =
      .ok ⟨[("t0", "t[0]*t[0]")], ["t0", "t0 + t[0]*t0x"], 3⟩ := rfl
  obtain ⟨program, found, _, _, _, apart⟩ := namesApart_of_generate accepted
  obtain rfl : _ = program := Except.ok.inj found
  refine ⟨accepted, _, found, (apart fun expr member array index read => ?_).2 .double⟩
  have each : ∀ expr ∈ [Expr.element "t" 0 * .element "t" 0, .named "t0",
        .named "t0" + .element "t" 0 * .named "t0x"],
      ∀ symbol ∈ expr.symbols, symbol.baseName = "t" ∨ symbol = .named symbol.baseName := by
    decide
  rcases each expr member _ read with isArray | isNamed
  · obtain rfl : array = "t" := isArray
    decide
  · cases isNamed

/-- An element of an array that has the name of the first temporary. -/
def elementOfTemporary : ListingRequest where
  inputs := [.element "tmp0" 0]
  outputs :=
    let square := Expr.element "tmp0" 0 * Expr.element "tmp0" 0
    [square, square + .element "tmp0" 0]
  target := .python3
  sharing := true
  naming := .named

/-- The names of arrays are not checked: assigning the temporary overwrites the array, of
which an element is read afterwards. -/
theorem clash_elementOfTemporary :
    (isIdentifier "tmp0" = true ∧ isIdentifier elementOfTemporary.naming.stem = true ∧
        isIdentifier elementOfTemporary.naming.inputArray = true) ∧
      generate elementOfTemporary =
          .ok ⟨[("tmp0", "tmp0[0]*tmp0[0]")], ["tmp0", "tmp0 + tmp0[0]"], 2⟩ ∧
        ∃ program, elementOfTemporary.program = .ok program ∧ ¬ program.NamesApart ∧
          ∀ x : Float,
            program.run (Bindings.empty.bind (.element "tmp0" 0) x) = .ok [x * x, x * x + x] ∧
              program.runOverwriting .double (Bindings.empty.bind (.element "tmp0" 0) x) =
                .error (.unboundSymbol (.element "tmp0" 0)) := by
  refine ⟨by decide, rfl, _, rfl, fun apart => ?_, fun _ => ⟨rfl, rfl⟩⟩
  have read : Symbol.element "tmp0" 0 ∈
      (Expr.named "tmp0" + Expr.element "tmp0" 0).symbols := by decide
  have equal := apart _ List.mem_cons_self _ (.tail _ (.tail _ (.head _))) _ read rfl
  cases equal

end Listing

end LieScribe
