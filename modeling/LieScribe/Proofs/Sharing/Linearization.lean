import LieScribe.Proofs.Sharing.Renaming
import LieScribe.Proofs.Sharing.WellFormed
import LieScribe.Proofs.Stepwise

/-!
# Running on an array of inputs

A program that reads its inputs from an array runs like the program that reads them under
their own names.  The two runs are kept side by side: reading the new name of a symbol has
the outcome of reading the symbol, before the first temporary and after each of them, since
a renaming that keeps apart from the temporaries never captures one.  It does not matter
what the array is called: an element is never a temporary, even if the array has its name.
-/

namespace LieScribe

variable {α : Type} {arithmetic : Arithmetic α} {bindings : Bindings Expr}
  {rename : Symbol → Symbol} {bound renamed : Bindings α}

/-! ## Reading renamed symbols -/

/-- Reading the new name of a symbol gives the value of the symbol.  A symbol without a value
keeps its name. -/
structure Bindings.Follows (rename : Symbol → Symbol) (bound renamed : Bindings α)
    (symbol : Symbol) : Prop where
  value : renamed.get? (rename symbol) = bound.get? symbol
  unbound : bound.get? symbol = none → rename symbol = symbol

theorem Expr.evaluateIn_substitute_of_follows (renames : bindings.Renames rename) {expr : Expr}
    (follows : ∀ symbol ∈ expr.symbols, Bindings.Follows rename bound renamed symbol) :
    (expr.substitute bindings).evaluateIn arithmetic renamed =
      expr.evaluateIn arithmetic bound := by
  induction expr with
  | symbol leaf =>
      obtain ⟨value, unbound⟩ := follows leaf (mem_symbols_symbol.mpr rfl)
      rw [renames leaf, evaluateIn, evaluateIn, value]
      cases found : bound.get? leaf with
      | some read => rfl
      | none => rw [unbound found]
  | literal constant =>
      rfl
  | op operation arguments each =>
      rw [substitute_op]
      apply evaluateIn_op_congr
      rw [List.forall₂_map_left_iff, List.forall₂_same]
      intro argument member
      exact each argument member (forall_symbols_op.mp follows argument member)

/-- Binding a temporary in both runs keeps them side by side. -/
theorem Bindings.Follows.bind {isTemporary : Symbol → Prop}
    (apart : bindings.RenamesApart isTemporary rename) {temporary symbol : Symbol}
    (isOne : isTemporary temporary) (value : α)
    (follows : Bindings.Follows rename bound renamed symbol) :
    Bindings.Follows rename (bound.bind temporary value) (renamed.bind temporary value)
      symbol := by
  have captured : rename symbol = temporary ↔ symbol = temporary := by
    constructor
    · rintro rfl
      exact (apart.fixed symbol (apart.avoided symbol isOne)).symm
    · rintro rfl
      exact apart.fixed symbol isOne
  constructor
  · rw [Bindings.get?_bind, Bindings.get?_bind, follows.value]
    simp only [captured]
  · rw [Bindings.get?_bind]
    split
    · rintro ⟨⟩
    · exact follows.unbound

/-! ## Running renamed programs -/

namespace Program

/-- For everything that a program reads, reading the new name has the outcome of reading the
old one. -/
def SideBySide (program : Program) (rename : Symbol → Symbol) (renamed bound : Bindings α) :
    Prop :=
  ∀ expr ∈ program.exprs, ∀ symbol ∈ expr.symbols, Bindings.Follows rename bound renamed symbol

/-- A renamed program runs on renamed bindings like the program itself, faults included. -/
theorem runIn_substitute {isTemporary : Symbol → Prop}
    (apart : bindings.RenamesApart isTemporary rename) {program : Program}
    (named : ∀ temporary ∈ program.temporaries, isTemporary temporary.symbol)
    (start : program.SideBySide rename renamed bound) :
    (program.substitute bindings).runIn arithmetic renamed = program.runIn arithmetic bound := by
  have alike {expr : Expr} (member : expr ∈ program.exprs) {renamed bound : Bindings α}
      (follows : program.SideBySide rename renamed bound) :
      (expr.substitute bindings).evaluateIn arithmetic renamed =
        expr.evaluateIn arithmetic bound :=
    Expr.evaluateIn_substitute_of_follows apart.renames (follows expr member)
  have steps : List.Forall₂
      (StepsAlike arithmetic Bindings.bind Bindings.bind (program.SideBySide rename))
      (program.substitute bindings).temporaries program.temporaries := by
    rw [substitute, List.forall₂_map_left_iff, List.forall₂_same]
    intro temporary member
    have inExprs : temporary.definition ∈ program.exprs :=
      List.mem_append_left _ (List.mem_map_of_mem member)
    refine ⟨fun _ _ => alike inExprs, ?_⟩
    intro renamed bound value follows expr exprMember symbol mentioned
    exact (follows expr exprMember symbol mentioned).bind apart (named temporary member) value
  rw [runIn_eq_runAssigning, runIn_eq_runAssigning]
  refine runAssigning_congr steps (fun _ _ follows => ?_) start
  apply Expr.evaluateAllIn_congr
  rw [substitute, List.forall₂_map_left_iff, List.forall₂_same]
  exact fun output member => alike (List.mem_append_right _ member) follows

end Program

/-! ## Arrays of inputs -/

namespace Bindings

/-- Symbols that are bound in a row, each of them once, get the values at their positions. -/
theorem get?_bindAll_zip {symbols : List Symbol} (distinct : symbols.Nodup) {values : List α}
    (lengths : values.length = symbols.length) {position : Nat} {symbol : Symbol}
    (found : symbols[position]? = some symbol) :
    (empty.bindAll (symbols.zip values)).get? symbol = values[position]? := by
  have keys : (symbols.zip values).map Prod.fst = symbols :=
    List.map_fst_zip (Nat.le_of_eq lengths.symm)
  obtain ⟨inside, isSymbol⟩ := List.getElem?_eq_some_iff.mp found
  have isValue : values[position]? = some values[position] :=
    List.getElem?_eq_getElem (by omega)
  rw [isValue]
  apply get?_bindAll_of_mem _ (by rwa [keys])
  exact List.mem_of_getElem? (List.getElem?_zip_eq_some.mpr ⟨found, isValue⟩)

theorem get?_bindAll_zip_of_not_mem {symbols : List Symbol} {symbol : Symbol}
    (absent : symbol ∉ symbols) (values : List α) :
    (empty.bindAll (symbols.zip values)).get? symbol = none := by
  apply get?_bindAll_of_not_mem
  intro bound
  obtain ⟨⟨_, value⟩, member, rfl⟩ := List.mem_map.mp bound
  exact absent (List.of_mem_zip member).1

end Bindings

theorem Symbol.nodup_array (name : String) (length : Nat) : (Symbol.array name length).Nodup :=
  List.Nodup.map (fun _ _ equal => (Symbol.element.inj equal).2) List.nodup_range

namespace Program

variable {naming : Naming} {inputs : List Symbol} {outputs : List Expr} {program : Program}

/-- At the start of the two runs the elements of the array have the values of the inputs, and
no temporary has a value. -/
theorem sideBySide_bindArray (linear : naming.linear = true)
    (wellFormed : WellFormed naming inputs program) (distinct : inputs.Nodup)
    (free : ∀ position, naming.temporary position ∉ inputs) {values : List α}
    (lengths : values.length = inputs.length) :
    program.SideBySide (naming.leaf inputs) (Bindings.empty.bindArray naming.inputArray values)
      (Bindings.empty.bindAll (inputs.zip values)) := by
  intro expr member symbol mentioned
  rcases wellFormed.mem_leaves_or_temporaries expr member symbol mentioned with
    declared | isTemporary
  · have inside := List.idxOf_lt_length_of_mem declared
    have asInput : inputs[inputs.idxOf symbol]? = some symbol := by
      rw [List.getElem?_eq_getElem inside, List.getElem_idxOf]
    have asElement : (Symbol.array naming.inputArray values.length)[inputs.idxOf symbol]? =
        some (naming.leaf inputs symbol) := by
      simp [Symbol.array, Naming.leaf, linear, declared, lengths, inside]
    have arrayLength : values.length =
        (Symbol.array naming.inputArray values.length).length := by
      simp [Symbol.array]
    have value := Bindings.get?_bindAll_zip distinct lengths asInput
    have elementValue :=
      Bindings.get?_bindAll_zip (Symbol.nodup_array _ _) arrayLength asElement
    refine ⟨elementValue.trans value.symm, fun unbound => ?_⟩
    rw [value, List.getElem?_eq_none_iff] at unbound
    omega
  · obtain ⟨temporary, isMember, rfl⟩ := List.mem_map.mp isTemporary
    obtain ⟨position, named⟩ := wellFormed.isTemporary temporary isMember
    rw [named]
    have noElement : naming.temporary position ∉
        Symbol.array naming.inputArray values.length := by
      simp [Symbol.array, Naming.temporary]
    have kept : naming.leaf inputs (naming.temporary position) = naming.temporary position :=
      (Naming.renamesApart_arrangement distinct free).fixed _ ⟨position, rfl⟩
    refine ⟨?_, fun _ => kept⟩
    rw [kept, Bindings.get?_bindAll_zip_of_not_mem (free position), Bindings.bindArray,
      Bindings.get?_bindAll_zip_of_not_mem noElement]

/-- Whether the inputs of an accepted request are read from an array or under their own names
makes no difference to a run: the results are the same, and so is the fault if there is
one. -/
theorem run_arranged_of_share (accepted : share naming inputs outputs = .ok program)
    {values : List Float} (lengths : values.length = inputs.length) :
    ∃ arranged direct,
      share { naming with linear := true } inputs outputs = .ok arranged ∧
        share { naming with linear := false } inputs outputs = .ok direct ∧
          arranged.run (Bindings.empty.bindArray naming.inputArray values) =
            direct.run (Bindings.empty.bindAll (inputs.zip values)) := by
  obtain ⟨checked, -⟩ := share_eq_ok_iff_substitute.mp accepted
  obtain ⟨distinct, free, declared⟩ := Naming.declares_of_checkRequest checked
  have wellFormed := wellFormed_shared { naming with linear := true } declared
  have checkedAs := fun linear => (Naming.checkRequest_linear_iff linear).mpr checked
  refine ⟨_, _, share_eq_ok_iff_substitute.mpr ⟨checkedAs true, rfl⟩,
    (share_eq_ok_iff rfl).mpr ⟨checkedAs false, rfl⟩, ?_⟩
  have sameShape : shared { naming with linear := false } outputs =
      shared { naming with linear := true } outputs := shared_congr (by intro; rfl) outputs
  have apart : Bindings.RenamesApart _ _ (Naming.leaf { naming with linear := true } inputs) :=
    Naming.renamesApart_arrangement distinct free
  rw [sameShape]
  exact runIn_substitute apart wellFormed.isTemporary
    (sideBySide_bindArray rfl wellFormed distinct free lengths)

/-- A product with a name that is a temporary's but for a letter, and the product once more
in a sum; the elements of the array `t0` are written like those of a temporary. -/
def elementsOfTemporary : List Expr :=
  let product := Expr.element "t0" 1 * Expr.named "t0x"
  [product, product + .element "t0" 0]

theorem run_arranged_elementsOfTemporary :
    ∃ arranged direct,
      share ⟨true, "t", "t0"⟩ [.element "t0" 1, .named "t0x", .element "t0" 0]
          elementsOfTemporary = .ok arranged ∧
        share ⟨false, "t", "t0"⟩ [.element "t0" 1, .named "t0x", .element "t0" 0]
            elementsOfTemporary = .ok direct ∧
          arranged.temporaries.map (·.symbol) = [.named "t0"] ∧
            ∀ x y z : Float,
              arranged.run (Bindings.empty.bindArray "t0" [x, y, z]) =
                  direct.run (Bindings.empty.bindAll
                    ([.element "t0" 1, .named "t0x", .element "t0" 0].zip [x, y, z])) ∧
                arranged.run (Bindings.empty.bindArray "t0" [x, y, z]) =
                  .ok [x * y, x * y + z] := by
  have accepted :
      share ⟨true, "t", "t0"⟩ [.element "t0" 1, .named "t0x", .element "t0" 0]
          elementsOfTemporary =
        .ok ((shared ⟨true, "t", "t0"⟩ elementsOfTemporary).linearize
          [.element "t0" 1, .named "t0x", .element "t0" 0] "t0") := rfl
  refine ⟨_, _, accepted, rfl, rfl, fun x y z => ⟨?_, rfl⟩⟩
  have lengths : [x, y, z].length =
      [Symbol.element "t0" 1, .named "t0x", .element "t0" 0].length := rfl
  obtain ⟨arranged, direct, isArranged, isDirect, runs⟩ := run_arranged_of_share accepted lengths
  obtain rfl := Except.ok.inj isArranged
  obtain rfl := Except.ok.inj isDirect
  exact runs

end Program

end LieScribe
