import LieScribe.Program.Basic
import LieScribe.Proofs.Expr

/-!
# Renaming

Bindings that put a symbol in the place of every symbol rename an expression: its
symbols are mapped and nothing else changes.  Sameness survives if no two symbols are
given one name, and the temporaries of a program keep their expansions, renamed, if the
renaming leaves the temporaries and their names alone.
-/

namespace LieScribe

/-- Every symbol is replaced by a symbol. -/
def Bindings.Renames (bindings : Bindings Expr) (rename : Symbol → Symbol) : Prop :=
  ∀ symbol, (Expr.symbol symbol).substitute bindings = .symbol (rename symbol)

variable {bindings : Bindings Expr} {rename : Symbol → Symbol}

namespace Expr

theorem symbolsOf_map_substitute (renames : bindings.Renames rename) (exprs : List Expr) :
    symbolsOf (exprs.map (substitute bindings)) = (symbolsOf exprs).map rename := by
  induction exprs using forestInduct with
  | nil =>
      rfl
  | atom expr others atom ofOthers =>
      rw [List.map_cons, symbolsOf, symbolsOf, List.map_append, ofOthers]
      congr 1
      cases expr with
      | symbol leaf => rw [renames leaf, symbols, symbols, List.map_singleton]
      | literal constant => rfl
      | op operation arguments => cases atom
  | op operation arguments others ofArguments ofOthers =>
      rw [List.map_cons, symbolsOf, symbolsOf, List.map_append, ofOthers, substitute_op,
        symbols, symbols, ofArguments]

theorem symbols_substitute (renames : bindings.Renames rename) (expr : Expr) :
    (expr.substitute bindings).symbols = expr.symbols.map rename := by
  have alone := symbolsOf_map_substitute renames [expr]
  simpa [symbolsOf] using alone

theorem isAtom_substitute (renames : bindings.Renames rename) (expr : Expr) :
    (expr.substitute bindings).isAtom = expr.isAtom := by
  cases expr with
  | symbol leaf =>
      rw [renames leaf]
      rfl
  | literal constant => rfl
  | op operation arguments => rw [substitute_op, isAtom, isAtom]

theorem same_substitute_iff (renames : bindings.Renames rename) {left right : Expr}
    (injective : ∀ symbol ∈ left.symbols, ∀ symbol' ∈ right.symbols,
      rename symbol = rename symbol' → symbol = symbol') :
    (left.substitute bindings).same (right.substitute bindings) = true ↔
      left.same right = true := by
  induction left generalizing right with
  | symbol leaf =>
      cases right with
      | symbol leaf' =>
          have distinct := injective leaf (mem_symbols_symbol.mpr rfl) leaf'
            (mem_symbols_symbol.mpr rfl)
          rw [renames leaf, renames leaf']
          simp only [same, decide_eq_true_eq]
          exact ⟨distinct, congrArg rename⟩
      | literal constant => simp [renames leaf, same]
      | op operation arguments => simp [renames leaf, same]
  | literal constant =>
      cases right with
      | symbol leaf => simp [renames leaf, same]
      | literal constant' => rfl
      | op operation arguments => simp [same]
  | op operation arguments each =>
      cases right with
      | symbol leaf => simp [renames leaf, same]
      | literal constant => simp [same]
      | op operation' arguments' =>
          rw [substitute_op, substitute_op, same, same, Bool.and_eq_true, Bool.and_eq_true,
            sameAll_iff_forall₂, sameAll_iff_forall₂, List.forall₂_map_left_iff,
            List.forall₂_map_right_iff]
          refine and_congr_right fun _ => ?_
          have pairwise : ∀ argument ∈ arguments, ∀ argument' ∈ arguments',
              (argument.substitute bindings).same (argument'.substitute bindings) = true ↔
                argument.same argument' = true := by
            intro argument member argument' member'
            refine each argument member fun symbol mentioned symbol' mentioned' => ?_
            exact injective symbol (mem_symbols_op.mpr ⟨argument, member, mentioned⟩) symbol'
              (mem_symbols_op.mpr ⟨argument', member', mentioned'⟩)
          rw [List.forall₂_iff_zip, List.forall₂_iff_zip]
          refine and_congr_right fun _ => forall_congr' fun argument => forall_congr' fun argument' =>
            imp_congr_right fun zipped => ?_
          obtain ⟨member, member'⟩ := List.of_mem_zip zipped
          exact pairwise argument member argument' member'

end Expr

/-! ## Programs -/

/-- The symbols that are no temporaries are renamed among themselves. -/
structure Bindings.RenamesApart (bindings : Bindings Expr) (isTemporary : Symbol → Prop)
    (rename : Symbol → Symbol) : Prop where
  renames : bindings.Renames rename
  fixed : ∀ symbol, isTemporary symbol → rename symbol = symbol
  avoided : ∀ symbol, isTemporary (rename symbol) → isTemporary symbol

namespace Program

/-- The definitions and outputs of a program. -/
def exprs (program : Program) : List Expr :=
  program.temporaries.map (·.definition) ++ program.outputs

theorem exprs_substitute (bindings : Bindings Expr) (program : Program) :
    (program.substitute bindings).exprs = program.exprs.map (Expr.substitute bindings) := by
  simp [exprs, substitute, Function.comp_def]

/-- The expansions of temporaries before and after a renaming.  A symbol that is no
temporary has no expansion. -/
structure Renamed (isTemporary : Symbol → Prop) (bindings expansions renamed : Bindings Expr) :
    Prop where
  temporary : ∀ symbol, isTemporary symbol →
    renamed.get? symbol = (expansions.get? symbol).map (Expr.substitute bindings)
  other : ∀ symbol, ¬ isTemporary symbol →
    expansions.get? symbol = none ∧ renamed.get? symbol = none

variable {isTemporary : Symbol → Prop} {expansions renamed : Bindings Expr}

/-- Expanding temporaries and renaming can be done in either order. -/
theorem Renamed.substitute_comm (agree : Renamed isTemporary bindings expansions renamed)
    (apart : bindings.RenamesApart isTemporary rename) (expr : Expr) :
    (expr.substitute bindings).substitute renamed =
      (expr.substitute expansions).substitute bindings := by
  induction expr with
  | symbol leaf =>
      rw [apart.renames leaf, Expr.substitute_symbol, Expr.substitute_symbol]
      by_cases temporary : isTemporary leaf
      · have fixed := apart.fixed leaf temporary
        rw [fixed, agree.temporary leaf temporary]
        cases expansions.get? leaf with
        | none => simpa [fixed] using (apart.renames leaf).symm
        | some expansion => rfl
      · have other := mt (apart.avoided leaf) temporary
        rw [(agree.other leaf temporary).1, (agree.other _ other).2]
        exact (apart.renames leaf).symm
  | literal constant =>
      rfl
  | op operation arguments each =>
      simp only [Expr.substitute_op, List.map_map]
      congr 1
      exact List.map_congr_left each

theorem Renamed.expandOne (agree : Renamed isTemporary bindings expansions renamed)
    (apart : bindings.RenamesApart isTemporary rename) {temporary : Temporary}
    (named : isTemporary temporary.symbol) :
    Renamed isTemporary bindings (Program.expandOne expansions temporary)
      (Program.expandOne renamed
        { temporary with definition := temporary.definition.substitute bindings }) where
  temporary symbol isOne := by
    rw [Program.expandOne, Program.expandOne, Bindings.get?_bind, Bindings.get?_bind,
      agree.substitute_comm apart]
    split
    · rfl
    · exact agree.temporary symbol isOne
  other symbol isNone := by
    have different : symbol ≠ temporary.symbol := by
      rintro rfl
      exact isNone named
    rw [Program.expandOne, Program.expandOne, Bindings.get?_bind, Bindings.get?_bind,
      if_neg different, if_neg different]
    exact agree.other symbol isNone

theorem Renamed.expandAll (agree : Renamed isTemporary bindings expansions renamed)
    (apart : bindings.RenamesApart isTemporary rename) {temporaries : List Temporary}
    (named : ∀ temporary ∈ temporaries, isTemporary temporary.symbol) :
    Renamed isTemporary bindings (temporaries.foldl Program.expandOne expansions)
      ((temporaries.map fun temporary =>
        { temporary with definition := temporary.definition.substitute bindings }).foldl
          Program.expandOne renamed) := by
  induction temporaries generalizing expansions renamed with
  | nil =>
      exact agree
  | cons first others inductionHypothesis =>
      rw [List.forall_mem_cons] at named
      exact inductionHypothesis (agree.expandOne apart named.1) named.2

/-- The temporaries of a renamed program stand for the renamed expressions. -/
theorem get?_expansions_substitute (apart : bindings.RenamesApart isTemporary rename)
    {program : Program}
    (named : ∀ temporary ∈ program.temporaries, isTemporary temporary.symbol)
    {symbol : Symbol} (isOne : isTemporary symbol) :
    (program.substitute bindings).expansions.get? symbol =
      (program.expansions.get? symbol).map (Expr.substitute bindings) := by
  have start : Renamed isTemporary bindings Bindings.empty Bindings.empty :=
    ⟨fun _ _ => rfl, fun _ _ => ⟨rfl, rfl⟩⟩
  exact (start.expandAll apart named).temporary symbol isOne

end Program

end LieScribe
