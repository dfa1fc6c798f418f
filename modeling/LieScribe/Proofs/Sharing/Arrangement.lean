import LieScribe.Program.Sharing
import LieScribe.Proofs.Renaming
import LieScribe.Proofs.Sharing.Names

/-!
# The inputs of a program

A program reads its inputs under their own names or as the elements of one array.
Arranging a program for its naming is a renaming in both cases; it leaves the
temporaries alone and never gives an input the name of one.
-/

namespace LieScribe

namespace Naming

variable {naming : Naming} {inputs : List Symbol}

/-- The symbols under which a program reads its inputs. -/
def leaves (naming : Naming) (inputs : List Symbol) : List Symbol :=
  if naming.linear then Symbol.array naming.inputArray inputs.length else inputs

/-- The symbol under which a program reads one of its inputs.  Other symbols are
themselves. -/
def leaf (naming : Naming) (inputs : List Symbol) (symbol : Symbol) : Symbol :=
  if naming.linear ∧ symbol ∈ inputs then
    .element naming.inputArray (inputs.idxOf symbol)
  else
    symbol

/-- What the inputs are replaced by when a program is arranged. -/
def arrangement (naming : Naming) (inputs : List Symbol) : Bindings Expr :=
  if naming.linear then
    Bindings.empty.bindAll (inputs.zip (Expr.array naming.inputArray inputs.length))
  else
    Bindings.empty

theorem renames_arrangement (distinct : inputs.Nodup) :
    (naming.arrangement inputs).Renames (naming.leaf inputs) := by
  intro symbol
  have lengths : inputs.length ≤ (Expr.array naming.inputArray inputs.length).length := by
    simp [Expr.array, Symbol.array]
  have keys : (inputs.zip (Expr.array naming.inputArray inputs.length)).map Prod.fst =
      inputs := List.map_fst_zip lengths
  rw [Expr.substitute_symbol, arrangement, leaf]
  cases naming.linear with
  | false => simp
  | true =>
      by_cases declared : symbol ∈ inputs
      · have bound : (symbol, Expr.element naming.inputArray (inputs.idxOf symbol)) ∈
            inputs.zip (Expr.array naming.inputArray inputs.length) := by
          rw [List.mem_iff_getElem?]
          refine ⟨inputs.idxOf symbol, ?_⟩
          have inside := List.idxOf_lt_length_of_mem declared
          simp [Expr.array, Symbol.array, inside, Expr.element]
        rw [if_pos rfl, if_pos ⟨rfl, declared⟩,
          Bindings.get?_bindAll_of_mem _ (by rwa [keys]) bound]
        rfl
      · rw [if_pos rfl, if_neg fun both => declared both.2,
          Bindings.get?_bindAll_of_not_mem _ (by rwa [keys])]
        rfl

theorem leaf_mem_leaves {symbol : Symbol} (declared : symbol ∈ inputs) :
    naming.leaf inputs symbol ∈ naming.leaves inputs := by
  rw [leaf, leaves]
  cases naming.linear with
  | false => simpa using declared
  | true =>
      have inside := List.idxOf_lt_length_of_mem declared
      simpa [declared, Symbol.array] using inside

theorem map_leaf (distinct : inputs.Nodup) :
    inputs.map (naming.leaf inputs) = naming.leaves inputs := by
  rw [leaves]
  cases linear : naming.linear with
  | false =>
      rw [if_neg Bool.false_ne_true, List.map_congr_left (g := id), List.map_id]
      intro symbol _
      simp [leaf, linear]
  | true =>
      rw [if_pos rfl, Symbol.array]
      apply List.ext_getElem
      · simp
      · intro position inside _
        rw [List.length_map] at inside
        simp [leaf, linear, distinct.idxOf_getElem]

theorem leaf_injective {left right : Symbol} (leftDeclared : left ∈ inputs)
    (rightDeclared : right ∈ inputs)
    (equal : naming.leaf inputs left = naming.leaf inputs right) : left = right := by
  rw [leaf, leaf] at equal
  cases linear : naming.linear with
  | false => simpa [linear] using equal
  | true =>
      have positions : inputs.idxOf left = inputs.idxOf right := by
        simpa [linear, leftDeclared, rightDeclared] using equal
      exact (List.idxOf_inj leftDeclared).mp positions

/-- Could the symbol be that of a temporary? -/
def IsTemporary (naming : Naming) (symbol : Symbol) : Prop :=
  ∃ position, symbol = naming.temporary position

/-- Arranging the inputs leaves temporaries alone. -/
theorem renamesApart_arrangement (distinct : inputs.Nodup)
    (free : ∀ position, naming.temporary position ∉ inputs) :
    (naming.arrangement inputs).RenamesApart naming.IsTemporary (naming.leaf inputs) where
  renames := renames_arrangement distinct
  fixed := by
    rintro _ ⟨position, rfl⟩
    exact if_neg fun both => free position both.2
  avoided symbol := by
    rw [leaf]
    split
    · rintro ⟨position, equal⟩
      cases equal
    · exact id

end Naming

namespace Program

variable {naming : Naming} {inputs : List Symbol} {outputs : List Expr} {program : Program}

theorem substitute_empty (program : Program) : program.substitute Bindings.empty = program := by
  simp [substitute, Expr.substitute_empty]

theorem arrange_eq_substitute (naming : Naming) (inputs : List Symbol) (program : Program) :
    program.arrange naming inputs = program.substitute (naming.arrangement inputs) := by
  rw [arrange, Naming.arrangement]
  cases naming.linear with
  | false => exact (substitute_empty program).symm
  | true => rfl

theorem share_eq_ok_iff_substitute :
    share naming inputs outputs = .ok program ↔
      naming.checkRequest inputs outputs = .ok () ∧
        (shared naming outputs).substitute (naming.arrangement inputs) = program := by
  rw [share, Outcome.checked_eq_ok_iff, arrange_eq_substitute]

end Program

end LieScribe
