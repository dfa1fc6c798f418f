import LieScribe.Symbol

/-!
# Bindings

A finite map from symbols to values.  Binding a symbol again replaces its value.
-/

namespace LieScribe

structure Bindings (α : Type) where
  entries : List (Symbol × α)

namespace Bindings

variable {α : Type}

def empty : Bindings α :=
  ⟨[]⟩

def get? (bindings : Bindings α) (symbol : Symbol) : Option α :=
  bindings.entries.lookup symbol

def bind (bindings : Bindings α) (symbol : Symbol) (value : α) : Bindings α :=
  ⟨(symbol, value) :: bindings.entries.filter (fun entry => entry.1 != symbol)⟩

/-- Bind the given symbols from left to right. -/
def bindAll (bindings : Bindings α) (entries : List (Symbol × α)) : Bindings α :=
  entries.foldl (fun bound entry => bound.bind entry.1 entry.2) bindings

/-- Bind the elements of an array, from index zero on. -/
def bindArray (bindings : Bindings α) (array : String) (values : List α) :
    Bindings α :=
  bindings.bindAll ((Symbol.array array values.length).zip values)

def size (bindings : Bindings α) : Nat :=
  bindings.entries.length

def isEmpty (bindings : Bindings α) : Bool :=
  bindings.entries.isEmpty

@[simp]
theorem get?_empty (symbol : Symbol) :
    (empty : Bindings α).get? symbol = none := rfl

/-- Binding a symbol changes the value of that symbol and of no other. -/
theorem get?_bind (bindings : Bindings α) (bound symbol : Symbol) (value : α) :
    (bindings.bind bound value).get? symbol =
      if symbol = bound then some value else bindings.get? symbol := by
  have lookup_filter (entries : List (Symbol × α)) (different : symbol ≠ bound) :
      (entries.filter (fun entry => entry.1 != bound)).lookup symbol =
        entries.lookup symbol := by
    induction entries with
    | nil => rfl
    | cons entry others inductionHypothesis =>
        obtain ⟨name, kept⟩ := entry
        by_cases entryBound : name = bound
        · have passedOver : (symbol == bound) = false := by simpa using different
          simp [List.lookup_cons, entryBound, inductionHypothesis, passedOver]
        · simp [List.lookup_cons, entryBound, inductionHypothesis]
  by_cases equal : symbol = bound
  · simp [get?, bind, equal]
  · have passedOver : (symbol == bound) = false := by simpa using equal
    simp [get?, bind, List.lookup_cons, passedOver, equal,
      lookup_filter bindings.entries equal]

theorem get?_bindAll_of_not_mem (bindings : Bindings α) {entries : List (Symbol × α)}
    {symbol : Symbol} (absent : symbol ∉ entries.map Prod.fst) :
    (bindings.bindAll entries).get? symbol = bindings.get? symbol := by
  induction entries generalizing bindings with
  | nil => rfl
  | cons entry others inductionHypothesis =>
      simp only [List.map_cons, List.mem_cons, not_or] at absent
      rw [bindAll, List.foldl_cons, ← bindAll, inductionHypothesis _ absent.2, get?_bind,
        if_neg absent.1]

/-- Symbols that are bound once each get the values given for them. -/
theorem get?_bindAll_of_mem (bindings : Bindings α) {entries : List (Symbol × α)}
    (distinct : (entries.map Prod.fst).Nodup) {symbol : Symbol} {value : α}
    (member : (symbol, value) ∈ entries) :
    (bindings.bindAll entries).get? symbol = some value := by
  induction entries generalizing bindings with
  | nil => cases member
  | cons entry others inductionHypothesis =>
      rw [List.map_cons, List.nodup_cons] at distinct
      rw [bindAll, List.foldl_cons, ← bindAll]
      rcases List.mem_cons.mp member with rfl | later
      · rw [get?_bindAll_of_not_mem _ distinct.1, get?_bind, if_pos rfl]
      · exact inductionHypothesis _ distinct.2 later

end Bindings

end LieScribe
