import LieScribe.Symbol
import Mathlib.Data.List.TakeWhile
import Mathlib.Data.Nat.Digits.Defs
import Mathlib.Data.String.Basic

/-!
# Reading symbols back

A text can spell an element in many ways: its number may have a plus sign and leading zeros.
Reading finds the element that a text spells (`Symbol.parse_eq_element_iff`) and takes every other
text for a plain name (`Symbol.parse_eq_named_iff`).  Writing uses one of the spellings.  So an
element is read back unless its array has no name that can be spelled, and a plain name is read
back unless it spells an element.
-/

namespace LieScribe.Symbol

variable {source array : String} {index : Nat}

/-! ## Numbers -/

/-- The number that decimal digits denote, by the weights of their places. -/
def placeValue (digits : List Char) : Nat :=
  Nat.ofDigits 10 (digits.reverse.map fun digit => digit.toNat - '0'.toNat)

theorem ofDigitChars_eq_placeValue (digits : List Char) :
    Nat.ofDigitChars 10 digits 0 = placeValue digits := by
  induction digits with
  | nil =>
      rfl
  | cons digit others inductionHypothesis =>
      rw [Nat.ofDigitChars_cons, Nat.ofDigitChars_eq_ofDigitChars_zero, inductionHypothesis,
        placeValue, placeValue, List.reverse_cons, List.map_append, Nat.ofDigits_append]
      simp [Nat.ofDigits_singleton, mul_comm, add_comm]

theorem isNumeral_iff {digits : List Char} :
    isNumeral digits = true ↔
      digits ≠ [] ∧ ∀ digit ∈ digits, '0' ≤ digit ∧ digit ≤ '9' := by
  rw [isNumeral, Bool.and_eq_true, Bool.not_eq_true', List.isEmpty_eq_false_iff,
    List.all_eq_true]
  refine and_congr_right fun _ => forall₂_congr fun digit _ => ?_
  rw [Char.isDigit, Bool.and_eq_true, decide_eq_true_iff, decide_eq_true_iff, Char.le_def,
    Char.le_def, ge_iff_le]

/-- Characters that denote an index: decimal digits, maybe after a plus sign, for a number that
is not too large. -/
structure Denotes (characters : List Char) (index : Nat) : Prop where
  written : ∃ sign digits, characters = sign ++ digits ∧ (sign = [] ∨ sign = ['+']) ∧
    digits ≠ [] ∧ (∀ digit ∈ digits, '0' ≤ digit ∧ digit ≤ '9') ∧ placeValue digits = index
  bounded : index < indexBound

theorem readNumeral?_eq_some_iff {digits : List Char} :
    readNumeral? digits = some index ↔
      isNumeral digits = true ∧ placeValue digits = index ∧ index < indexBound := by
  rw [readNumeral?, ofDigitChars_eq_placeValue]
  simp only [Bool.and_eq_true, decide_eq_true_eq, Option.ite_none_right_eq_some,
    Option.some.injEq]
  constructor
  · rintro ⟨⟨numeral, bounded⟩, rfl⟩
    exact ⟨numeral, rfl, bounded⟩
  · rintro ⟨numeral, rfl, bounded⟩
    exact ⟨⟨numeral, bounded⟩, rfl⟩

theorem readIndex?_eq_some_iff {characters : List Char} :
    readIndex? characters = some index ↔ Denotes characters index := by
  constructor
  · intro read
    rw [readIndex?.eq_def] at read
    split at read
    · next digits =>
        obtain ⟨numeral, value, bounded⟩ := readNumeral?_eq_some_iff.mp read
        obtain ⟨someDigit, areDigits⟩ := isNumeral_iff.mp numeral
        exact ⟨⟨['+'], digits, rfl, .inr rfl, someDigit, areDigits, value⟩, bounded⟩
    · obtain ⟨numeral, value, bounded⟩ := readNumeral?_eq_some_iff.mp read
      obtain ⟨someDigit, areDigits⟩ := isNumeral_iff.mp numeral
      exact ⟨⟨[], characters, rfl, .inl rfl, someDigit, areDigits, value⟩, bounded⟩
  · rintro ⟨⟨sign, digits, rfl, isSign, someDigit, areDigits, value⟩, bounded⟩
    have read : readNumeral? digits = some index :=
      readNumeral?_eq_some_iff.mpr ⟨isNumeral_iff.mpr ⟨someDigit, areDigits⟩, value, bounded⟩
    rcases isSign with rfl | rfl
    · -- Digits alone do not start with the sign.
      have unsigned : ∀ others, digits ≠ '+' :: others := by
        rintro others rfl
        exact absurd (areDigits '+' List.mem_cons_self).1 (by decide)
      rwa [List.nil_append, readIndex?.eq_2 _ unsigned]
    · exact read

theorem readSubscript?_eq_some_iff {characters : List Char} :
    readSubscript? characters = some index ↔
      ∃ inner, characters = inner ++ [']'] ∧ Denotes inner index := by
  rw [readSubscript?]
  constructor
  · intro read
    obtain ⟨closed, read⟩ := Option.ite_none_right_eq_some.mp read
    exact ⟨characters.dropLast, (List.dropLast_append_getLast? _ closed).symm,
      readIndex?_eq_some_iff.mp read⟩
  · rintro ⟨inner, rfl, denotes⟩
    rw [if_pos List.getLast?_concat, List.dropLast_concat]
    exact readIndex?_eq_some_iff.mpr denotes

/-! ## Spellings of elements -/

/-- A text that spells an element: the name of an array, which has no opening bracket, and then
an index in brackets. -/
structure Spells (source array : String) (index : Nat) : Prop where
  named : array ≠ ""
  unbracketed : '[' ∉ array.toList
  subscripted : ∃ inner, source.toList = array.toList ++ '[' :: (inner ++ [']']) ∧
    Denotes inner index

/-- Cut a text at its first opening bracket. -/
theorem takeWhile_dropWhile_of_unbracketed {name : List Char} (unbracketed : '[' ∉ name)
    (rest : List Char) :
    (name ++ '[' :: rest).takeWhile (· != '[') = name ∧
      (name ++ '[' :: rest).dropWhile (· != '[') = '[' :: rest := by
  have passed : ∀ character ∈ name, (character != '[') = true := by
    intro character member
    simpa using fun equal : character = '[' => unbracketed (equal ▸ member)
  rw [List.takeWhile_append_of_pos passed, List.dropWhile_append_of_pos passed]
  simp

/-- What is behind the first opening bracket is behind the name and the bracket. -/
theorem eq_append_of_drop_dropWhile {characters rest : List Char} (someRest : rest ≠ [])
    (behind : (characters.dropWhile (· != '[')).drop 1 = rest) :
    characters = characters.takeWhile (· != '[') ++ '[' :: rest := by
  have bracketed : characters.dropWhile (· != '[') ≠ [] := by
    intro none
    rw [none] at behind
    exact someRest behind.symm
  have opening : (characters.dropWhile (· != '[')).head bracketed = '[' := by
    simpa using List.head_dropWhile_not (· != '[') bracketed
  calc
    characters = characters.takeWhile (· != '[') ++ characters.dropWhile (· != '[') :=
      List.takeWhile_append_dropWhile.symm
    _ = characters.takeWhile (· != '[') ++ '[' :: rest := by
      rw [← List.cons_head_tail bracketed, opening, ← behind, List.drop_one]

/-- Reading finds the element that a text spells. -/
theorem parse_eq_element_iff :
    parse source = .element array index ↔ Spells source array index := by
  constructor
  · intro read
    rw [parse] at read
    split at read
    · next found =>
        split at read
        · contradiction
        · next someName =>
            obtain ⟨rfl, rfl⟩ := Symbol.element.inj read
            obtain ⟨inner, closed, denotes⟩ := readSubscript?_eq_some_iff.mp found
            refine ⟨?_, ?_, inner, ?_, denotes⟩
            · intro unnamed
              exact someName (List.isEmpty_iff.mpr (String.ofList_eq_empty_iff.mp unnamed))
            · intro member
              rw [String.toList_ofList] at member
              simpa using List.mem_takeWhile_imp member
            · rw [String.toList_ofList]
              exact eq_append_of_drop_dropWhile (by simp) closed
    · contradiction
  · rintro ⟨named, unbracketed, inner, written, denotes⟩
    obtain ⟨name, rest⟩ := takeWhile_dropWhile_of_unbracketed unbracketed (inner ++ [']'])
    have found := readSubscript?_eq_some_iff.mpr ⟨inner, rfl, denotes⟩
    rw [parse, written, name, rest, List.drop_one, List.tail_cons, found]
    simp [named]

example : parse "a[+007]" = .element "a" 7 ∧ parse "a[x]" = .named "a[x]" := by decide

/-- Every text that spells no element is a plain name. -/
theorem parse_eq_named_iff {name : String} :
    parse source = .named name ↔ name = source ∧ ¬ ∃ array index, Spells source array index := by
  simp only [← parse_eq_element_iff]
  rw [parse]
  split
  · split
    · simp [eq_comm]
    · simp
  · simp [eq_comm]

/-! ## Writing and reading -/

/-- An element is written in one of its spellings. -/
theorem spells_text (named : array ≠ "") (unbracketed : '[' ∉ array.toList)
    (bounded : index < indexBound) : Spells (text (.element array index)) array index := by
  have denotes : Denotes (Nat.toDigits 10 index) index := by
    obtain ⟨someDigit, areDigits⟩ := isNumeral_iff.mp (isNumeral_toDigits index)
    have value : placeValue (Nat.toDigits 10 index) = index := by
      rw [← ofDigitChars_eq_placeValue, Nat.ofDigitChars_ten_toDigits]
    exact ⟨⟨[], _, rfl, .inl rfl, someDigit, areDigits, value⟩, bounded⟩
  refine ⟨named, unbracketed, Nat.toDigits 10 index, ?_, denotes⟩
  simp [text, Nat.repr]

theorem Spells.bounded (spells : Spells source array index) : index < indexBound := by
  obtain ⟨-, -, inner, -, denotes⟩ := spells
  exact denotes.bounded

/-- An element is read back exactly if its array has a name without opening bracket and its index
is a machine word. -/
theorem parse_text_element_iff :
    parse (text (.element array index)) = .element array index ↔
      array ≠ "" ∧ '[' ∉ array.toList ∧ index < indexBound := by
  rw [parse_eq_element_iff]
  constructor
  · intro spells
    exact ⟨spells.named, spells.unbracketed, spells.bounded⟩
  · rintro ⟨named, unbracketed, bounded⟩
    exact spells_text named unbracketed bounded

/-- A plain name is read back exactly if it spells no element. -/
theorem parse_text_named_iff {name : String} :
    parse (text (.named name)) = .named name ↔ ¬ ∃ array index, Spells name array index := by
  rw [text, parse_eq_named_iff]
  simp

/-- Reading is stable: the symbol read from a text is read again from its own text.  A symbol is
read back from its text exactly if it is an element whose array has a name without opening
bracket, or a plain name that spells no element. -/
theorem parse_text_exact :
    (∀ source, parse (parse source).text = parse source) ∧
      (∀ array index, parse (text (.element array index)) = .element array index ↔
        array ≠ "" ∧ '[' ∉ array.toList ∧ index < indexBound) ∧
      ∀ name, parse (text (.named name)) = .named name ↔
        ¬ ∃ array index, Spells name array index := by
  refine ⟨fun source => ?_, fun _ _ => parse_text_element_iff, fun _ => parse_text_named_iff⟩
  cases read : parse source with
  | named name =>
      obtain ⟨rfl, -⟩ := parse_eq_named_iff.mp read
      exact read
  | element array index =>
      have spells := parse_eq_element_iff.mp read
      exact parse_text_element_iff.mpr ⟨spells.named, spells.unbracketed, spells.bounded⟩

end LieScribe.Symbol
