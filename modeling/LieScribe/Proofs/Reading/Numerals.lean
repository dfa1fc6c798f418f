import LieScribe.Proofs.Decimal
import LieScribe.Proofs.Reading.Tokens

/-!
# Numbers are single tokens

The digits of a natural number and the numeral of a finite decimal are cut off as
one token each, whatever delimited characters follow them.
-/

namespace LieScribe.Lexicon

open Decimal (Numeral)

variable {lexicon : Lexicon} {rest : List Char}

theorem Delimited.isMantissaPart (delimited : Delimited rest) (first : Char)
    (others : List Char) (starts : rest = first :: others) :
    isMantissaPart first = false ∧ first.isDigit = false ∧ first ≠ 'e' := by
  subst starts
  simp only [Delimited, List.mem_cons, List.not_mem_nil, or_false] at delimited
  rcases delimited with rfl | rfl | rfl | rfl | rfl | rfl <;> decide

/-! ## Exponents -/

theorem takeExponent_delimited (delimited : Delimited rest) :
    takeExponent rest = ([], rest) := by
  rw [takeExponent]
  all_goals
    intro others starts
    exact (delimited.isMantissaPart _ _ starts).2.2 rfl

theorem takeExponent_digits {digits : List Char} (numeral : Symbol.isNumeral digits = true)
    (delimited : Delimited rest) :
    takeExponent ('e' :: (digits ++ rest)) = ('e' :: digits, rest) ∧
      takeExponent ('e' :: '-' :: (digits ++ rest)) = ('e' :: '-' :: digits, rest) := by
  simp only [Symbol.isNumeral, Bool.and_eq_true, Bool.not_eq_true', List.isEmpty_eq_false_iff,
    List.all_eq_true] at numeral
  have stops (first : Char) (others : List Char) (starts : rest = first :: others) :
      first.isDigit = false := (delimited.isMantissaPart first others starts).2.1
  have taken := takeWhile_run numeral.2 stops
  have left := dropWhile_run numeral.2 stops
  constructor
  · obtain ⟨first, others, rfl⟩ := List.exists_cons_of_ne_nil numeral.1
    have digit : first.isDigit = true := numeral.2 first List.mem_cons_self
    have unsigned (sign : Char) (notDigit : sign.isDigit = false) (tail : List Char) :
        first :: others ++ rest ≠ sign :: tail := by
      intro signed
      rw [(List.cons.inj signed).1, notDigit] at digit
      cases digit
    rw [takeExponent.eq_3, taken, left]
    · exact unsigned '-' rfl
    · exact unsigned '+' rfl
  · rw [takeExponent, taken, left]

theorem takeExponent_repr (power : Int) (delimited : Delimited rest) :
    takeExponent ('e' :: ((Int.repr power).toList ++ rest)) =
      ('e' :: (Int.repr power).toList, rest) := by
  rw [Int.repr_eq_if]
  split
  · rw [Nat.toList_repr]
    exact (takeExponent_digits (Symbol.isNumeral_toDigits _) delimited).1
  · rw [String.toList_append, Nat.toList_repr]
    exact (takeExponent_digits (Symbol.isNumeral_toDigits _) delimited).2

/-! ## Numbers -/

theorem takeNumber_append {mantissa tail : List Char}
    (parts : ∀ character ∈ mantissa, isMantissaPart character = true)
    (stops : ∀ first others, tail = first :: others → isMantissaPart first = false) :
    takeNumber (mantissa ++ tail) =
      (mantissa ++ (takeExponent tail).1, (takeExponent tail).2) := by
  simp only [takeNumber, takeWhile_run parts stops, dropWhile_run parts stops]

theorem scan?_of_takeNumber {first : Char} {others : List Char} {token : Token}
    (digit : first.isDigit = true)
    (taken : takeNumber (first :: others ++ rest) = (first :: others, rest))
    (number : lexicon.number? (first :: others) = some token) :
    lexicon.scan? (first :: others ++ rest) = some (token, rest) := by
  rw [List.cons_append] at taken ⊢
  simp only [scan?, digit, taken, number]
  rfl

theorem Lexes.numeral {digits : List Char} (numeral : Symbol.isNumeral digits = true) :
    Lexes lexicon digits [.integer (Nat.ofDigitChars 10 digits 0)] := by
  simp only [Symbol.isNumeral, Bool.and_eq_true, Bool.not_eq_true', List.isEmpty_eq_false_iff]
    at numeral
  have isDigits := List.all_eq_true.mp numeral.2
  apply Lexes.of_scan? numeral.1
  intro rest delimited
  have parts : ∀ character ∈ digits, isMantissaPart character = true := by
    intro character member
    simp [isMantissaPart, isDigits character member]
  have taken := takeNumber_append parts
    fun first others starts => (delimited.isMantissaPart first others starts).1
  rw [takeExponent_delimited delimited, List.append_nil] at taken
  obtain ⟨first, others, rfl⟩ := List.exists_cons_of_ne_nil numeral.1
  apply scan?_of_takeNumber (isDigits first List.mem_cons_self) taken
  rw [number?, if_pos numeral.2]

theorem Lexes.integer (value : Nat) :
    Lexes lexicon (Nat.repr value).toList [.integer value] := by
  have lexes : Lexes lexicon (Nat.toDigits 10 value)
      [.integer (Nat.ofDigitChars 10 (Nat.toDigits 10 value) 0)] :=
    Lexes.numeral (Symbol.isNumeral_toDigits value)
  rw [Nat.ofDigitChars_ten_toDigits] at lexes
  rw [Nat.toList_repr]
  exact lexes

theorem takeNumber_of_numeral {mantissa exponent : List Char}
    (numeral : Numeral mantissa exponent) (delimited : Delimited rest) :
    takeNumber (mantissa ++ exponent ++ rest) = (mantissa ++ exponent, rest) := by
  have parts : ∀ character ∈ mantissa, isMantissaPart character = true := by
    intro character member
    rcases numeral.parts character member with digit | rfl
    · simp [isMantissaPart, digit]
    · rfl
  rw [List.append_assoc]
  rcases numeral.marked with ⟨rfl, _⟩ | ⟨power, rfl⟩
  · have taken := takeNumber_append parts
      fun first others starts => (delimited.isMantissaPart first others starts).1
    rw [takeExponent_delimited delimited] at taken
    exact taken
  · have stops : ∀ first others, 'e' :: ((Int.repr power).toList ++ rest) = first :: others →
        isMantissaPart first = false := by
      intro first others starts
      rw [← (List.cons.inj starts).1]
      rfl
    have taken := takeNumber_append parts stops
    rw [takeExponent_repr power delimited] at taken
    exact taken

theorem number?_of_numeral {mantissa exponent : List Char} {value : Float}
    (numeral : Numeral mantissa exponent)
    (readsBack : lexicon.decimal? (String.ofList (mantissa ++ exponent)) = some value) :
    lexicon.number? (mantissa ++ exponent) = some (.decimal value) := by
  have marked : ¬ (mantissa ++ exponent).all Char.isDigit = true := by
    intro isDigits
    rw [List.all_eq_true] at isDigits
    rcases numeral.marked with ⟨_, point⟩ | ⟨power, rfl⟩
    · exact absurd (isDigits '.' (List.mem_append_left _ point)) (by decide)
    · exact absurd (isDigits 'e' (List.mem_append_right _ List.mem_cons_self)) (by decide)
  rw [number?, if_neg marked, readsBack]
  rfl

theorem Lexes.decimal {mantissa exponent : List Char} {value : Float}
    (numeral : Numeral mantissa exponent)
    (readsBack : lexicon.decimal? (String.ofList (mantissa ++ exponent)) = some value) :
    Lexes lexicon (mantissa ++ exponent) [.decimal value] := by
  have number := number?_of_numeral numeral readsBack
  have taken {rest : List Char} (delimited : Delimited rest) :=
    takeNumber_of_numeral numeral delimited
  obtain ⟨first, others, rfl, digit⟩ := numeral.starts
  apply Lexes.of_scan? (by simp)
  intro rest delimited
  exact scan?_of_takeNumber digit (taken delimited) number

end LieScribe.Lexicon
