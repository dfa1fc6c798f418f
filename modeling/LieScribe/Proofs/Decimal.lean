import LieScribe.Decimal.Layout
import Mathlib

/-!
# Texts of decimals

The text of a finite number is a decimal numeral: digits with a point, or digits,
perhaps with a point, and an exponent.  A number and its opposite have one
magnitude, so their texts differ in the sign only.
-/

namespace LieScribe.Decimal

/-! ## Parts of a double precision number -/

section Parts

open Float.Model (Format UnpackedFloat)
open Float.Model.UnpackedFloat

variable {x : Float}

theorem toNat_unpackExponent (bits : UInt64) :
    (@unpackExponent .binary64 bits.toBitVec).toNat =
      bits.toNat / Nat.pow 2 52 % Nat.pow 2 11 := by
  rw [unpackExponent_def]
  simp [BitVec.extractLsb'_toNat, Nat.shiftRight_eq_div_pow]

theorem toNat_unpackMantissa (bits : UInt64) :
    (@unpackMantissa .binary64 bits.toBitVec).toNat = bits.toNat % Nat.pow 2 52 := by
  rw [unpackMantissa_def]
  simp [BitVec.extractLsb'_toNat]

theorem isSignNegative_eq (x : Float) :
    isSignNegative x = decide (@unpackSign .binary64 x.toBits.toBitVec = 1#1) := by
  have signBit : (@unpackSign .binary64 x.toBits.toBitVec).toNat =
      (x.toBits >>> 63).toNat := by
    rw [unpackSign_def]
    have bound := x.toBits.toNat_lt
    have shift : (63 : UInt64).toNat % 64 = 63 := rfl
    simp only [BitVec.extractLsb'_toNat, UInt64.toNat_toBitVec, UInt64.toNat_shiftRight,
      Nat.shiftRight_eq_div_pow, shift]
    norm_num
    omega
  rw [isSignNegative, Bool.eq_iff_iff, beq_iff_eq, decide_eq_true_iff,
    ← UInt64.toNat_inj, ← BitVec.toNat_inj, signBit]
  rfl

/-- A number and its opposite differ in the sign bit only. -/
theorem exists_components (number : x.isNaN = false) :
    ∃ sign exponent mantissa,
      x.toBits.toBitVec = packComponents .binary64 sign exponent mantissa ∧
        (-x).toBits.toBitVec = packComponents .binary64 (-sign) exponent mantissa := by
  have packed : UnpackedFloat.pack .binary64 x.toModel.unpack = x.toBits.toBitVec :=
    pack_unpack_of_valid x.toModel.valid
  have opposite : (-x).toBits.toBitVec =
      UnpackedFloat.pack .binary64 x.toModel.unpack.neg := rfl
  rw [← packed, opposite]
  have unpackedNumber : x.toModel.unpack.isNaN = false := number
  generalize x.toModel.unpack = unpacked at unpackedNumber ⊢
  cases unpacked with
  | notANumber =>
      cases unpackedNumber
  | infinity sign =>
      exact ⟨sign, _, _, rfl, rfl⟩
  | zero sign =>
      exact ⟨sign, _, _, rfl, rfl⟩
  | finite sign mantissa exponent positive =>
      simp only [UnpackedFloat.neg, UnpackedFloat.pack]
      split_ifs
      all_goals exact ⟨sign, _, _, rfl, rfl⟩

theorem magnitude_neg (layout : Layout) (number : x.isNaN = false) :
    layout.magnitude (-x) = layout.magnitude x := by
  obtain ⟨sign, exponent, mantissa, ofNumber, ofOpposite⟩ := exists_components number
  have exponents := toNat_unpackExponent (-x).toBits
  have mantissas := toNat_unpackMantissa (-x).toBits
  rw [ofOpposite, unpackExponent_packComponents] at exponents
  rw [ofOpposite, unpackMantissa_packComponents] at mantissas
  have exponents' := toNat_unpackExponent x.toBits
  have mantissas' := toNat_unpackMantissa x.toBits
  rw [ofNumber, unpackExponent_packComponents] at exponents'
  rw [ofNumber, unpackMantissa_packComponents] at mantissas'
  simp only [Layout.magnitude, ← exponents, ← mantissas, ← exponents', ← mantissas']

theorem isSignNegative_neg (number : x.isNaN = false) :
    isSignNegative (-x) = !isSignNegative x := by
  obtain ⟨sign, exponent, mantissa, ofNumber, ofOpposite⟩ := exists_components number
  rw [isSignNegative_eq, isSignNegative_eq, ofNumber, ofOpposite,
    unpackSign_packComponents, unpackSign_packComponents]
  cases sign <;> rfl

theorem isNaN_neg (number : x.isNaN = false) : (-x).isNaN = false := by
  by_contra notANumber
  rw [Bool.not_eq_false] at notANumber
  have packed : (-x).toBits.toBitVec = packedNaN .binary64 :=
    (isNaN_unpack_iff_of_valid (-x).toModel.valid).mp notANumber
  obtain ⟨sign, exponent, mantissa, ofNumber, ofOpposite⟩ := exists_components number
  rw [ofOpposite] at packed
  have exponents := congrArg unpackExponent packed
  have mantissas := congrArg unpackMantissa packed
  rw [packedNaN, unpackExponent_packComponents, unpackExponent_packComponents] at exponents
  rw [packedNaN, unpackMantissa_packComponents, unpackMantissa_packComponents] at mantissas
  have ofNaN : x.toBits.toBitVec = packedNaN .binary64 := by
    apply x.toModel.valid.eq_packedNaN
    · rw [show x.toModel.toBits.toBitVec = _ from ofNumber, unpackExponent_packComponents,
        exponents]
    · rw [show x.toModel.toBits.toBitVec = _ from ofNumber, unpackMantissa_packComponents,
        mantissas]
      decide
  have isNaN : x.isNaN = true := (isNaN_unpack_iff_of_valid x.toModel.valid).mpr ofNaN
  rw [number] at isNaN
  cases isNaN

/-- The exponent bits of a finite number are not all set. -/
theorem biased_ne_of_finite (number : x.isNaN = false) (bounded : x.isInf = false) :
    x.toBits.toNat / Nat.pow 2 52 % Nat.pow 2 11 ≠ 2047 := by
  intro allSet
  have exponent : @unpackExponent .binary64 x.toBits.toBitVec = -1#11 := by
    rw [← BitVec.toNat_inj, toNat_unpackExponent, allSet]
    rfl
  have unpacked : x.toModel.unpack.isNaN = true ∨ x.toModel.unpack.isInf = true := by
    unfold Float.Model.unpack UnpackedFloat.unpack
    simp only [show @unpackExponent .binary64 x.toModel.toBits.toBitVec = -1#11 from exponent,
      if_true]
    split
    · exact Or.inr rfl
    · exact Or.inl rfl
  rcases unpacked with isNaN | isInf
  · exact absurd (number.symm.trans isNaN) (by decide)
  · exact absurd (bounded.symm.trans isInf) (by decide)

end Parts

/-! ## Shortest decimals are positive -/

section Positive

variable {interval : Interval} {exponent : Int}

theorem digits_pos_of_onGrid? {decimal : Scaled}
    (found : interval.onGrid? exponent = some decimal)
    (positive : 0 < interval.wholeUnits exponent) :
    0 < decimal.digits := by
  simp only [Interval.onGrid?] at found
  split at found
  · cases found
    split <;> simp [positive]
  · cases found
    exact positive
  · cases found
    exact Nat.succ_pos _
  · cases found

theorem digits_search_pos (interval : Interval) (more : Nat) (exponent : Int)
    (positive : ∀ finer ≤ exponent, 0 < interval.wholeUnits finer) :
    0 < (search interval more exponent).digits := by
  induction more generalizing exponent with
  | zero =>
      rw [search]
      cases found : interval.onGrid? exponent with
      | none =>
          exact positive exponent (Int.le_refl _)
      | some decimal =>
          exact digits_pos_of_onGrid? found (positive exponent (Int.le_refl _))
  | succ more inductionHypothesis =>
      rw [search]
      split
      · next decimal found =>
          exact digits_pos_of_onGrid? found (positive exponent (Int.le_refl _))
      · exact inductionHypothesis _ fun finer le => positive finer (by omega)

theorem digitCount_le_iff {number count : Nat} (positive : 0 < number) (some : 0 < count) :
    digitCount number ≤ count ↔ number < 10 ^ count := by
  rw [digitCount, if_neg (Nat.pos_iff_ne_zero.mp positive)]
  exact Nat.length_toDigits_le_iff (by decide) some

/-- A number has a whole unit on every grid that is not coarser than its leading
digit. -/
theorem wholeUnits_pos (value : 0 < interval.value) (denominator : 0 < interval.denominator)
    (fine : exponent ≤ leadingExponent interval.value interval.denominator) :
    0 < interval.wholeUnits exponent := by
  apply Nat.div_pos
  · rw [leadingExponent] at fine
    split at fine
    · next large =>
        -- The leading digit stands in front of the point.
        have quotient : 0 < interval.value / interval.denominator :=
          Nat.div_pos large denominator
        have reached : 10 ^ exponent.toNat ≤ interval.value / interval.denominator := by
          by_contra short
          rcases Nat.eq_zero_or_pos exponent.toNat with zero | some
          · rw [zero, pow_zero] at short
            omega
          · have count := (digitCount_le_iff quotient some).mpr (by omega)
            omega
        calc interval.denominator * Nat.pow 10 exponent.toNat
            ≤ interval.denominator * (interval.value / interval.denominator) :=
              Nat.mul_le_mul_left _ reached
          _ ≤ interval.value := Nat.mul_div_le _ _
          _ ≤ interval.value * Nat.pow 10 (-exponent).toNat :=
              Nat.le_mul_of_pos_right _ (Nat.pow_pos (by decide))
    · next small =>
        -- The leading digit stands behind the point.
        have quotient : 0 < (interval.denominator - 1) / interval.value :=
          Nat.div_pos (by omega) value
        have counted : 0 < digitCount ((interval.denominator - 1) / interval.value) := by
          rw [digitCount, if_neg (Nat.pos_iff_ne_zero.mp quotient)]
          exact Nat.length_toDigits_pos
        have reached := (digitCount_le_iff quotient counted).mp (Nat.le_refl _)
        have whole : exponent.toNat = 0 := by omega
        have enough : digitCount ((interval.denominator - 1) / interval.value) ≤
            (-exponent).toNat := by omega
        have scaled := (Nat.div_lt_iff_lt_mul value).mp reached
        rw [whole]
        calc interval.denominator * Nat.pow 10 0
            = interval.denominator := Nat.mul_one _
          _ ≤ interval.value *
                10 ^ digitCount ((interval.denominator - 1) / interval.value) := by
              rw [Nat.mul_comm]
              omega
          _ ≤ interval.value * Nat.pow 10 (-exponent).toNat :=
              Nat.mul_le_mul_left _ (Nat.pow_le_pow_right (by decide) enough)
  · exact Nat.mul_pos denominator (Nat.pow_pos (by decide))

theorem digits_shortest_pos {m : Nat} (q : Int) (finerBelow : Bool) (positive : 0 < m) :
    0 < (shortest m q finerBelow).digits := by
  apply digits_search_pos
  intro finer fine
  apply wholeUnits_pos _ _ fine
  · exact Nat.mul_pos (Nat.mul_pos (by decide) positive) (Nat.pow_pos (by decide))
  · exact Nat.pow_pos (by decide)

end Positive

/-! ## The shape of a numeral -/

/-- The two parts of a decimal numeral.  Digits and points come first; without a
point there is an exponent. -/
structure Numeral (mantissa exponent : List Char) : Prop where
  starts : ∃ first others, mantissa = first :: others ∧ first.isDigit = true
  parts : ∀ character ∈ mantissa, character.isDigit = true ∨ character = '.'
  marked : (exponent = [] ∧ '.' ∈ mantissa) ∨
    ∃ power : Int, exponent = 'e' :: (Int.repr power).toList

theorem mem_of_mem_trimZeros {digits : List Char} {character : Char}
    (member : character ∈ trimZeros digits) : character ∈ digits := by
  rw [trimZeros, List.mem_reverse] at member
  exact List.mem_reverse.mp ((List.dropWhile_sublist _).mem member)

theorem trimZeros_toDigits_ne_nil {number : Nat} (positive : 0 < number) :
    trimZeros (Nat.toDigits 10 number) ≠ [] := by
  intro trimmed
  rw [trimZeros, List.reverse_eq_nil_iff, List.dropWhile_eq_nil_iff] at trimmed
  have zeros : Nat.toDigits 10 number =
      List.replicate (Nat.toDigits 10 number).length '0' := by
    apply List.eq_replicate_of_mem
    intro digit member
    exact beq_iff_eq.mp (trimmed digit (List.mem_reverse.mpr member))
  have value : Nat.ofDigitChars 10 (Nat.toDigits 10 number) 0 = number :=
    Nat.ofDigitChars_ten_toDigits
  rw [zeros, Nat.ofDigitChars_replicate_zero] at value
  omega

theorem numeral_positional {digits : List Char} (places : Int)
    (isDigits : ∀ character ∈ digits, character.isDigit = true) :
    Numeral (positional digits places) [] := by
  simp only [positional]
  generalize paddedIs : List.replicate (1 - places).toNat '0' ++ digits = padded
  generalize wholeIs : (max places 1).toNat = whole
  generalize filledIs : padded ++ List.replicate (whole + 1 - padded.length) '0' = filled
  have long : 0 < whole ∧ 0 < filled.length := by
    rw [← filledIs, List.length_append, List.length_replicate]
    omega
  have filledDigits : ∀ character ∈ filled, character.isDigit = true := by
    intro character member
    rw [← filledIs, ← paddedIs, List.mem_append, List.mem_append] at member
    rcases member with (zero | digit) | zero
    · rw [List.eq_of_mem_replicate zero]
      rfl
    · exact isDigits character digit
    · rw [List.eq_of_mem_replicate zero]
      rfl
  obtain ⟨first, others, rfl⟩ := List.exists_cons_of_length_pos long.2
  obtain ⟨fewer, rfl⟩ := Nat.exists_eq_succ_of_ne_zero (Nat.pos_iff_ne_zero.mp long.1)
  refine ⟨⟨first, _, rfl, filledDigits first List.mem_cons_self⟩, ?_, Or.inl ⟨rfl, by simp⟩⟩
  intro character member
  rw [List.mem_append, List.mem_cons] at member
  rcases member with front | point | back
  · exact Or.inl (filledDigits character (List.mem_of_mem_take front))
  · exact Or.inr point
  · exact Or.inl (filledDigits character (List.mem_of_mem_drop back))

theorem exists_numeral_exponential {digits : List Char} (power : Int)
    (nonempty : digits ≠ []) (isDigits : ∀ character ∈ digits, character.isDigit = true) :
    ∃ mantissa exponent, exponential digits power = mantissa ++ exponent ∧
      Numeral mantissa exponent := by
  match digits with
  | [] =>
      exact absurd rfl nonempty
  | [first] =>
      have digit := isDigits first List.mem_cons_self
      exact ⟨[first], _, rfl, ⟨first, [], rfl, digit⟩, by simp [digit], Or.inr ⟨power, rfl⟩⟩
  | first :: second :: others =>
      refine ⟨first :: '.' :: second :: others, _, rfl,
        ⟨first, _, rfl, isDigits first List.mem_cons_self⟩, ?_, Or.inr ⟨power, rfl⟩⟩
      intro character member
      have cases : character = '.' ∨ character ∈ first :: second :: others := by
        simp only [List.mem_cons] at member ⊢
        tauto
      rcases cases with point | digit
      · exact Or.inr point
      · exact Or.inl (isDigits character digit)

theorem exists_numeral_write (layout : Layout) {decimal : Scaled}
    (positive : 0 < decimal.digits) :
    ∃ mantissa exponent, layout.write decimal = mantissa ++ exponent ∧
      Numeral mantissa exponent := by
  have isDigits : ∀ character ∈ trimZeros (Nat.toDigits 10 decimal.digits),
      character.isDigit = true := by
    intro character member
    exact Nat.isDigit_of_mem_toDigits (by decide) (by decide) (mem_of_mem_trimZeros member)
  simp only [Layout.write]
  split
  · exact ⟨_, [], (List.append_nil _).symm, numeral_positional _ isDigits⟩
  · exact exists_numeral_exponential _ (trimZeros_toDigits_ne_nil positive) isDigits

theorem exists_numeral_magnitude (layout : Layout) {x : Float} (number : x.isNaN = false)
    (bounded : x.isInf = false) :
    ∃ mantissa exponent, (layout.magnitude x).toList = mantissa ++ exponent ∧
      Numeral mantissa exponent := by
  have finite := biased_ne_of_finite number bounded
  simp only [Layout.magnitude, if_neg finite]
  split
  · next subnormal =>
      split
      · exact ⟨['0', '.', '0'], [], rfl, ⟨'0', _, rfl, rfl⟩, by simp, Or.inl ⟨rfl, by simp⟩⟩
      · next fraction =>
          rw [String.toList_ofList]
          exact exists_numeral_write layout
            (digits_shortest_pos _ _ (Nat.pos_of_ne_zero fraction))
  · rw [String.toList_ofList]
    exact exists_numeral_write layout
      (digits_shortest_pos _ _ (Nat.add_pos_left (by decide) _))

/-! ## Signs -/

theorem text_eq_magnitude (layout : Layout) {x : Float} (number : x.isNaN = false)
    (unsigned : isSignNegative x = false) : layout.text x = layout.magnitude x := by
  rw [Layout.text, number, unsigned]
  rfl

/-- The text of the opposite of a negative number is that of its magnitude. -/
theorem text_neg_eq_magnitude (layout : Layout) {x : Float} (number : x.isNaN = false)
    (negative : isSignNegative x = true) : layout.text (-x) = layout.magnitude x := by
  have unsigned : isSignNegative (-x) = false := by
    rw [isSignNegative_neg number, negative]
    rfl
  rw [text_eq_magnitude layout (isNaN_neg number) unsigned, magnitude_neg layout number]

theorem text_of_isSignNegative (layout : Layout) {x : Float} (number : x.isNaN = false)
    (negative : isSignNegative x = true) : layout.text x = "-" ++ layout.text (-x) := by
  rw [text_neg_eq_magnitude layout number negative, Layout.text, number, negative]
  rfl

end LieScribe.Decimal
