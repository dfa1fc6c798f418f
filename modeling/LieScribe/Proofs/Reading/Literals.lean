import LieScribe.Proofs.Reading.Spelling
import LieScribe.Proofs.Reading.Translation

/-!
# Literals read as their trees

A literal is written as a number, with a sign in front of a negative one; what is no
finite number is written as a call, and so is the least integer of C++ as a
difference.
-/

namespace LieScribe

open Lexicon

variable {lexicon : Lexicon}

/-! ## Numbers -/

theorem Literal.toInt_neg {value : Int64} (greater : value ≠ Int64.minValue) :
    (-value).toInt = -value.toInt := by
  have notLeast : value.toInt ≠ Int64.minValue.toInt := mt Int64.toInt_inj.mp greater
  have lower : Int64.minValue.toInt ≤ value.toInt := value.minValue_le_toInt
  have upper : value.toInt ≤ Int64.maxValue.toInt := value.toInt_le
  rw [Int64.toInt_neg]
  apply Int.bmod_eq_of_le
  all_goals
    simp only [Int64.toInt_minValue, Int64.toInt_maxValue] at notLeast lower upper
    omega

theorem Spells.int (value : Int64) :
    Spells lexicon (Literal.int value).text (if value < 0 then .unary else .atom)
      (.ofInt value.toInt) := by
  have sign : value < 0 ↔ value.toInt < 0 := Int64.lt_iff_toInt_lt
  rw [ParseTree.ofInt, Literal.text, Int.repr_eq_if]
  by_cases negative : value.toInt < 0
  · rw [if_pos (sign.mpr negative), if_pos negative, if_neg (Int.not_le.mpr negative)]
    have digits : (-value.toInt).toNat = value.toInt.natAbs := by omega
    rw [digits]
    exact ((Spells.integer _).mono (by decide)).negative
  · rw [if_neg (mt sign.mp negative), if_neg negative, if_pos (Int.not_lt.mp negative)]
    have digits : value.toInt.toNat = value.toInt.natAbs := by omega
    rw [digits]
    exact Spells.integer _

/-- A finite number is a numeral, after a sign if its sign bit is set. -/
theorem Spells.signedNumeral {value magnitude : Float} (number : value.isNaN = false)
    (bounded : value.isInf = false)
    (back : lexicon.ReadsBack (.decimal magnitude) →
      lexicon.decimal? (Decimal.Layout.literal.magnitude value) = some magnitude) :
    Spells lexicon (Literal.float value).text
      (if Decimal.isSignNegative value then .unary else .atom)
      (if Decimal.isSignNegative value then .negative (.decimal magnitude)
        else .decimal magnitude) := by
  obtain ⟨mantissa, exponent, characters, numeral⟩ :=
    Decimal.exists_numeral_magnitude .literal number bounded
  have unsigned := Spells.numeral characters numeral back
  rw [Literal.text]
  cases sign : Decimal.isSignNegative value with
  | true =>
      rw [Decimal.text_of_isSignNegative .literal number sign,
        Decimal.text_neg_eq_magnitude .literal number sign]
      exact (unsigned.mono (by decide)).negative
  | false =>
      rw [Decimal.text_eq_magnitude .literal number sign]
      exact unsigned

theorem Spells.float {value : Float} (number : value.isNaN = false)
    (bounded : value.isInf = false) :
    Spells lexicon (Literal.float value).text
      (if Decimal.isSignNegative value then .unary else .atom) (.ofFloat value) := by
  rw [ParseTree.ofFloat]
  have ofMagnitude (magnitude : Float)
      (text : Decimal.Layout.literal.text magnitude = Decimal.Layout.literal.magnitude value) :=
    Spells.signedNumeral number bounded fun readsBack : lexicon.ReadsBack (.decimal magnitude) =>
      text ▸ readsBack magnitude List.mem_cons_self
  cases sign : Decimal.isSignNegative value with
  | true =>
      have spells := ofMagnitude (-value) (Decimal.text_neg_eq_magnitude .literal number sign)
      rwa [sign] at spells
  | false =>
      have spells := ofMagnitude value (Decimal.text_eq_magnitude .literal number sign)
      rwa [sign] at spells

/-! ## Python -/

/-- A value that is no finite number is converted from its name. -/
theorem Python.spells_float (python : lexicon.python = true) (text quotation : String)
    (characters : text.toList = quotationMark :: (quotation.toList ++ [quotationMark]))
    (unmarked : quotationMark ∉ quotation.toList) :
    Spells lexicon (Fragment.callText "float" [text]) .atom
      (.call "float" [.quoted quotation]) := by
  have named : isName lexicon.python "float".toList = true := by
    rw [python]
    rfl
  have quoted := Spells.quoted python characters unmarked
  exact Spells.All.call named (.cons (quoted.mono (by decide)) .nil)

theorem Python.readsAs_literal (python : lexicon.python = true) (constant : Literal) :
    (Python.literal constant).ReadsAs lexicon (Python.literalTree constant) := by
  cases constant with
  | int value =>
      exact Spells.int value
  | float value =>
      rw [Python.literal, Python.literalTree]
      have infinite : Spells lexicon "float('inf')" .atom (.call "float" [.quoted "inf"]) :=
        Python.spells_float python "'inf'" "inf" rfl (by decide)
      split
      · exact Python.spells_float python "'nan'" "nan" rfl (by decide)
      · next number =>
          split
          · split
            · exact infinite
            · exact (infinite.mono (by decide)).negative
          · next bounded =>
              exact Spells.float (Bool.eq_false_of_not_eq_true number)
                (Bool.eq_false_of_not_eq_true bounded)

/-! ## C++ -/

theorem Cpp.spells_scalar (cpp : lexicon.python = false) {text : String} {tree : ParseTree}
    (spells : Spells lexicon text .comparison tree) :
    Spells lexicon (Cpp.scalar text) .atom (.call "Scalar" [tree]) := by
  have named : isName lexicon.python "Scalar".toList = true := by
    rw [cpp]
    rfl
  exact Spells.All.call named (.cons spells .nil)

/-- The least integer is one less than an integer that has a literal. -/
theorem Cpp.spells_minValue :
    Spells lexicon ((Literal.int (Int64.minValue + 1)).text ++ " - 1") .sum
      (.binary .sub (.negative (.integer 9223372036854775807)) (.integer 1)) := by
  have least : Spells lexicon (Literal.int (Int64.minValue + 1)).text .unary
      (.negative (.integer 9223372036854775807)) := Spells.int (Int64.minValue + 1)
  have one : Spells lexicon "1" .atom (.integer 1) := Spells.integer 1
  have separates : Separates lexicon " - ".toList [.operator .sub] :=
    separates_sign .sub (by decide)
  exact Spells.joined (Or.inl rfl) separates (least.mono (by decide)) (one.mono (by decide))

theorem Cpp.readsAs_literal (cpp : lexicon.python = false) (constant : Literal) :
    (Cpp.literal constant).ReadsAs lexicon (Cpp.literalTree constant) := by
  have constantCall (callee : String) (named : isName false callee.toList = true) :
      Spells lexicon (Fragment.callText callee []) .atom (.call callee []) := by
    rw [← cpp] at named
    exact Spells.All.call named .nil
  cases constant with
  | int value =>
      rw [Cpp.literal, Cpp.literalTree]
      split
      · next least =>
          subst least
          exact (Cpp.spells_minValue.mono (by decide)).parenthesized
      · exact Spells.int value
  | float value =>
      rw [Cpp.literal, Cpp.literalTree]
      have infinite : Spells lexicon "std::numeric_limits<Scalar>::infinity()" .atom
          (.call "std::numeric_limits<Scalar>::infinity" []) :=
        constantCall "std::numeric_limits<Scalar>::infinity" rfl
      split
      · exact constantCall "std::numeric_limits<Scalar>::quiet_NaN" rfl
      · next number =>
          split
          · split
            · exact infinite
            · exact (infinite.mono (by decide)).negative
          · next bounded =>
              apply Cpp.spells_scalar cpp
              exact (Spells.float (Bool.eq_false_of_not_eq_true number)
                (Bool.eq_false_of_not_eq_true bounded)).mono (Precedence.comparison_le _)

/-! ## Literals of a target -/

namespace Target

variable {target : Target}

theorem readsAs_literal (dialect : lexicon.python = target.isPython) (constant : Literal) :
    (target.literal constant).ReadsAs lexicon (target.literalTree constant) := by
  cases target with
  | python2 | python3 =>
      exact Python.readsAs_literal dialect constant
  | cpp =>
      exact Cpp.readsAs_literal dialect constant

/-- The opposite of a negative integer is written without a sign. -/
theorem literalTree_neg {value : Int64} (negative : value < 0) (greater : value ≠ Int64.minValue) :
    target.literalTree (.int (-value)) = .integer value.toInt.natAbs := by
  have opposite : (-value).toInt = -value.toInt := Literal.toInt_neg greater
  have negativeInt : value.toInt < 0 := Int64.lt_iff_toInt_lt.mp negative
  have tree : ParseTree.ofInt (-value).toInt = .integer value.toInt.natAbs := by
    rw [ParseTree.ofInt, opposite, if_neg (by omega), Int.natAbs_neg]
  cases target with
  | python2 | python3 =>
      exact tree
  | cpp =>
      have notLeast : -value ≠ Int64.minValue := by
        intro least
        rw [least] at opposite
        have bound : Int64.minValue.toInt < 0 := by decide
        omega
      rw [literalTree, Cpp.literalTree, if_neg notLeast, tree]

theorem spells_literalTerm (dialect : lexicon.python = target.isPython) {text : String}
    {tree : ParseTree} (sum : Spells lexicon text .sum tree) (constant : Literal) :
    Spells lexicon (text ++ (target.literalTerm constant).text) .sum
      (target.addLiteral tree constant) := by
  cases constant with
  | int value =>
      rw [literalTerm, addLiteral, Literal.subtracted?, Literal.negated?]
      by_cases subtracted : value < 0 ∧ value ≠ Int64.minValue
      · rw [if_pos subtracted, if_pos subtracted.1, if_neg subtracted.2]
        have reads := readsAs_literal dialect (.int (-value))
        rw [literalTree_neg subtracted.1 subtracted.2] at reads
        exact sum.term ⟨true, _⟩ reads
      · have added : (if value < 0 then
            if value = Int64.minValue then none else some (Literal.int (-value))
          else none) = none := by
          grind
        rw [if_neg subtracted, added]
        exact sum.term ⟨false, _⟩ (readsAs_literal dialect (.int value))
  | float value =>
      rw [literalTerm, addLiteral, Literal.subtracted?]
      by_cases subtracted : value < 0.0
      · rw [if_pos subtracted, if_pos subtracted]
        exact sum.term ⟨true, _⟩ (readsAs_literal dialect (.float (-value)))
      · rw [if_neg subtracted, if_neg subtracted]
        exact sum.term ⟨false, _⟩ (readsAs_literal dialect (.float value))

end Target

end LieScribe
