import LieScribe.FileTree.Path
import Mathlib.Data.List.Lex
import Mathlib.Data.String.Basic
import Mathlib.Order.RelIso.Basic

/-!
# The order of bytes

Texts are compared character by character, and names of files byte by byte.  The code of a
character is such that both give the same order (`Utf8.bytes_lt_bytes_iff`): a greater character
has a greater lead byte, or the same lead byte and later bytes that are greater.  So paths made of
names can be compared either way (`Path.precedes_iff`).
-/

namespace LieScribe.Utf8

/-! ## Characters -/

/-- The bytes of a text. -/
def bytes (text : String) : List UInt8 :=
  text.toUTF8.data.toList

theorem bytes_eq_flatMap (text : String) :
    bytes text = text.toList.flatMap String.utf8EncodeChar := by
  rw [bytes, String.toUTF8, ← String.utf8Encode_toList, List.utf8Encode,
    List.toList_data_toByteArray]

/-- The first byte decides unless it is the same. -/
theorem ofNat_cons_lt_iff {left right : Nat} (leftByte : left < 256) (rightByte : right < 256)
    {lefts rights : List UInt8} :
    UInt8.ofNat left :: lefts < UInt8.ofNat right :: rights ↔
      left < right ∨ left = right ∧ lefts < rights := by
  rw [List.cons_lt_cons_iff, UInt8.lt_iff_toNat_lt, ← UInt8.toNat_inj, UInt8.toNat_ofNat',
    UInt8.toNat_ofNat', Nat.mod_eq_of_lt leftByte, Nat.mod_eq_of_lt rightByte]

/-- Numbers are compared group by group of six bits. -/
theorem lt_groups {left right : Nat} (less : left < right) :
    left / 262144 < right / 262144 ∨ left / 262144 = right / 262144 ∧
      (left / 4096 % 64 < right / 4096 % 64 ∨ left / 4096 % 64 = right / 4096 % 64 ∧
        (left / 64 % 64 < right / 64 % 64 ∨ left / 64 % 64 = right / 64 % 64 ∧
          left % 64 < right % 64)) := by
  have split {a b : Nat} (h : a < b) : a / 64 < b / 64 ∨ a / 64 = b / 64 ∧ a % 64 < b % 64 := by
    omega
  have second (value : Nat) : value / 4096 = value / 64 / 64 := by omega
  have third (value : Nat) : value / 262144 = value / 64 / 64 / 64 := by omega
  simp only [second, third]
  rcases split less with less | ⟨same, last⟩
  · rcases split less with less | ⟨same, last⟩
    · rcases split less with less | ⟨same, last⟩
      · exact .inl less
      · exact .inr ⟨same, .inl last⟩
    · exact .inr ⟨by rw [same], .inr ⟨by rw [same], .inl last⟩⟩
  · exact .inr ⟨by rw [same], .inr ⟨by rw [same], .inr ⟨by rw [same], last⟩⟩⟩

/-- The code of a character comes before that of a greater one, whatever follows them. -/
theorem utf8EncodeChar_append_lt {left right : Char} (less : left < right)
    (lefts rights : List UInt8) :
    String.utf8EncodeChar left ++ lefts < String.utf8EncodeChar right ++ rights := by
  have lessCode : left.val.toNat < right.val.toNat := by
    simpa [Char.lt_def, UInt32.lt_iff_toNat_lt] using less
  have bounded : right.val.toNat < 1114112 := by
    rcases right.valid with small | ⟨-, small⟩
    · exact lt_trans small (by decide)
    · exact small
  unfold String.utf8EncodeChar
  generalize left.val.toNat = code at *
  generalize right.val.toNat = code' at *
  have groups := lt_groups lessCode
  have lead : code / 262144 % 8 = code / 262144 := by omega
  have lead' : code' / 262144 % 8 = code' / 262144 := by omega
  dsimp only
  split_ifs <;> simp (disch := omega) only [List.cons_append, ofNat_cons_lt_iff] <;> omega

/-! ## Texts -/

theorem flatMap_utf8EncodeChar_lt {lefts rights : List Char} (less : lefts < rights) :
    lefts.flatMap String.utf8EncodeChar < rights.flatMap String.utf8EncodeChar := by
  induction lefts generalizing rights with
  | nil =>
      cases rights with
      | nil =>
          exact absurd less (lt_irrefl _)
      | cons right rights =>
          obtain ⟨first, others, code⟩ :=
            List.exists_cons_of_ne_nil
              (String.utf8EncodeChar_ne_nil : String.utf8EncodeChar right ≠ [])
          rw [List.flatMap_cons, code]
          exact List.nil_lt_cons _ _
  | cons left lefts inductionHypothesis =>
      cases rights with
      | nil =>
          exact absurd less (List.not_lt_nil _)
      | cons right rights =>
          rw [List.flatMap_cons, List.flatMap_cons]
          rcases List.cons_lt_cons_iff.mp less with first | ⟨rfl, later⟩
          · exact utf8EncodeChar_append_lt first _ _
          · exact List.append_left_lt (inductionHypothesis later)

/-- Texts are in the order of their bytes. -/
theorem bytes_lt_bytes_iff {left right : String} : bytes left < bytes right ↔ left < right := by
  have increasing (left right : String) (less : left < right) : bytes left < bytes right := by
    rw [bytes_eq_flatMap, bytes_eq_flatMap]
    exact flatMap_utf8EncodeChar_lt (String.lt_iff_toList_lt.mp less)
  exact (RelEmbedding.ofMonotone bytes increasing).map_rel_iff

end LieScribe.Utf8

namespace LieScribe.Path

/-- One path is before another if, compared from the top, its names are, byte by byte. -/
def Precedes (path other : Path) : Prop :=
  path.segments.map Utf8.bytes < other.segments.map Utf8.bytes

theorem precedes_iff {path other : Path} :
    path.Precedes other ↔ path.segments < other.segments := by
  have increasing (names others : List String) (less : names < others) :
      names.map Utf8.bytes < others.map Utf8.bytes :=
    List.map_lt (fun _ _ => Utf8.bytes_lt_bytes_iff.mpr) less
  exact (RelEmbedding.ofMonotone (List.map Utf8.bytes) increasing).map_rel_iff

instance : IsStrictTotalOrder Path Precedes where
  irrefl path before := lt_irrefl _ (precedes_iff.mp before)
  trans path other another before later :=
    precedes_iff.mpr (lt_trans (precedes_iff.mp before) (precedes_iff.mp later))
  trichotomous path other notBefore notAfter := by
    rw [precedes_iff] at notBefore notAfter
    obtain ⟨segments⟩ := path
    exact congrArg Path.mk (le_antisymm (not_lt.mp notAfter) (not_lt.mp notBefore))

end LieScribe.Path
