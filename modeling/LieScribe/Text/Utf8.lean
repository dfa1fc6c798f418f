/-!
# Reading bytes as text

Bytes are read as UTF-8.  Where they are not, each longest piece that could have
started a character is replaced by the replacement character, and reading goes on
behind it.
-/

namespace LieScribe.Utf8

/-- The replacement character. -/
def replacement : Char := '\uFFFD'

def isContinuation (byte : UInt8) : Bool :=
  0x80 ≤ byte && byte ≤ 0xBF

/-- The low bits of a continuation byte. -/
def payload (byte : UInt8) : Nat :=
  byte.toNat % 64

/-- May the second byte follow the first one of a three byte character?  Characters
with shorter forms and surrogates are shut out. -/
def isSecondOfThree (first second : UInt8) : Bool :=
  if first = 0xE0 then 0xA0 ≤ second && second ≤ 0xBF
  else if first = 0xED then 0x80 ≤ second && second ≤ 0x9F
  else isContinuation second

/-- May the second byte follow the first one of a four byte character?  Characters
with shorter forms and those beyond the last plane are shut out. -/
def isSecondOfFour (first second : UInt8) : Bool :=
  if first = 0xF0 then 0x90 ≤ second && second ≤ 0xBF
  else if first = 0xF4 then 0x80 ≤ second && second ≤ 0x8F
  else isContinuation second

/-- The character that a first byte and those behind it start with, and how many of
the latter belong to it. -/
def leading (first : UInt8) (others : List UInt8) : Char × Nat :=
  if first < 0x80 then
    (Char.ofNat first.toNat, 0)
  else if 0xC2 ≤ first && first ≤ 0xDF then
    match others with
    | second :: _ =>
        if isContinuation second then
          (Char.ofNat (first.toNat % 32 * 64 + payload second), 1)
        else
          (replacement, 0)
    | [] => (replacement, 0)
  else if 0xE0 ≤ first && first ≤ 0xEF then
    match others with
    | second :: rest =>
        if isSecondOfThree first second then
          match rest with
          | third :: _ =>
              if isContinuation third then
                (Char.ofNat
                  ((first.toNat % 16 * 64 + payload second) * 64 +
                    payload third), 2)
              else
                (replacement, 1)
          | [] => (replacement, 1)
        else
          (replacement, 0)
    | [] => (replacement, 0)
  else if 0xF0 ≤ first && first ≤ 0xF4 then
    match others with
    | second :: rest =>
        if isSecondOfFour first second then
          match rest with
          | third :: rest =>
              if isContinuation third then
                match rest with
                | fourth :: _ =>
                    if isContinuation fourth then
                      (Char.ofNat
                        (((first.toNat % 8 * 64 + payload second) * 64 +
                          payload third) * 64 + payload fourth), 3)
                    else
                      (replacement, 2)
                | [] => (replacement, 2)
              else
                (replacement, 1)
          | [] => (replacement, 1)
        else
          (replacement, 0)
    | [] => (replacement, 0)
  else
    (replacement, 0)

/-- The characters that bytes stand for. -/
def characters : List UInt8 → List Char
  | [] => []
  | first :: others =>
      let (c, used) := leading first others
      c :: characters (others.drop used)
termination_by bytes => bytes.length
decreasing_by
  simp only [List.length_drop, List.length_cons]
  omega

/-- Read bytes as text, with replacements where they are none. -/
def decode (data : ByteArray) : String :=
  String.ofList (characters data.toList)

end LieScribe.Utf8
