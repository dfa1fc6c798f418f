import LieScribe.Decimal.Layout
import LieScribe.Proofs.Reading.Grammar

/-!
# Tokens of target texts

A text is cut into tokens from the left, each one as long as possible; blanks
separate tokens and mean nothing else.  The two languages differ in a few of them.
Parts of a Python name are joined by points, those of a C++ name by colons, and a
C++ name may apply a template to `Scalar`.  Python has the power operator and quoted
texts; C++ has neither, and reads two adjacent minus signs as a decrement, which is
no part of an expression here.

What a decimal numeral denotes is left open: a lexicon carries the language's own
reading of decimals, and `ReadsBack` says that this reading returns the numbers of a
tree from the texts they are written with.
-/

namespace LieScribe

/-- How one of the languages cuts a text into tokens. -/
structure Lexicon where
  python : Bool
  decimal? : String → Option Float

/-! ## Characters -/

def isNameStart (character : Char) : Bool :=
  character.isAlpha || character == '_'

def isIdentifierPart (character : Char) : Bool :=
  character.isAlphanum || character == '_'

/-- A letter or underscore, followed by letters, digits and underscores. -/
def isIdentifier (text : String) : Bool :=
  match text.toList with
  | [] => false
  | first :: others => isNameStart first && others.all isIdentifierPart

def isMantissaPart (character : Char) : Bool :=
  character.isDigit || character == '.'

/-- The mark around a quoted text. -/
def quotationMark : Char :=
  Char.ofNat 39

namespace Lexicon

def isNamePart (python : Bool) (character : Char) : Bool :=
  isIdentifierPart character || character == (if python then '.' else ':')

/-- Split off the longest name. -/
def takeName (python : Bool) : List Char → List Char × List Char
  | '<' :: 'S' :: 'c' :: 'a' :: 'l' :: 'a' :: 'r' :: '>' :: rest =>
      if python then
        ([], '<' :: 'S' :: 'c' :: 'a' :: 'l' :: 'a' :: 'r' :: '>' :: rest)
      else
        let (name, remaining) := takeName python rest
        ('<' :: 'S' :: 'c' :: 'a' :: 'l' :: 'a' :: 'r' :: '>' :: name, remaining)
  | character :: rest =>
      if isNamePart python character then
        let (name, remaining) := takeName python rest
        (character :: name, remaining)
      else
        ([], character :: rest)
  | [] => ([], [])

/-- A text that is one name. -/
def isName (python : Bool) (text : List Char) : Bool :=
  match text with
  | [] => false
  | first :: _ => isNameStart first && takeName python text == (text, [])

/-- Split off the exponent of a number, if there is one. -/
def takeExponent : List Char → List Char × List Char
  | 'e' :: '-' :: rest =>
      ('e' :: '-' :: rest.takeWhile Char.isDigit, rest.dropWhile Char.isDigit)
  | 'e' :: '+' :: rest =>
      ('e' :: '+' :: rest.takeWhile Char.isDigit, rest.dropWhile Char.isDigit)
  | 'e' :: rest =>
      ('e' :: rest.takeWhile Char.isDigit, rest.dropWhile Char.isDigit)
  | rest => ([], rest)

/-- Split off the longest number: digits and points, then an exponent. -/
def takeNumber (characters : List Char) : List Char × List Char :=
  let (exponent, remaining) := takeExponent (characters.dropWhile isMantissaPart)
  (characters.takeWhile isMantissaPart ++ exponent, remaining)

/-- A number of digits only is an integer. -/
def number? (lexicon : Lexicon) (text : List Char) : Option Token :=
  if text.all Char.isDigit then
    some (.integer (Nat.ofDigitChars 10 text 0))
  else
    (lexicon.decimal? (String.ofList text)).map .decimal

/-- The token that starts with a character that is no part of a number or name. -/
def symbol? (lexicon : Lexicon) : Char → List Char → Option (Token × List Char)
  | '(', rest => some (.opening, rest)
  | ')', rest => some (.closing, rest)
  | '[', rest => some (.openingBracket, rest)
  | ']', rest => some (.closingBracket, rest)
  | ',', rest => some (.comma, rest)
  | '+', rest => some (.operator .add, rest)
  | '-', '-' :: rest =>
      if lexicon.python then some (.operator .sub, '-' :: rest) else none
  | '-', rest => some (.operator .sub, rest)
  | '*', '*' :: rest =>
      if lexicon.python then some (.operator .pow, rest) else none
  | '*', rest => some (.operator .mul, rest)
  | '/', rest => some (.operator .div, rest)
  | '<', '=' :: rest => some (.operator .le, rest)
  | '<', rest => some (.operator .lt, rest)
  | '>', '=' :: rest => some (.operator .ge, rest)
  | '>', rest => some (.operator .gt, rest)
  | _, _ => none

/-- The rest of a quoted text, up to the closing mark. -/
def quoted? (lexicon : Lexicon) (characters : List Char) : Option (Token × List Char) :=
  match lexicon.python, characters.dropWhile (· != quotationMark) with
  | true, _ :: remaining =>
      some (.quoted (String.ofList (characters.takeWhile (· != quotationMark))), remaining)
  | _, _ => none

/-- The first token of a text that starts with one. -/
def scan? (lexicon : Lexicon) : List Char → Option (Token × List Char)
  | [] => none
  | first :: rest =>
      if first.isDigit then
        let (text, remaining) := takeNumber (first :: rest)
        (lexicon.number? text).map (·, remaining)
      else if isNameStart first then
        let (text, remaining) := takeName lexicon.python (first :: rest)
        some (.name (String.ofList text), remaining)
      else if first = quotationMark then
        lexicon.quoted? rest
      else
        lexicon.symbol? first rest

/-- Cut a text into tokens. -/
def tokenize? (lexicon : Lexicon) : List Char → Option (List Token)
  | [] => some []
  | ' ' :: rest => lexicon.tokenize? rest
  | first :: rest => do
      let (token, ⟨remaining, _⟩) ← advance (first :: rest) (lexicon.scan? (first :: rest))
      let tokens ← lexicon.tokenize? remaining
      some (token :: tokens)
termination_by characters => characters.length
decreasing_by
  · exact Nat.lt_add_one rest.length
  · assumption

/-- Read a whole text as an expression. -/
def read? (lexicon : Lexicon) (text : String) : Option ParseTree := do
  let tokens ← lexicon.tokenize? text.toList
  Grammar.readAll tokens

/-! ## Decimals that are read back -/

/-- Each decimal of the tree is read back from its own text. -/
def ReadsBack (lexicon : Lexicon) (tree : ParseTree) : Prop :=
  ∀ number ∈ tree.decimals,
    lexicon.decimal? (Decimal.Layout.literal.text number) = some number

instance (lexicon : Lexicon) (tree : ParseTree) : Decidable (lexicon.ReadsBack tree) :=
  inferInstanceAs (Decidable (∀ number ∈ tree.decimals,
    lexicon.decimal? (Decimal.Layout.literal.text number) = some number))

theorem readsBack_binary {lexicon : Lexicon} {operator : Operator} {left right : ParseTree} :
    lexicon.ReadsBack (.binary operator left right) ↔
      lexicon.ReadsBack left ∧ lexicon.ReadsBack right := by
  simp only [ReadsBack, ParseTree.decimals, List.forall_mem_append]

theorem readsBack_call {lexicon : Lexicon} {callee : String} {arguments : List ParseTree} :
    lexicon.ReadsBack (.call callee arguments) ↔
      ∀ argument ∈ arguments, lexicon.ReadsBack argument := by
  simp only [ReadsBack, ParseTree.decimals]
  induction arguments with
  | nil =>
      simp [ParseTree.decimalsOf]
  | cons argument others inductionHypothesis =>
      rw [ParseTree.decimalsOf, List.forall_mem_append, List.forall_mem_cons,
        inductionHypothesis]

end Lexicon

end LieScribe
