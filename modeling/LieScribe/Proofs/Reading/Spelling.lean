import LieScribe.Proofs.Reading.Numerals
import LieScribe.Target.Python
import Mathlib.Data.List.Forall2

/-!
# Texts that read as trees

`Spells lexicon text level tree` says that a text is an expression of a level of the
grammar which reads as the tree, provided that the decimals of the tree are read
back.  Texts are joined by operators, parentheses and calls, and for each way of
joining fragments there is one lemma that gives the tree of the result: a fragment is
put in parentheses exactly where the grammar needs it.
-/

namespace LieScribe

open Lexicon Grammar

/-- The text is an expression of the given level and reads as the tree, whose decimals
are read back.  It does not start with an asterisk, and starts with a sign only if it
does not bind more tightly than signs do. -/
structure Spells (lexicon : Lexicon) (text : String) (level : Precedence)
    (tree : ParseTree) : Prop where
  opens : ∃ first others, text.toList = first :: others ∧ first ≠ '*' ∧
    (first = '-' → level.level ≤ Precedence.unary.level)
  tokens : lexicon.ReadsBack tree →
    ∃ tokens, Lexes lexicon text.toList tokens ∧ ReadsAs level tokens tree

namespace Spells

variable {lexicon : Lexicon} {text leftText rightText separator : String}
  {level looser : Precedence} {tree leftTree rightTree : ParseTree} {operator : Operator}

theorem mono (loose : looser.level ≤ level.level) (spells : Spells lexicon text level tree) :
    Spells lexicon text looser tree := by
  obtain ⟨first, others, starts, unstarred, signed⟩ := spells.opens
  refine ⟨⟨first, others, starts, unstarred, fun sign => Nat.le_trans loose (signed sign)⟩, ?_⟩
  intro readsBack
  obtain ⟨tokens, lexes, reads⟩ := spells.tokens readsBack
  exact ⟨tokens, lexes, reads.mono loose⟩

theorem unstarred (spells : Spells lexicon text level tree) :
    ∃ first others, text.toList = first :: others ∧ first ≠ '*' := by
  obtain ⟨first, others, starts, unstarred, _⟩ := spells.opens
  exact ⟨first, others, starts, unstarred⟩

/-- A text that is followed by more starts as it does alone. -/
theorem opens_append (spells : Spells lexicon leftText level leftTree) (following : String) :
    ∃ first others, (leftText ++ following).toList = first :: others ∧ first ≠ '*' ∧
      (first = '-' → level.level ≤ Precedence.unary.level) := by
  obtain ⟨first, others, starts, condition⟩ := spells.opens
  exact ⟨first, others ++ following.toList, by rw [String.toList_append, starts]; rfl, condition⟩

/-! ## Operators -/

theorem joined (associates : operator.precedence = .sum ∨ operator.precedence = .product)
    (separates : Separates lexicon separator.toList [.operator operator])
    (left : Spells lexicon leftText operator.precedence leftTree)
    (right : Spells lexicon rightText operator.precedence.next rightTree) :
    Spells lexicon (leftText ++ (separator ++ rightText)) operator.precedence
      (.binary operator leftTree rightTree) := by
  refine ⟨left.opens_append _, ?_⟩
  intro readsBack
  obtain ⟨ofLeft, ofRight⟩ := readsBack_binary.mp readsBack
  obtain ⟨leftTokens, lexesLeft, readsLeft⟩ := left.tokens ofLeft
  obtain ⟨rightTokens, lexesRight, readsRight⟩ := right.tokens ofRight
  refine ⟨leftTokens ++ .operator operator :: rightTokens, ?_,
    readsLeft.joined associates readsRight⟩
  rw [String.toList_append, String.toList_append]
  exact lexesLeft.append separates lexesRight right.unstarred

theorem comparison (compares : operator.precedence = .comparison)
    (separates : Separates lexicon separator.toList [.operator operator])
    (left : Spells lexicon leftText .sum leftTree)
    (right : Spells lexicon rightText .sum rightTree) :
    Spells lexicon (leftText ++ (separator ++ rightText)) .comparison
      (.binary operator leftTree rightTree) := by
  refine ⟨(left.mono (by decide)).opens_append _, ?_⟩
  intro readsBack
  obtain ⟨ofLeft, ofRight⟩ := readsBack_binary.mp readsBack
  obtain ⟨leftTokens, lexesLeft, readsLeft⟩ := left.tokens ofLeft
  obtain ⟨rightTokens, lexesRight, readsRight⟩ := right.tokens ofRight
  refine ⟨leftTokens ++ .operator operator :: rightTokens, ?_,
    readsLeft.comparison compares readsRight⟩
  rw [String.toList_append, String.toList_append]
  exact lexesLeft.append separates lexesRight right.unstarred

theorem power (python : lexicon.python = true)
    (base : Spells lexicon leftText .atom leftTree)
    (exponent : Spells lexicon rightText .unary rightTree) :
    Spells lexicon (leftText ++ ("**" ++ rightText)) .power
      (.binary .pow leftTree rightTree) := by
  refine ⟨(base.mono (by decide)).opens_append _, ?_⟩
  intro readsBack
  obtain ⟨ofBase, ofExponent⟩ := readsBack_binary.mp readsBack
  obtain ⟨leftTokens, lexesLeft, readsLeft⟩ := base.tokens ofBase
  obtain ⟨rightTokens, lexesRight, readsRight⟩ := exponent.tokens ofExponent
  refine ⟨leftTokens ++ .operator .pow :: rightTokens, ?_, readsLeft.power readsRight⟩
  rw [String.toList_append, String.toList_append]
  exact lexesLeft.append (separates_toThe python) lexesRight exponent.unstarred

theorem negative (operand : Spells lexicon text .power tree) :
    Spells lexicon ("-" ++ text) .unary (.negative tree) := by
  obtain ⟨first, others, starts, _, signed⟩ := operand.opens
  have unsigned : first ≠ '-' := by
    intro sign
    exact absurd (signed sign) (by decide)
  refine ⟨⟨'-', text.toList, by rw [String.toList_append]; rfl, by decide, fun _ => by decide⟩,
    ?_⟩
  intro readsBack
  obtain ⟨tokens, lexes, reads⟩ := operand.tokens readsBack
  refine ⟨.operator .sub :: tokens, ?_, reads.lower_unary.negative⟩
  rw [starts] at lexes
  rw [String.toList_append, starts]
  exact lexes.negative ⟨first, others, rfl, unsigned⟩

theorem parenthesized (inner : Spells lexicon text .comparison tree) :
    Spells lexicon (Fragment.parenthesized text) .atom tree := by
  have characters : (Fragment.parenthesized text).toList = '(' :: (text.toList ++ [')']) := by
    simp [Fragment.parenthesized]
  refine ⟨⟨'(', _, characters, by decide, by decide⟩, ?_⟩
  intro readsBack
  obtain ⟨tokens, lexes, reads⟩ := inner.tokens readsBack
  refine ⟨_, ?_, reads.parenthesized⟩
  rw [characters]
  exact lexes.parenthesized

/-! ## Names and numbers -/

/-- The first character of a name is a letter or an underscore. -/
theorem opens_isName {python : Bool} {characters : List Char}
    (named : isName python characters = true) (following : List Char) :
    ∃ first others, characters ++ following = first :: others ∧ first ≠ '*' ∧ first ≠ '-' := by
  cases characters with
  | nil =>
      cases named
  | cons first others =>
      simp only [isName, Bool.and_eq_true] at named
      refine ⟨first, others ++ following, rfl, ?_, ?_⟩
      · rintro rfl
        exact absurd named.1 (by decide)
      · rintro rfl
        exact absurd named.1 (by decide)

theorem name {text : String} (named : isName lexicon.python text.toList = true) :
    Spells lexicon text .atom (.name text) := by
  obtain ⟨first, others, starts, unstarred, unsigned⟩ := opens_isName named []
  rw [List.append_nil] at starts
  refine ⟨⟨first, others, starts, unstarred, fun sign => absurd sign unsigned⟩, ?_⟩
  intro _
  refine ⟨[.name text], ?_, .name text⟩
  have lexes := Lexes.name named
  rwa [String.ofList_toList] at lexes

theorem element {array : String} (index : Nat)
    (named : isName lexicon.python array.toList = true) :
    Spells lexicon (array ++ "[" ++ Nat.repr index ++ "]") .atom (.element array index) := by
  have characters : (array ++ "[" ++ Nat.repr index ++ "]").toList =
      array.toList ++ '[' :: ((Nat.repr index).toList ++ [']']) := by
    simp
  obtain ⟨first, others, starts, unstarred, unsigned⟩ := opens_isName named _
  refine ⟨⟨first, others, characters.trans starts, unstarred, fun sign => absurd sign unsigned⟩,
    ?_⟩
  intro _
  refine ⟨_, ?_, .element array index⟩
  have lexes := (Lexes.integer index).bracketed.applied named (by decide)
  rw [characters]
  rwa [String.ofList_toList] at lexes

/-- The first character of a text of digits or of a numeral is a digit. -/
theorem opens_of_isDigit {first : Char} (digit : first.isDigit = true) :
    first ≠ '*' ∧ (first = '-' → level.level ≤ Precedence.unary.level) := by
  constructor
  · rintro rfl
    cases digit
  · rintro rfl
    cases digit

theorem integer (value : Nat) :
    Spells lexicon (Nat.repr value) .atom (.integer value) := by
  obtain ⟨first, others, starts⟩ :=
    List.exists_cons_of_ne_nil (Nat.toDigits_ne_nil : Nat.toDigits 10 value ≠ [])
  have member : first ∈ Nat.toDigits 10 value := by
    rw [starts]
    exact List.mem_cons_self
  have digit := Nat.isDigit_of_mem_toDigits (by decide) (by decide) member
  exact ⟨⟨first, others, Nat.toList_repr.trans starts, opens_of_isDigit digit⟩,
    fun _ => ⟨_, .integer value, .integer value⟩⟩

/-- A numeral is one token, which is the number that it is read as. -/
theorem numeral {value : Float} {mantissa exponent : List Char}
    (characters : text.toList = mantissa ++ exponent)
    (numeral : Decimal.Numeral mantissa exponent)
    (back : lexicon.ReadsBack (.decimal value) → lexicon.decimal? text = some value) :
    Spells lexicon text .atom (.decimal value) := by
  obtain ⟨first, others, starts, digit⟩ := numeral.starts
  refine ⟨⟨first, others ++ exponent, by rw [characters, starts]; rfl, opens_of_isDigit digit⟩,
    ?_⟩
  intro readsBack
  have read := back readsBack
  rw [← String.ofList_toList (s := text), characters] at read
  rw [characters]
  exact ⟨_, .decimal numeral read, .decimal value⟩

theorem quoted {quotation : String} (python : lexicon.python = true)
    (characters : text.toList = quotationMark :: (quotation.toList ++ [quotationMark]))
    (unmarked : quotationMark ∉ quotation.toList) :
    Spells lexicon text .atom (.quoted quotation) := by
  refine ⟨⟨quotationMark, _, characters, by decide, by decide⟩, ?_⟩
  intro _
  have lexes := Lexes.quoted python unmarked
  rw [String.ofList_toList, ← characters] at lexes
  exact ⟨_, lexes, .quoted quotation⟩

/-! ## Calls -/

/-- The texts spell the trees, one by one. -/
abbrev All (lexicon : Lexicon) : List String → List ParseTree → Prop :=
  List.Forall₂ fun text tree => Spells lexicon text .comparison tree

theorem All.arguments {texts : List String} {trees : List ParseTree}
    (each : All lexicon (text :: texts) trees) :
    (∃ first others, (String.intercalate ", " (text :: texts)).toList = first :: others ∧
      first ≠ '*') ∧
    ((∀ tree ∈ trees, lexicon.ReadsBack tree) →
      ∃ tokens, Lexes lexicon (String.intercalate ", " (text :: texts)).toList tokens ∧
        ReadsArguments tokens trees) := by
  induction texts generalizing text trees with
  | nil =>
      obtain ⟨tree, _, spells, ⟨⟩, rfl⟩ := List.forall₂_cons_left_iff.mp each
      rw [String.intercalate_singleton]
      refine ⟨spells.unstarred, ?_⟩
      intro readsBack
      obtain ⟨tokens, lexes, reads⟩ := spells.tokens (readsBack tree List.mem_cons_self)
      exact ⟨tokens, lexes, .single reads⟩
  | cons second texts inductionHypothesis =>
      obtain ⟨tree, others, spells, further, rfl⟩ := List.forall₂_cons_left_iff.mp each
      obtain ⟨unstarred, furtherTokens⟩ := inductionHypothesis further
      obtain ⟨first, following, starts, firstUnstarred⟩ := spells.unstarred
      rw [String.intercalate_cons_cons, String.append_assoc, String.toList_append,
        String.toList_append]
      refine ⟨⟨first, _, by rw [starts]; rfl, firstUnstarred⟩, ?_⟩
      intro readsBack
      rw [List.forall_mem_cons] at readsBack
      obtain ⟨tokens, lexes, reads⟩ := spells.tokens readsBack.1
      obtain ⟨furtherTokens, furtherLexes, furtherReads⟩ := furtherTokens readsBack.2
      refine ⟨tokens ++ .comma :: furtherTokens, ?_, .cons reads furtherReads⟩
      exact lexes.append separates_comma furtherLexes unstarred

theorem All.call {callee : String} {texts : List String} {trees : List ParseTree}
    (named : isName lexicon.python callee.toList = true) (each : All lexicon texts trees) :
    Spells lexicon (Fragment.callText callee texts) .atom (.call callee trees) := by
  have characters : (Fragment.callText callee texts).toList =
      callee.toList ++ '(' :: ((String.intercalate ", " texts).toList ++ [')']) := by
    simp [Fragment.callText, Fragment.parenthesized]
  have enclosed (readsBack : lexicon.ReadsBack (.call callee trees)) : ∃ tokens,
      Lexes lexicon ('(' :: ((String.intercalate ", " texts).toList ++ [')'])) tokens ∧
        ReadsAs .atom (.name callee :: tokens) (.call callee trees) := by
    cases texts with
    | nil =>
        obtain rfl := List.forall₂_nil_left_iff.mp each
        have empty : Lexes lexicon [] [] := fun _ _ _ tokenized => tokenized
        exact ⟨_, empty.parenthesized, .emptyCall callee⟩
    | cons first others =>
        obtain ⟨tokens, lexes, reads⟩ := each.arguments.2 (readsBack_call.mp readsBack)
        exact ⟨_, lexes.parenthesized, reads.call callee⟩
  obtain ⟨first, others, starts, unstarred, unsigned⟩ := opens_isName named _
  refine ⟨⟨first, others, characters.trans starts, unstarred, fun sign => absurd sign unsigned⟩,
    ?_⟩
  intro readsBack
  obtain ⟨tokens, lexes, reads⟩ := enclosed readsBack
  refine ⟨_, ?_, reads⟩
  have applied := lexes.applied named (by decide)
  rw [characters]
  rwa [String.ofList_toList] at applied

end Spells

/-! ## Fragments -/

/-- The text of the fragment reads, at its own level, as the tree. -/
def Fragment.ReadsAs (lexicon : Lexicon) (fragment : Fragment) (tree : ParseTree) : Prop :=
  Spells lexicon fragment.text fragment.precedence tree

namespace Fragment.ReadsAs

variable {lexicon : Lexicon} {fragment left right : Fragment} {operator : Operator}
  {tree leftTree rightTree : ParseTree} {separator text : String}

theorem whole (reads : fragment.ReadsAs lexicon tree) :
    Spells lexicon fragment.text .comparison tree :=
  Spells.mono (Precedence.comparison_le _) reads

/-- In parentheses where it does not bind tightly enough, a fragment is an operand of
the level. -/
theorem atLeast (reads : fragment.ReadsAs lexicon tree) (precedence : Precedence) :
    Spells lexicon (fragment.atLeast precedence) precedence tree := by
  rw [Fragment.atLeast]
  split
  · exact reads.whole.parenthesized.mono (Precedence.le_atom _)
  · next tight =>
      exact Spells.mono (Nat.not_lt.mp tight) reads

theorem above (reads : fragment.ReadsAs lexicon tree) (precedence : Precedence) :
    Spells lexicon (fragment.above precedence) precedence.next tree := by
  rw [Fragment.above]
  split
  · exact reads.whole.parenthesized.mono (Precedence.le_atom _)
  · next tight =>
      exact Spells.mono (Precedence.next_le (Nat.not_le.mp tight)).2 reads

/-! ### Joining fragments -/

theorem negation (reads : fragment.ReadsAs lexicon tree) :
    fragment.negation.ReadsAs lexicon (.negative tree) :=
  (reads.above .unary).negative

theorem power (python : lexicon.python = true) (base : left.ReadsAs lexicon leftTree)
    (exponent : right.ReadsAs lexicon rightTree) :
    (Python.power left right).ReadsAs lexicon (.binary .pow leftTree rightTree) := by
  have spells := (base.above .power).power python ((exponent.atLeast .power).mono (by decide))
  rwa [← String.append_assoc] at spells

theorem comparison (compares : operator.precedence = .comparison) {sign : String}
    (separates : Separates lexicon (" " ++ sign ++ " ").toList [.operator operator])
    (ofLeft : left.ReadsAs lexicon leftTree) (ofRight : right.ReadsAs lexicon rightTree) :
    (Fragment.comparison sign left right).ReadsAs lexicon
      (.binary operator leftTree rightTree) := by
  have spells := (ofLeft.above .comparison).comparison compares separates
    (ofRight.above .comparison)
  simpa only [Fragment.ReadsAs, Fragment.comparison, String.append_assoc] using spells

theorem quotient (separates : Separates lexicon separator.toList [.operator .div])
    (ofLeft : left.ReadsAs lexicon leftTree) (ofRight : right.ReadsAs lexicon rightTree) :
    (Fragment.quotient separator left right).ReadsAs lexicon
      (.binary .div leftTree rightTree) := by
  have numerator : Spells lexicon _ Operator.div.precedence leftTree :=
    ofLeft.atLeast .product
  have denominator : Spells lexicon _ Operator.div.precedence.next rightTree :=
    ofRight.above .product
  have spells := numerator.joined (Or.inr rfl) separates denominator
  rwa [← String.append_assoc] at spells

/-- Operands behind the first one are joined from the left. -/
theorem chain_others {fragments : List Fragment} {trees : List ParseTree}
    (associates : operator.precedence = .sum ∨ operator.precedence = .product)
    (separates : Separates lexicon separator.toList [.operator operator])
    (each : List.Forall₂ (Fragment.ReadsAs lexicon) fragments trees)
    (first : Spells lexicon text operator.precedence tree) :
    Spells lexicon
      (text ++ String.join
        (fragments.map fun other => separator ++ other.above operator.precedence))
      operator.precedence (trees.foldl (.binary operator) tree) := by
  induction each generalizing text tree with
  | nil =>
      simpa using first
  | cons reads _ inductionHypothesis =>
      have joined := first.joined associates separates (reads.above operator.precedence)
      rw [List.map_cons, String.join_cons, ← String.append_assoc]
      exact inductionHypothesis joined

theorem chain {fragments : List Fragment} {trees : List ParseTree}
    (associates : operator.precedence = .sum ∨ operator.precedence = .product)
    (separates : Separates lexicon separator.toList [.operator operator])
    (first : fragment.ReadsAs lexicon tree)
    (each : List.Forall₂ (Fragment.ReadsAs lexicon) fragments trees) :
    (Fragment.chain separator operator.precedence (fragment :: fragments)).ReadsAs lexicon
      (trees.foldl (.binary operator) tree) :=
  chain_others associates separates each (first.atLeast operator.precedence)

end Fragment.ReadsAs

/-- The operator in front of a term of a sum. -/
def Term.operator (term : Term) : Operator :=
  if term.subtracted then .sub else .add

theorem Spells.term {lexicon : Lexicon} {text : String} {tree termTree : ParseTree}
    (sum : Spells lexicon text .sum tree) (term : Term)
    (reads : term.fragment.ReadsAs lexicon termTree) :
    Spells lexicon (text ++ term.text) .sum (.binary term.operator tree termTree) := by
  have operand := reads.above .sum
  rw [Term.text, Term.operator]
  split
  · have separates : Separates lexicon " - ".toList [.operator .sub] :=
      separates_sign .sub (by decide)
    exact Spells.joined (Or.inl rfl) separates sum operand
  · have separates : Separates lexicon " + ".toList [.operator .add] :=
      separates_sign .add (by decide)
    exact Spells.joined (Or.inl rfl) separates sum operand

end LieScribe
