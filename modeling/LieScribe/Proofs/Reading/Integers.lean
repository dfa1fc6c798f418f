import LieScribe.Proofs.Reading.Lexicon

/-!
# Integers of tokens and of trees

Reading takes every integer of a text into the tree, once and in order.  An index in brackets is
part of an element and no integer of its own.
-/

namespace LieScribe

namespace ParseTree

mutual

/-- The integers of a tree, from left to right. -/
def integers : ParseTree → List Nat
  | .name _ => []
  | .element _ _ => []
  | .integer value => [value]
  | .decimal _ => []
  | .quoted _ => []
  | .negative operand => operand.integers
  | .binary _ left right => left.integers ++ right.integers
  | .call _ arguments => integersOf arguments

def integersOf : List ParseTree → List Nat
  | [] => []
  | tree :: others => tree.integers ++ integersOf others

end

theorem integersOf_eq_flatMap (trees : List ParseTree) :
    integersOf trees = trees.flatMap integers := by
  induction trees with
  | nil =>
      rfl
  | cons tree others inductionHypothesis =>
      rw [integersOf, inductionHypothesis, List.flatMap_cons]

end ParseTree

namespace Token

/-- The integers among tokens, without the indices in brackets. -/
def integers : List Token → List Nat
  | .openingBracket :: .integer _ :: .closingBracket :: others => integers others
  | .integer value :: others => value :: integers others
  | _ :: others => integers others
  | [] => []

end Token

theorem eq_some_of_advance {α β : Type} {items : List α} {result? : Option (β × List α)}
    {result : β} {rest : { rest : List α // rest.length < items.length }}
    (advanced : advance items result? = some (result, rest)) :
    result? = some (result, rest.val) := by
  rw [advance.eq_def] at advanced
  split at advanced
  · split at advanced
    · cases advanced
      rfl
    · cases advanced
  · cases advanced

namespace Grammar

/-- What is read has the integers of the tokens that were taken for it. -/
theorem integers_of_read :
    (∀ level tokens tree rest, read level tokens = some (tree, rest) →
      Token.integers tokens = tree.integers ++ Token.integers rest) ∧
    (∀ tokens trees rest, readArguments tokens = some (trees, rest) →
      Token.integers tokens = ParseTree.integersOf trees ++ Token.integers rest) ∧
    (∀ level left tokens tree rest, goOn level left tokens = some (tree, rest) →
      left.integers ++ Token.integers tokens = tree.integers ++ Token.integers rest) := by
  have walk := read.mutual_induct
    (fun level tokens => ∀ tree rest, read level tokens = some (tree, rest) →
      Token.integers tokens = tree.integers ++ Token.integers rest)
    (fun tokens => ∀ trees rest, readArguments tokens = some (trees, rest) →
      Token.integers tokens = ParseTree.integersOf trees ++ Token.integers rest)
    (fun level left tokens => ∀ tree rest, goOn level left tokens = some (tree, rest) →
      left.integers ++ Token.integers tokens = tree.integers ++ Token.integers rest)
  refine walk ?comparison ?sum ?product ?signed ?unsigned ?power ?integer ?decimal ?quoted
    ?parenthesized ?element ?emptyCall ?call ?name ?nothing ?arguments ?joined ?looser ?ends
  case comparison =>
    intro tokens ofLeft ofRight tree rest found
    rw [read] at found
    obtain ⟨⟨left, behind, shorter⟩, advanced, further⟩ := Option.bind_eq_some_iff.mp found
    rw [ofLeft left behind (eq_some_of_advance advanced)]
    dsimp only at further
    split at further
    · next operator others isShorter =>
        split at further
        · obtain ⟨⟨right, remaining⟩, second, joined⟩ := Option.bind_eq_some_iff.mp further
          cases joined
          rw [ParseTree.integers, List.append_assoc, ← ofRight _ _ isShorter right remaining second]
          rfl
        · cases further
          rfl
    · cases further
      rfl
  case sum | product =>
    intro tokens ofFirst ofOthers tree rest found
    rw [read] at found
    obtain ⟨⟨first, behind, shorter⟩, advanced, further⟩ := Option.bind_eq_some_iff.mp found
    rw [ofFirst first behind (eq_some_of_advance advanced)]
    exact ofOthers first behind shorter tree rest further
  case signed =>
    intro others ofOperand tree rest found
    rw [read] at found
    obtain ⟨⟨operand, remaining⟩, isOperand, changed⟩ := Option.bind_eq_some_iff.mp found
    cases changed
    exact ofOperand operand rest isOperand
  case unsigned =>
    intro tokens isUnsigned ofPower tree rest found
    rw [read.eq_5 _ isUnsigned] at found
    exact ofPower tree rest found
  case power =>
    intro tokens ofBase ofExponent tree rest found
    rw [read] at found
    obtain ⟨⟨base, behind, shorter⟩, advanced, further⟩ := Option.bind_eq_some_iff.mp found
    rw [ofBase base behind (eq_some_of_advance advanced)]
    dsimp only at further
    split at further
    · next others isShorter =>
        obtain ⟨⟨exponent, remaining⟩, second, joined⟩ := Option.bind_eq_some_iff.mp further
        cases joined
        rw [ParseTree.integers, List.append_assoc,
          ← ofExponent _ isShorter exponent remaining second]
        rfl
    · cases further
      rfl
  case integer | decimal | quoted =>
    intro value others tree rest found
    rw [read] at found
    cases found
    rfl
  case parenthesized =>
    intro others ofInner tree rest found
    rw [read] at found
    obtain ⟨inner, isInner, closed⟩ := Option.bind_eq_some_iff.mp found
    split at closed
    · cases closed
      exact ofInner tree (.closing :: rest) isInner
    · cases closed
  case element =>
    intro array index others tree rest found
    rw [read] at found
    cases found
    rfl
  case emptyCall =>
    intro callee others tree rest found
    rw [read] at found
    cases found
    rfl
  case call =>
    intro callee others notClosed ofArguments tree rest found
    rw [read.eq_13 _ _ notClosed] at found
    obtain ⟨⟨arguments, remaining⟩, areArguments, called⟩ := Option.bind_eq_some_iff.mp found
    cases called
    exact ofArguments arguments rest areArguments
  case name =>
    intro text others notElement notEmptyCall notCall tree rest found
    rw [read.eq_14 _ _ notElement notEmptyCall notCall] at found
    cases found
    rfl
  case nothing =>
    intro tokens notInteger notDecimal notQuoted notOpening notElement notEmptyCall notCall notName
      tree rest found
    rw [read.eq_15 _ notInteger notDecimal notQuoted notOpening notElement notEmptyCall notCall
      notName] at found
    cases found
  case arguments =>
    intro tokens ofFirst ofOthers trees rest found
    rw [readArguments] at found
    obtain ⟨⟨first, behind, shorter⟩, advanced, further⟩ := Option.bind_eq_some_iff.mp found
    rw [ofFirst first behind (eq_some_of_advance advanced)]
    dsimp only at further
    split at further
    · next others isShorter =>
        obtain ⟨⟨others, remaining⟩, areOthers, joined⟩ := Option.bind_eq_some_iff.mp further
        cases joined
        rw [ParseTree.integersOf, List.append_assoc, ← ofOthers _ isShorter _ _ areOthers]
        rfl
    · cases further
      rw [ParseTree.integersOf, ParseTree.integersOf, List.append_nil]
      rfl
    · cases further
  case joined =>
    intro left operator others ofRight ofOthers tree rest found
    rw [goOn, if_pos rfl] at found
    obtain ⟨⟨right, behind, shorter⟩, advanced, further⟩ := Option.bind_eq_some_iff.mp found
    have joined := ofOthers right behind shorter tree rest further
    rw [ParseTree.integers, List.append_assoc,
      ← ofRight right behind (eq_some_of_advance advanced)] at joined
    exact joined
  case looser =>
    intro level left operator others different tree rest found
    rw [goOn, if_neg different] at found
    cases found
    rfl
  case ends =>
    intro level left others notOperator tree rest found
    rw [goOn.eq_2 _ _ _ notOperator] at found
    cases found
    rfl

/-- A text that is read as a whole has the integers of its tree. -/
theorem integers_of_readAll {tokens : List Token} {tree : ParseTree}
    (whole : readAll tokens = some tree) : Token.integers tokens = tree.integers := by
  rw [readAll] at whole
  split at whole
  · next found =>
      cases whole
      rw [integers_of_read.1 _ _ _ _ found, Token.integers, List.append_nil]
  · cases whole

end Grammar

/-! ## Texts -/

namespace Token

/-- The token with the given number in place of its own, if it is a decimal. -/
def withDecimal (number : Float) : Token → Token
  | .decimal _ => .decimal number
  | token => token

theorem withDecimal_eq_iff {number : Float} {token other : Token}
    (noDecimal : ∀ value, other ≠ .decimal value) :
    token.withDecimal number = other ↔ token = other := by
  cases token with
  | decimal value =>
      exact iff_of_false (noDecimal number).symm (noDecimal value).symm
  | _ =>
      rfl

theorem integers_map_withDecimal (number : Float) (tokens : List Token) :
    integers (tokens.map (withDecimal number)) = integers tokens := by
  fun_induction integers tokens with
  | case1 index others inductionHypothesis =>
      exact inductionHypothesis
  | case2 value others inductionHypothesis =>
      exact congrArg (value :: ·) inductionHypothesis
  | case3 token others notIndex notInteger inductionHypothesis =>
      rw [List.map_cons, integers.eq_3 _ _ ?noIndex ?noInteger, inductionHypothesis]
      case noIndex =>
        intro value following isBracket isIndex
        rw [withDecimal_eq_iff (by simp)] at isBracket
        obtain ⟨first, rest, rfl, isInteger, ends⟩ := List.map_eq_cons_iff.mp isIndex
        obtain ⟨second, rest, rfl, isClosing, _⟩ := List.map_eq_cons_iff.mp ends
        rw [withDecimal_eq_iff (by simp)] at isInteger isClosing
        exact notIndex value rest isBracket (by rw [isInteger, isClosing])
      case noInteger =>
        intro value isInteger
        exact notInteger value ((withDecimal_eq_iff (by simp)).mp isInteger)
  | case4 =>
      rfl

end Token

namespace Lexicon

/-- The words of a language, where every decimal is read as the same number. -/
def uniform (python : Bool) (number : Float) : Lexicon :=
  ⟨python, fun _ => some number⟩

theorem number?_uniform {lexicon : Lexicon} {text : List Char} {token : Token} (number : Float)
    (found : lexicon.number? text = some token) :
    (uniform lexicon.python number).number? text = some (token.withDecimal number) := by
  rw [number?] at found ⊢
  split at found
  · next digits =>
      cases found
      rw [if_pos digits]
      rfl
  · next notDigits =>
      obtain ⟨value, _, rfl⟩ := Option.map_eq_some_iff.mp found
      rw [if_neg notDigits]
      rfl

theorem quoted?_uniform {lexicon : Lexicon} {characters remaining : List Char} {token : Token}
    (number : Float) (scanned : lexicon.quoted? characters = some (token, remaining)) :
    (uniform lexicon.python number).quoted? characters =
      some (token.withDecimal number, remaining) := by
  have alike : (uniform lexicon.python number).quoted? characters = lexicon.quoted? characters :=
    rfl
  rw [alike, scanned]
  rw [quoted?] at scanned
  split at scanned
  · cases scanned
    rfl
  · cases scanned

theorem symbol?_uniform {lexicon : Lexicon} {first : Char} {rest remaining : List Char}
    {token : Token} (number : Float)
    (scanned : lexicon.symbol? first rest = some (token, remaining)) :
    (uniform lexicon.python number).symbol? first rest =
      some (token.withDecimal number, remaining) := by
  have alike : (uniform lexicon.python number).symbol? first rest = lexicon.symbol? first rest := by
    rw [symbol?.eq_def, symbol?.eq_def, uniform]
  rw [alike, scanned]
  rw [symbol?.eq_def] at scanned
  -- No symbol is a decimal.
  split at scanned
  any_goals
    cases scanned
    rfl
  · split at scanned <;> cases scanned
    rfl
  · split at scanned <;> cases scanned
    rfl
  · cases scanned

theorem scan?_uniform {lexicon : Lexicon} {characters remaining : List Char} {token : Token}
    (number : Float) (scanned : lexicon.scan? characters = some (token, remaining)) :
    (uniform lexicon.python number).scan? characters =
      some (token.withDecimal number, remaining) := by
  cases characters with
  | nil =>
      cases scanned
  | cons first rest =>
      rw [scan?] at scanned ⊢
      split at scanned
      · next digit =>
          rw [if_pos digit]
          generalize takeNumber (first :: rest) = taken at scanned ⊢
          obtain ⟨numeral, isNumeral, split⟩ := Option.map_eq_some_iff.mp scanned
          cases split
          exact congrArg (Option.map (·, taken.2)) (number?_uniform number isNumeral)
      · next noDigit =>
          rw [if_neg noDigit]
          split at scanned
          · next isName =>
              rw [if_pos isName]
              cases scanned
              rfl
          · next noName =>
              rw [if_neg noName]
              split at scanned
              · next quotation =>
                  rw [if_pos quotation]
                  exact quoted?_uniform number scanned
              · next unquoted =>
                  rw [if_neg unquoted]
                  exact symbol?_uniform number scanned

/-- A text that is cut into tokens is cut into the same ones however its decimals are read. -/
theorem tokenize?_uniform {lexicon : Lexicon} {characters : List Char} {tokens : List Token}
    (number : Float) (cut : lexicon.tokenize? characters = some tokens) :
    (uniform lexicon.python number).tokenize? characters =
      some (tokens.map (Token.withDecimal number)) := by
  fun_induction lexicon.tokenize? characters generalizing tokens with
  | case1 => 
      cases cut
      rw [tokenize?]
      rfl
  | case2 rest inductionHypothesis => 
      rw [tokenize?]
      exact inductionHypothesis cut
  | case3 first rest notSpace inductionHypothesis =>
      obtain ⟨⟨token, remaining, shorter⟩, advanced, further⟩ := Option.bind_eq_some_iff.mp cut
      obtain ⟨others, ofOthers, joined⟩ := Option.bind_eq_some_iff.mp further
      cases joined
      have scanned := scan?_uniform number (eq_some_of_advance advanced)
      rw [tokenize?.eq_3 _ _ _ notSpace, scanned, advance, dif_pos shorter]
      simp only [Option.bind_eq_bind, Option.bind_some,
        inductionHypothesis remaining shorter ofOthers]
      rfl

/-- A text that is read when all decimals are read alike has the integers of its tree,
however its decimals are read. -/
theorem integers_of_read? {python : Bool} {number : Float} {text : String} {tree : ParseTree}
    (read : (uniform python number).read? text = some tree) :
    (∃ tokens, (uniform python number).tokenize? text.toList = some tokens) ∧
      ∀ decimal? tokens, tokenize? ⟨python, decimal?⟩ text.toList = some tokens →
        Token.integers tokens = tree.integers := by
  obtain ⟨tokens, cut, whole⟩ := Option.bind_eq_some_iff.mp read
  refine ⟨⟨tokens, cut⟩, fun decimal? others otherCut => ?_⟩
  have alike : some (others.map (Token.withDecimal number)) = some tokens :=
    (tokenize?_uniform number otherCut).symm.trans cut
  rw [← Token.integers_map_withDecimal number others, Option.some.inj alike,
    Grammar.integers_of_readAll whole]

end Lexicon

end LieScribe
