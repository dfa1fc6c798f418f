import LieScribe.Proofs.Reading.Lexicon

/-!
# Texts that are cut into given tokens

`Lexes lexicon text tokens` says that a text gives the tokens in front of all
characters that end a number or name.  Such texts are put together: with a separator
between them, in parentheses or brackets, behind a name or a sign.
-/

namespace LieScribe.Lexicon

variable {lexicon : Lexicon}

/-! ## Runs of characters -/

section Runs

variable {property : Char → Bool} {run rest : List Char}

theorem takeWhile_run (inside : ∀ character ∈ run, property character = true)
    (stops : ∀ first others, rest = first :: others → property first = false) :
    (run ++ rest).takeWhile property = run := by
  rw [List.takeWhile_append_of_pos inside]
  cases rest with
  | nil =>
      simp
  | cons first others =>
      simp [stops first others rfl]

theorem dropWhile_run (inside : ∀ character ∈ run, property character = true)
    (stops : ∀ first others, rest = first :: others → property first = false) :
    (run ++ rest).dropWhile property = rest := by
  rw [List.dropWhile_append_of_pos inside]
  cases rest with
  | nil =>
      rfl
  | cons first others =>
      simp [stops first others rfl]

end Runs

/-! ## Cutting off one token -/

@[simp]
theorem tokenize?_blank (rest : List Char) :
    lexicon.tokenize? (' ' :: rest) = lexicon.tokenize? rest := by
  rw [tokenize?]

theorem scan?_blank (rest : List Char) : lexicon.scan? (' ' :: rest) = none := rfl

theorem tokenize?_of_scan? {text rest : List Char} {token : Token}
    (nonempty : text ≠ [])
    (scanned : lexicon.scan? (text ++ rest) = some (token, rest)) :
    lexicon.tokenize? (text ++ rest) = (lexicon.tokenize? rest).map (token :: ·) := by
  obtain ⟨first, others, rfl⟩ := List.exists_cons_of_ne_nil nonempty
  obtain ⟨shorter, advanced⟩ :
      ∃ shorter, advance (first :: (others ++ rest)) (some (token, rest)) =
        some (token, ⟨rest, shorter⟩) :=
    advance_append token rest nonempty
  rw [List.cons_append] at scanned ⊢
  have unblank : first = ' ' → False := by
    rintro rfl
    rw [scan?_blank] at scanned
    cases scanned
  rw [tokenize?.eq_3 _ _ _ unblank, scanned, advanced, Option.map_eq_bind]
  rfl

theorem tokenize?_of_symbol? {first : Char} {others rest : List Char} {token : Token}
    (symbol : isNameStart first = false ∧ first.isDigit = false ∧ first ≠ quotationMark)
    (shown : lexicon.symbol? first (others ++ rest) = some (token, rest)) :
    lexicon.tokenize? (first :: (others ++ rest)) =
      (lexicon.tokenize? rest).map (token :: ·) := by
  have scanned : lexicon.scan? ((first :: others) ++ rest) = some (token, rest) := by
    simp only [List.cons_append, scan?, symbol.1, symbol.2.1, symbol.2.2, shown]
    rfl
  exact tokenize?_of_scan? (by simp) scanned

/-- A mark that is a token on its own, whatever follows it. -/
theorem tokenize?_of_mark {mark : Char} {token : Token}
    (symbol : isNameStart mark = false ∧ mark.isDigit = false ∧ mark ≠ quotationMark)
    (shown : ∀ rest, lexicon.symbol? mark rest = some (token, rest)) (rest : List Char) :
    lexicon.tokenize? (mark :: rest) = (lexicon.tokenize? rest).map (token :: ·) := by
  have alone : lexicon.symbol? mark ([] ++ rest) = some (token, rest) := shown rest
  exact tokenize?_of_symbol? symbol alone

/-! ## Texts and their tokens -/

/-- Every number and name ends in front of such characters. -/
def Delimited : List Char → Prop
  | [] => True
  | first :: _ => first ∈ [' ', ')', ']', ',', '*', '/']

/-- The text is cut into the tokens, whatever delimited characters follow it. -/
def Lexes (lexicon : Lexicon) (text : List Char) (tokens : List Token) : Prop :=
  ∀ rest following, Delimited rest → lexicon.tokenize? rest = some following →
    lexicon.tokenize? (text ++ rest) = some (tokens ++ following)

/-- Characters between two operands, of which the second one does not start with an
asterisk, stand for the tokens. -/
structure Separates (lexicon : Lexicon) (separator : List Char) (tokens : List Token) :
    Prop where
  delimits : ∀ rest, Delimited (separator ++ rest)
  tokenized : ∀ first rest, first ≠ '*' →
    lexicon.tokenize? (separator ++ first :: rest) =
      (lexicon.tokenize? (first :: rest)).map (tokens ++ ·)

theorem Lexes.of_scan? {text : List Char} {token : Token} (nonempty : text ≠ [])
    (scanned : ∀ rest, Delimited rest →
      lexicon.scan? (text ++ rest) = some (token, rest)) :
    Lexes lexicon text [token] := by
  intro rest following delimited tokenized
  rw [tokenize?_of_scan? nonempty (scanned rest delimited), tokenized]
  rfl

theorem Lexes.append {left separator right : List Char}
    {leftTokens middle rightTokens : List Token}
    (lexesLeft : Lexes lexicon left leftTokens)
    (separates : Separates lexicon separator middle)
    (lexesRight : Lexes lexicon right rightTokens)
    (unstarred : ∃ first others, right = first :: others ∧ first ≠ '*') :
    Lexes lexicon (left ++ (separator ++ right)) (leftTokens ++ (middle ++ rightTokens)) := by
  intro rest following delimited tokenized
  have right_tokenized := lexesRight rest following delimited tokenized
  obtain ⟨first, others, rfl, unstarred⟩ := unstarred
  have middle_tokenized :
      lexicon.tokenize? (separator ++ (first :: others ++ rest)) =
        some (middle ++ (rightTokens ++ following)) := by
    rw [List.cons_append] at right_tokenized ⊢
    rw [separates.tokenized first _ unstarred, right_tokenized]
    rfl
  have whole := lexesLeft _ _ (separates.delimits _) middle_tokenized
  simpa only [List.append_assoc] using whole

/-! ### Separators -/

theorem separates_spaced {token : Token} (mark : Char) (others : List Char)
    (symbol : isNameStart mark = false ∧ mark.isDigit = false ∧ mark ≠ quotationMark)
    (shown : ∀ rest, lexicon.symbol? mark (others ++ ' ' :: rest) = some (token, ' ' :: rest)) :
    Separates lexicon (' ' :: mark :: (others ++ [' '])) [token] where
  delimits rest := List.mem_cons_self
  tokenized first rest _ := by
    have spaced : ' ' :: mark :: (others ++ [' ']) ++ first :: rest =
        ' ' :: mark :: (others ++ ' ' :: first :: rest) := by
      simp
    rw [spaced, tokenize?_blank, tokenize?_of_symbol? symbol (shown _), tokenize?_blank]
    rfl

theorem separates_sign (operator : Operator) (spelled : operator ≠ .pow) :
    Separates lexicon (" " ++ operator.sign ++ " ").toList [.operator operator] := by
  cases operator with
  | add =>
      exact separates_spaced '+' [] (by decide) fun _ => rfl
  | sub =>
      exact separates_spaced '-' [] (by decide) fun _ => rfl
  | mul =>
      exact separates_spaced '*' [] (by decide) fun _ => rfl
  | div =>
      exact separates_spaced '/' [] (by decide) fun _ => rfl
  | pow =>
      exact absurd rfl spelled
  | lt =>
      exact separates_spaced '<' [] (by decide) fun _ => rfl
  | le =>
      exact separates_spaced '<' ['='] (by decide) fun _ => rfl
  | gt =>
      exact separates_spaced '>' [] (by decide) fun _ => rfl
  | ge =>
      exact separates_spaced '>' ['='] (by decide) fun _ => rfl

theorem separates_comma : Separates lexicon [',', ' '] [.comma] where
  delimits rest := by simp [Delimited]
  tokenized first rest _ := by
    have cut : lexicon.tokenize? (',' :: ' ' :: first :: rest) =
        (lexicon.tokenize? (' ' :: first :: rest)).map (.comma :: ·) :=
      tokenize?_of_mark (by decide) (fun _ => rfl) _
    rw [tokenize?_blank] at cut
    exact cut

theorem separates_times : Separates lexicon ['*'] [.operator .mul] where
  delimits rest := by simp [Delimited]
  tokenized first rest unstarred := by
    have shown : lexicon.symbol? '*' ([] ++ first :: rest) =
        some (.operator .mul, first :: rest) := by
      rw [List.nil_append, symbol?]
      intro others starred
      exact unstarred (List.cons.inj starred).1
    exact tokenize?_of_symbol? (by decide) shown

theorem separates_over : Separates lexicon ['/'] [.operator .div] where
  delimits rest := by simp [Delimited]
  tokenized first rest _ := tokenize?_of_mark (by decide) (fun _ => rfl) _

theorem separates_toThe (python : lexicon.python = true) :
    Separates lexicon ['*', '*'] [.operator .pow] where
  delimits rest := by simp [Delimited]
  tokenized first rest _ := by
    have shown : lexicon.symbol? '*' (['*'] ++ first :: rest) =
        some (.operator .pow, first :: rest) := by
      simp [symbol?, python]
    exact tokenize?_of_symbol? (by decide) shown

/-! ### Signs, parentheses and calls -/

theorem Lexes.enclosed {text : List Char} {tokens : List Token}
    {openingMark closingMark : Char} {before after : Token}
    (opens : ∀ rest, lexicon.tokenize? (openingMark :: rest) =
      (lexicon.tokenize? rest).map (before :: ·))
    (closes : ∀ rest, lexicon.tokenize? (closingMark :: rest) =
      (lexicon.tokenize? rest).map (after :: ·))
    (delimits : closingMark ∈ [' ', ')', ']', ',', '*', '/'])
    (lexes : Lexes lexicon text tokens) :
    Lexes lexicon (openingMark :: (text ++ [closingMark]))
      (before :: (tokens ++ [after])) := by
  intro rest following _ tokenized
  have closed : lexicon.tokenize? (closingMark :: rest) = some (after :: following) := by
    rw [closes, tokenized]
    rfl
  have inner := lexes (closingMark :: rest) _ delimits closed
  rw [List.cons_append, List.append_assoc, List.singleton_append, opens, inner]
  simp

theorem Lexes.parenthesized {text : List Char} {tokens : List Token}
    (lexes : Lexes lexicon text tokens) :
    Lexes lexicon ('(' :: (text ++ [')'])) (.opening :: (tokens ++ [.closing])) := by
  apply lexes.enclosed
  · exact tokenize?_of_mark (by decide) (fun _ => rfl)
  · exact tokenize?_of_mark (by decide) (fun _ => rfl)
  · decide

theorem Lexes.bracketed {text : List Char} {tokens : List Token}
    (lexes : Lexes lexicon text tokens) :
    Lexes lexicon ('[' :: (text ++ [']']))
      (.openingBracket :: (tokens ++ [.closingBracket])) := by
  apply lexes.enclosed
  · exact tokenize?_of_mark (by decide) (fun _ => rfl)
  · exact tokenize?_of_mark (by decide) (fun _ => rfl)
  · decide

theorem Lexes.negative {text : List Char} {tokens : List Token}
    (lexes : Lexes lexicon text tokens)
    (unsigned : ∃ first others, text = first :: others ∧ first ≠ '-') :
    Lexes lexicon ('-' :: text) (.operator .sub :: tokens) := by
  intro rest following delimited tokenized
  have operand := lexes rest following delimited tokenized
  obtain ⟨first, others, rfl, unsigned⟩ := unsigned
  have shown : lexicon.symbol? '-' ([] ++ (first :: others ++ rest)) =
      some (.operator .sub, first :: others ++ rest) := by
    rw [List.nil_append, List.cons_append, symbol?]
    intro others signed
    exact unsigned (List.cons.inj signed).1
  have cut := tokenize?_of_symbol? (by decide) shown
  rw [operand] at cut
  exact cut

/-! ### Names -/

/-- Every name ends in front of such characters. -/
def EndsName : List Char → Prop
  | [] => True
  | first :: _ => first ∈ ['(', '[', ' ', ')', ']', ',', '*', '/']

theorem takeName_endsName {rest : List Char} (python : Bool) (ends : EndsName rest) :
    takeName python rest = ([], rest) := by
  cases rest with
  | nil =>
      rfl
  | cons first others =>
      simp only [EndsName, List.mem_cons, List.not_mem_nil, or_false] at ends
      rcases ends with rfl | rfl | rfl | rfl | rfl | rfl | rfl | rfl <;>
        cases python <;> rfl

theorem takeName_cons_of_isNamePart {python : Bool} {character : Char}
    (part : isNamePart python character = true) (rest : List Char) :
    takeName python (character :: rest) =
      (character :: (takeName python rest).1, (takeName python rest).2) := by
  have different : ∀ others, character = '<' →
      rest = 'S' :: 'c' :: 'a' :: 'l' :: 'a' :: 'r' :: '>' :: others → False := by
    rintro _ rfl _
    cases python <;> cases part
  rw [takeName.eq_2 _ _ _ different, if_pos part]

theorem takeName_append {python : Bool} {text rest : List Char}
    (whole : takeName python text = (text, [])) (ends : EndsName rest) :
    takeName python (text ++ rest) = (text, rest) := by
  fun_induction takeName python text with
  | case1 others isPython =>
      cases whole
  | case2 others isCpp name remaining taken inductionHypothesis =>
      have inner : (name, remaining) = (others, []) := by simpa using whole
      simp only [List.cons_append]
      rw [takeName.eq_1, if_neg isCpp, inductionHypothesis (taken.trans inner)]
  | case3 character others _ part name remaining taken inductionHypothesis =>
      have inner : (name, remaining) = (others, []) := by simpa using whole
      rw [List.cons_append, takeName_cons_of_isNamePart part,
        inductionHypothesis (taken.trans inner)]
  | case4 =>
      cases whole
  | case5 =>
      exact takeName_endsName python ends

theorem takeName_of_identifierParts (python : Bool) {text : List Char}
    (parts : text.all isIdentifierPart = true) :
    takeName python text = (text, []) := by
  induction text with
  | nil =>
      rfl
  | cons first others inductionHypothesis =>
      simp only [List.all_cons, Bool.and_eq_true] at parts
      have part : isNamePart python first = true := by
        simp [isNamePart, parts.1]
      rw [takeName_cons_of_isNamePart part, inductionHypothesis parts.2]

theorem isName_of_isIdentifier (python : Bool) {text : String}
    (identifier : isIdentifier text = true) :
    isName python text.toList = true := by
  unfold isIdentifier at identifier
  split at identifier
  · cases identifier
  · next first others characters =>
      simp only [Bool.and_eq_true] at identifier
      have part : isIdentifierPart first = true := by
        have start := identifier.1
        simp only [isNameStart, Bool.or_eq_true] at start
        rcases start with alpha | underscore
        · simp [isIdentifierPart, Char.isAlphanum, alpha]
        · simp [isIdentifierPart, underscore]
      have taken : takeName python (first :: others) = (first :: others, []) :=
        takeName_of_identifierParts python (by simp [part, identifier.2])
      rw [characters]
      simp [isName, identifier.1, taken]

theorem isDigit_eq_false_of_isNameStart {character : Char}
    (start : isNameStart character = true) :
    character.isDigit = false := by
  simp only [isNameStart, Bool.or_eq_true, beq_iff_eq] at start
  rcases start with alpha | rfl
  · have letter : 65 ≤ character.val := by
      have cased : (character.isUpper || character.isLower) = true := alpha
      rcases (Bool.or_eq_true _ _).mp cased with upper | lower
      · exact (of_decide_eq_true upper).1
      · have lowercase : 97 ≤ character.val :=
          of_decide_eq_true (Bool.and_eq_true_iff.mp lower).1
        exact UInt32.le_trans (by decide) lowercase
    have beyond : ¬ character.val ≤ 57 := by
      intro digit
      exact absurd (UInt32.le_trans letter digit) (by decide)
    rw [Char.isDigit, Bool.and_eq_false_iff]
    exact Or.inr (decide_eq_false beyond)
  · rfl

theorem scan?_of_isName {text rest : List Char}
    (named : isName lexicon.python text = true) (ends : EndsName rest) :
    lexicon.scan? (text ++ rest) = some (.name (String.ofList text), rest) := by
  cases text with
  | nil =>
      cases named
  | cons first others =>
      simp only [isName, Bool.and_eq_true, beq_iff_eq] at named
      have taken := takeName_append named.2 ends
      rw [List.cons_append] at taken ⊢
      simp [scan?, isDigit_eq_false_of_isNameStart named.1, named.1, taken]

theorem ne_nil_of_isName {python : Bool} {text : List Char}
    (named : isName python text = true) : text ≠ [] := by
  rintro rfl
  cases named

theorem Lexes.name {text : List Char} (named : isName lexicon.python text = true) :
    Lexes lexicon text [.name (String.ofList text)] := by
  apply Lexes.of_scan? (ne_nil_of_isName named)
  intro rest delimited
  apply scan?_of_isName named
  cases rest with
  | nil =>
      trivial
  | cons first others =>
      exact List.mem_cons_of_mem _ (List.mem_cons_of_mem _ delimited)

/-- A name in front of an enclosed text, as in calls and subscripts. -/
theorem Lexes.applied {text : List Char} {mark : Char} {others : List Char}
    {tokens : List Token} (named : isName lexicon.python text = true)
    (marked : mark ∈ ['(', '[']) (lexes : Lexes lexicon (mark :: others) tokens) :
    Lexes lexicon (text ++ mark :: others) (.name (String.ofList text) :: tokens) := by
  intro rest following delimited tokenized
  have ends : EndsName (mark :: others ++ rest) := by
    simp only [List.mem_cons, List.not_mem_nil, or_false] at marked
    rcases marked with rfl | rfl <;> simp [EndsName]
  have scanned := scan?_of_isName named ends
  rw [List.append_assoc, tokenize?_of_scan? (ne_nil_of_isName named) scanned,
    lexes rest following delimited tokenized]
  rfl

/-! ### Quoted texts -/

theorem Lexes.quoted {text : List Char} (python : lexicon.python = true)
    (unmarked : quotationMark ∉ text) :
    Lexes lexicon (quotationMark :: (text ++ [quotationMark]))
      [.quoted (String.ofList text)] := by
  have inside : ∀ character ∈ text, (character != quotationMark) = true := by
    intro character member
    rw [bne_iff_ne]
    rintro rfl
    exact unmarked member
  apply Lexes.of_scan? (by simp)
  intro rest _
  have stops : ∀ first others, quotationMark :: rest = first :: others →
      (first != quotationMark) = false := by
    rintro first others starts
    rw [← (List.cons.inj starts).1]
    rfl
  have taken := takeWhile_run inside stops
  have left := dropWhile_run inside stops
  have scanned : lexicon.quoted? (text ++ quotationMark :: rest) =
      some (.quoted (String.ofList text), rest) := by
    simp only [quoted?, python, taken, left]
  simpa [scan?, show quotationMark.isDigit = false by decide,
    show isNameStart quotationMark = false by decide] using scanned

end LieScribe.Lexicon
