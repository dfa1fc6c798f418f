import LieScribe.Proofs.Reading.Literals

/-!
# Operations read as their trees

If the arguments of an operation read as their trees, the text of the operation reads
as the tree of the operation.  Each way of combining operands is one case, for Python
and for C++.
-/

namespace LieScribe

open Lexicon

/-- A written operand that reads as the tree of its source. -/
structure Operand.ReadsAs (target : Target) (lexicon : Lexicon) (operand : Operand)
    (argument : TreeOperand) : Prop where
  source : argument.source = operand.source
  integer : operand.fragment.integer = target.isInteger operand.source
  fragment : operand.fragment.ReadsAs lexicon argument.tree

variable {target : Target} {lexicon : Lexicon} {operands : List Operand}
  {arguments : List TreeOperand} {operand left right : Operand}
  {argument leftArgument rightArgument : TreeOperand} {operation : Operation}
  {fragment : Fragment}

/-! ## Operands -/

theorem Operand.ReadsAs.fragments
    (each : List.Forall₂ (Operand.ReadsAs target lexicon) operands arguments) :
    List.Forall₂ (Fragment.ReadsAs lexicon) (operands.map (·.fragment))
      (arguments.map (·.tree)) := by
  rw [List.forall₂_map_left_iff, List.forall₂_map_right_iff]
  exact each.imp fun _ _ reads => reads.fragment

theorem Operand.ReadsAs.texts
    (each : List.Forall₂ (Operand.ReadsAs target lexicon) operands arguments) :
    Spells.All lexicon (operands.map (·.fragment.text)) (arguments.map (·.tree)) := by
  rw [Spells.All, List.forall₂_map_left_iff, List.forall₂_map_right_iff]
  exact each.imp fun _ _ reads => reads.fragment.whole

theorem Operand.ReadsAs.chain {separator : String}
    (first : operand.ReadsAs target lexicon argument) (operator : Operator)
    (associates : operator.precedence = .sum ∨ operator.precedence = .product)
    (separates : Separates lexicon separator.toList [.operator operator])
    (each : List.Forall₂ (Operand.ReadsAs target lexicon) operands arguments) :
    (Fragment.chain separator operator.precedence
        ((operand :: operands).map (·.fragment))).ReadsAs lexicon
      ((arguments.map (·.tree)).foldl (.binary operator) argument.tree) :=
  Fragment.ReadsAs.chain associates separates first.fragment (fragments each)

/-- The sign of a comparison is that of its operator. -/
theorem Operation.comparison?_of_comparisonSign? {sign : String}
    (found : operation.comparisonSign? = some sign) :
    ∃ operator, operation.comparison? = some operator ∧ operator.sign = sign ∧
      operator.precedence = .comparison := by
  cases operation with
  | lt | le | gt | ge =>
      cases found
      exact ⟨_, rfl, rfl, rfl⟩
  | _ =>
      cases found

theorem Operand.ReadsAs.comparison {operator : Operator}
    (compares : operator.precedence = .comparison)
    (ofLeft : left.ReadsAs target lexicon leftArgument)
    (ofRight : right.ReadsAs target lexicon rightArgument) :
    (Fragment.comparison operator.sign left.fragment right.fragment).ReadsAs lexicon
      (.binary operator leftArgument.tree rightArgument.tree) := by
  have spelled : operator ≠ .pow := by
    rintro rfl
    cases compares
  exact Fragment.ReadsAs.comparison compares (separates_sign operator spelled)
    ofLeft.fragment ofRight.fragment

/-! ## Python -/

namespace Python

theorem combineTree_comparison {floors : Bool} {operator : Operator}
    (found : operation.comparison? = some operator) :
    combineTree target floors operation [leftArgument, rightArgument] =
      .binary operator leftArgument.tree rightArgument.tree := by
  cases operation with
  | lt | le | gt | ge =>
      cases found
      rfl
  | _ =>
      cases found

/-- An operation that is written as a call has that call as its tree. -/
theorem combineTree_call {floors keepsInteger : Bool} {callee : String}
    (found : callee? operation = some (callee, keepsInteger))
    (arguments : List TreeOperand) :
    combineTree target floors operation arguments =
        .call callee (arguments.map (·.tree)) ∧
      isName true callee.toList = true := by
  cases operation with
  | add | sub | mul | div | pow | neg | lt | le | gt | ge | function =>
      cases found
  | _ =>
      cases found
      exact ⟨rfl, rfl⟩

theorem spells_conversion (python : lexicon.python = true) {text : String}
    {tree : ParseTree} (spells : Spells lexicon text .comparison tree) :
    Spells lexicon ("float" ++ Fragment.parenthesized text) .atom (.call "float" [tree]) := by
  have named : isName lexicon.python "float".toList = true := by
    rw [python]
    rfl
  have called := Spells.All.call named (.cons spells .nil)
  rwa [Fragment.callText, String.intercalate_singleton] at called

theorem readsAs_floatNumerator (python : lexicon.python = true)
    (reads : operand.ReadsAs target lexicon argument) :
    (floatNumerator operand).ReadsAs lexicon (floatTree argument) := by
  have converted := spells_conversion python reads.fragment.whole
  rw [floatNumerator, Operand.intLiteral?, floatTree, reads.source]
  cases operand.source with
  | literal constant =>
      cases constant with
      | int value =>
          exact readsAs_literal python _
      | float value =>
          exact converted
  | _ =>
      exact converted

theorem readsAs_quotient (python : lexicon.python = true) (floors : Bool)
    (ofLeft : left.ReadsAs target lexicon leftArgument)
    (ofRight : right.ReadsAs target lexicon rightArgument) :
    (quotient floors left right).ReadsAs lexicon
      (combineTree target floors .div [leftArgument, rightArgument]) := by
  have separates : Separates lexicon "/".toList [.operator .div] := separates_over
  rw [quotient, combineTree, ofLeft.integer, ofRight.integer, ofLeft.source, ofRight.source]
  split
  · exact Fragment.ReadsAs.quotient separates (readsAs_floatNumerator python ofLeft)
      ofRight.fragment
  · exact Fragment.ReadsAs.quotient separates ofLeft.fragment ofRight.fragment

theorem readsAs_combineTree (python : lexicon.python = true) {floors : Bool}
    (accepted : operation.arity.accepts operands.length = true)
    (each : List.Forall₂ (Operand.ReadsAs target lexicon) operands arguments)
    (combined : combine? floors operation operands = some fragment) :
    fragment.ReadsAs lexicon (combineTree target floors operation arguments) := by
  cases combines_of_combine? combined with
  | difference =>
      cases each with
      | nil =>
          cases accepted
      | cons first others =>
          exact first.chain .sub (Or.inl rfl) (separates_sign .sub (by decide)) others
  | product =>
      cases each with
      | nil =>
          cases accepted
      | cons first others =>
          exact first.chain .mul (Or.inr rfl) separates_times others
  | quotient =>
      obtain _ | ⟨ofNumerator, _ | ⟨ofDenominator, _ | _⟩⟩ := each
      exact readsAs_quotient python floors ofNumerator ofDenominator
  | power =>
      obtain _ | ⟨ofBase, _ | ⟨ofExponent, _ | _⟩⟩ := each
      exact ofBase.fragment.power python ofExponent.fragment
  | negation =>
      obtain _ | ⟨ofOperand, _ | _⟩ := each
      exact ofOperand.fragment.negation
  | comparison _ _ found =>
      obtain _ | ⟨ofLeft, _ | ⟨ofRight, _ | _⟩⟩ := each
      obtain ⟨operator, isOperator, rfl, compares⟩ :=
        Operation.comparison?_of_comparisonSign? found
      rw [combineTree_comparison isOperator]
      exact ofLeft.comparison compares ofRight
  | call _ found =>
      obtain ⟨tree, named⟩ := combineTree_call found arguments
      rw [tree]
      refine Spells.All.call (by rwa [python]) ?_
      rw [List.map_map]
      exact Operand.ReadsAs.texts each

end Python

/-! ## C++ -/

namespace Cpp

theorem combineTree_comparison {operator : Operator}
    (found : operation.comparison? = some operator) :
    combineTree target operation [leftArgument, rightArgument] =
      .call "Scalar" [.binary operator leftArgument.tree rightArgument.tree] := by
  cases operation with
  | lt | le | gt | ge =>
      cases found
      rfl
  | _ =>
      cases found

theorem combineTree_call {callee : String} (found : callee? operation = some callee)
    (arguments : List TreeOperand) :
    combineTree target operation arguments = .call callee (arguments.map (·.tree)) ∧
      isName false callee.toList = true := by
  cases operation with
  | add | sub | mul | div | pow | neg | sign | min | max | lt | le | gt | ge | function =>
      cases found
  | _ =>
      cases found
      exact ⟨rfl, rfl⟩

theorem spells_scalarArgument (cpp : lexicon.python = false)
    (reads : operand.ReadsAs target lexicon argument) :
    Spells lexicon (scalarArgument operand) .comparison (scalarTree argument) := by
  rw [scalarArgument, Operand.intLiteral?, scalarTree, reads.source]
  cases operand.source with
  | literal constant =>
      cases constant with
      | int value =>
          have number : Spells lexicon (Literal.int value).text .comparison
              (.ofInt value.toInt) := (Spells.int value).mono (Precedence.comparison_le _)
          exact (spells_scalar cpp number).mono (by decide)
      | float value =>
          exact reads.fragment.whole
  | _ =>
      exact reads.fragment.whole

theorem spells_pair (cpp : lexicon.python = false) {callee text : String} {tree : ParseTree}
    (named : isName false callee.toList = true)
    (first : Spells lexicon text .comparison tree)
    (second : operand.ReadsAs target lexicon argument) :
    Spells lexicon (Fragment.callText callee [text, scalarArgument operand]) .atom
      (.call callee [tree, scalarTree argument]) := by
  rw [← cpp] at named
  exact Spells.All.call named (.cons first (.cons (spells_scalarArgument cpp second) .nil))

/-- Further arguments are folded into nested calls from the left. -/
theorem spells_foldl (cpp : lexicon.python = false) {callee text : String} {tree : ParseTree}
    (named : isName false callee.toList = true)
    (each : List.Forall₂ (Operand.ReadsAs target lexicon) operands arguments)
    (spells : Spells lexicon text .atom tree) :
    Spells lexicon
      ((operands.map scalarArgument).foldl
        (fun joined argument => Fragment.callText callee [joined, argument]) text)
      .atom
      ((arguments.map scalarTree).foldl (fun inner argument => .call callee [inner, argument])
        tree) := by
  induction each generalizing text tree with
  | nil =>
      exact spells
  | cons reads _ inductionHypothesis =>
      exact inductionHypothesis (spells_pair cpp named (spells.mono (by decide)) reads)

theorem readsAs_foldedCall (cpp : lexicon.python = false) {callee : String}
    (named : isName false callee.toList = true)
    (first : left.ReadsAs target lexicon leftArgument)
    (second : right.ReadsAs target lexicon rightArgument)
    (others : List.Forall₂ (Operand.ReadsAs target lexicon) operands arguments) :
    (foldedCall callee (left :: right :: operands)).ReadsAs lexicon
      (nestedCall callee leftArgument (rightArgument :: arguments)) := by
  have innermost := spells_pair cpp named (spells_scalarArgument cpp first) second
  exact (spells_foldl cpp named others innermost :)

theorem readsAs_quotient (cpp : lexicon.python = false)
    (ofLeft : left.ReadsAs target lexicon leftArgument)
    (ofRight : right.ReadsAs target lexicon rightArgument) :
    (quotient left.fragment right.fragment).ReadsAs lexicon
      (combineTree target .div [leftArgument, rightArgument]) := by
  have separates : Separates lexicon " / ".toList [.operator .div] :=
    separates_sign .div (by decide)
  rw [quotient, combineTree, ofLeft.integer, ofRight.integer, ofLeft.source, ofRight.source]
  split
  · have converted : (Fragment.atom (scalar left.fragment.text)).ReadsAs lexicon
        (.call "Scalar" [leftArgument.tree]) := spells_scalar cpp ofLeft.fragment.whole
    exact Fragment.ReadsAs.quotient separates converted ofRight.fragment
  · exact Fragment.ReadsAs.quotient separates ofLeft.fragment ofRight.fragment

/-- The sign is a difference of two comparisons with zero. -/
theorem spells_signText (cpp : lexicon.python = false) {text : String} {tree : ParseTree}
    (spells : Spells lexicon text .comparison tree) :
    Spells lexicon (signText text) .atom
      (.call "Scalar"
        [.binary .sub (.binary .gt tree (.integer 0)) (.binary .lt tree (.integer 0))]) := by
  have side : Spells lexicon (Fragment.parenthesized text) .sum tree :=
    spells.parenthesized.mono (by decide)
  have zero : Spells lexicon "0" .sum (.integer 0) := (Spells.integer 0).mono (by decide)
  have greater : Spells lexicon (Fragment.parenthesized text ++ " > 0") .comparison
      (.binary .gt tree (.integer 0)) :=
    Spells.comparison rfl (separates_sign .gt (by decide)) side zero
  have less : Spells lexicon (Fragment.parenthesized text ++ " < 0") .comparison
      (.binary .lt tree (.integer 0)) :=
    Spells.comparison rfl (separates_sign .lt (by decide)) side zero
  have separates : Separates lexicon " - ".toList [.operator .sub] :=
    separates_sign .sub (by decide)
  have difference := Spells.joined (Or.inl rfl) separates
    (greater.parenthesized.mono (by decide)) (less.parenthesized.mono (by decide))
  rw [← String.append_assoc] at difference
  exact spells_scalar cpp (difference.mono (by decide))

theorem readsAs_combineTree (cpp : lexicon.python = false)
    (accepted : operation.arity.accepts operands.length = true)
    (each : List.Forall₂ (Operand.ReadsAs target lexicon) operands arguments)
    (combined : combine? operation operands = some fragment) :
    fragment.ReadsAs lexicon (combineTree target operation arguments) := by
  cases combines_of_combine? combined with
  | difference =>
      cases each with
      | nil =>
          cases accepted
      | cons first others =>
          exact first.chain .sub (Or.inl rfl) (separates_sign .sub (by decide)) others
  | product =>
      cases each with
      | nil =>
          cases accepted
      | cons first others =>
          exact first.chain .mul (Or.inr rfl) (separates_sign .mul (by decide)) others
  | quotient =>
      obtain _ | ⟨ofNumerator, _ | ⟨ofDenominator, _ | _⟩⟩ := each
      exact readsAs_quotient cpp ofNumerator ofDenominator
  | power =>
      obtain _ | ⟨ofBase, _ | ⟨ofExponent, _ | _⟩⟩ := each
      exact spells_pair cpp rfl (spells_scalarArgument cpp ofBase) ofExponent
  | negation =>
      obtain _ | ⟨ofOperand, _ | _⟩ := each
      exact ofOperand.fragment.negation
  | sign =>
      obtain _ | ⟨ofOperand, _ | _⟩ := each
      exact spells_signText cpp ofOperand.fragment.whole
  | minimum =>
      obtain _ | ⟨first, _ | ⟨second, others⟩⟩ := each
      · cases accepted
      · cases accepted
      · exact readsAs_foldedCall cpp rfl first second others
  | maximum =>
      obtain _ | ⟨first, _ | ⟨second, others⟩⟩ := each
      · cases accepted
      · cases accepted
      · exact readsAs_foldedCall cpp rfl first second others
  | comparison _ _ found =>
      obtain _ | ⟨ofLeft, _ | ⟨ofRight, _ | _⟩⟩ := each
      obtain ⟨operator, isOperator, rfl, compares⟩ :=
        Operation.comparison?_of_comparisonSign? found
      rw [combineTree_comparison isOperator]
      exact spells_scalar cpp (ofLeft.comparison compares ofRight).whole
  | call _ found =>
      obtain ⟨tree, named⟩ := combineTree_call found arguments
      rw [tree]
      exact Spells.All.call (by rwa [cpp]) (Operand.ReadsAs.texts each)

end Cpp

end LieScribe
