import LieScribe.Proofs.Integers
import LieScribe.Proofs.Listing.Texts
import LieScribe.Proofs.Python.Values
import LieScribe.Proofs.Reading.RoundTrip

/-!
# Listings as scripts

A listing for the older dialect of Python assigns the temporaries of a program in order
and then computes its outputs.  Temporaries hold floats: a text that is marked as an
integer is converted.  The texts of such a listing read back as the script of its
program.
-/

namespace LieScribe

open Python

/-! ## Scripts -/

/-- What a temporary is set to. -/
def Python.definitionTree (definition : Expr) : ParseTree :=
  if Target.python2.isInteger definition then
    .call "float" [Target.python2.tree definition]
  else
    Target.python2.tree definition

/-- The script of a program in the older dialect. -/
def Program.script (program : Program) : Script where
  assignments := program.temporaries.map fun temporary =>
    (temporary.symbol, definitionTree temporary.definition)
  results := program.outputs.map Target.python2.tree

def Python.Script.trees (script : Script) : List ParseTree :=
  script.assignments.map Prod.snd ++ script.results

def ParseTree.symbol? : ParseTree → Option Symbol
  | .name text => some (.named text)
  | .element array index => some (.element array index)
  | _ => none

theorem ParseTree.symbol?_ofSymbol (symbol : Symbol) :
    (ParseTree.ofSymbol symbol).symbol? = some symbol := by
  cases symbol <;> rfl

namespace Lexicon

def readAll? (lexicon : Lexicon) : List String → Option (List ParseTree)
  | [] => some []
  | text :: others => do
      let tree ← lexicon.read? text
      let trees ← lexicon.readAll? others
      some (tree :: trees)

def readAssignments? (lexicon : Lexicon) :
    List (String × String) → Option (List (Symbol × ParseTree))
  | [] => some []
  | (name, text) :: others => do
      let assigned ← lexicon.read? name
      let symbol ← assigned.symbol?
      let tree ← lexicon.read? text
      let assignments ← lexicon.readAssignments? others
      some ((symbol, tree) :: assignments)

end Lexicon

def Listing.script? (lexicon : Lexicon) (listing : Listing) : Option Script := do
  let assignments ← lexicon.readAssignments? listing.temporaries
  let results ← lexicon.readAll? listing.outputs
  some ⟨assignments, results⟩

/-! ## Reading -/

namespace Listing

variable {lexicon : Lexicon}

theorem read?_temporaryText (python : lexicon.python = true) {definition : Expr} {text : String}
    (written : temporaryText .python2 definition = .ok text)
    (identifiers : definition.UsesIdentifiers)
    (readsBack : lexicon.ReadsBack (definitionTree definition)) :
    lexicon.read? text = some (definitionTree definition) := by
  obtain ⟨fragment, ofFragment, pureText⟩ := Outcome.bind_eq_ok_iff.mp written
  have spells := (Target.readsAs_write python ofFragment identifiers).whole
  rw [Target.integer_write ofFragment] at pureText
  rw [definitionTree] at readsBack ⊢
  cases marked : Target.python2.isInteger definition with
  | false =>
      simp only [marked, Bool.and_false, Bool.false_eq_true, if_false] at pureText readsBack ⊢
      obtain rfl := Outcome.pure_eq_ok_iff.mp pureText
      exact spells.read? readsBack
  | true =>
      simp only [marked, decide_true, Bool.and_true, if_true] at pureText readsBack ⊢
      obtain rfl := Outcome.pure_eq_ok_iff.mp pureText
      exact ((Python.spells_conversion python spells).mono (by decide)).read? readsBack

theorem readAssignments?_temporaryTexts (python : lexicon.python = true)
    {temporaries : List Temporary} {texts : List (String × String)}
    (accepted : temporaryTexts .python2 temporaries = .ok texts)
    (identifiers : ∀ temporary ∈ temporaries, isIdentifier temporary.symbol.baseName = true ∧
      temporary.definition.UsesIdentifiers)
    (readsBack : ∀ temporary ∈ temporaries,
      lexicon.ReadsBack (definitionTree temporary.definition)) :
    lexicon.readAssignments? texts =
      some (temporaries.map fun temporary =>
        (temporary.symbol, definitionTree temporary.definition)) := by
  induction temporaries generalizing texts with
  | nil =>
      cases accepted
      rfl
  | cons temporary others inductionHypothesis =>
      obtain ⟨text, further, ofFirst, ofOthers, rfl⟩ :=
        temporaryTexts_cons_eq_ok_iff.mp accepted
      rw [List.forall_mem_cons] at identifiers readsBack
      have spells : Spells lexicon temporary.symbol.text .atom _ := .symbol identifiers.1.1
      have name := (spells.mono (by decide)).read? (by cases temporary.symbol <;> exact nofun)
      rw [Lexicon.readAssignments?, name,
        read?_temporaryText python ofFirst identifiers.1.2 readsBack.1,
        inductionHypothesis ofOthers identifiers.2 readsBack.2, Option.bind_eq_bind,
        Option.bind_some, ParseTree.symbol?_ofSymbol]
      rfl

theorem readAll?_outputTexts (python : lexicon.python = true) {outputs : List Expr}
    {texts : List String} (accepted : outputTexts .python2 outputs = .ok texts)
    (identifiers : ∀ output ∈ outputs, output.UsesIdentifiers)
    (readsBack : ∀ output ∈ outputs, lexicon.ReadsBack (Target.python2.tree output)) :
    lexicon.readAll? texts = some (outputs.map Target.python2.tree) := by
  induction outputs generalizing texts with
  | nil =>
      cases accepted
      rfl
  | cons output others inductionHypothesis =>
      obtain ⟨text, further, ofFirst, ofOthers, rfl⟩ := outputTexts_cons_eq_ok_iff.mp accepted
      rw [List.forall_mem_cons] at identifiers readsBack
      rw [Lexicon.readAll?,
        Target.read?_of_render python ofFirst identifiers.1 readsBack.1,
        inductionHypothesis ofOthers identifiers.2 readsBack.2]
      rfl

end Listing

theorem Naming.isIdentifier_temporary {naming : Naming}
    (stem : isIdentifier naming.stem = true) (position : Nat) :
    isIdentifier (naming.temporary position).baseName = true := by
  have digits : ((Nat.repr position).toList).all isIdentifierPart = true := by
    rw [Nat.toList_repr, List.all_eq_true]
    intro character member
    have digit := Nat.isDigit_of_mem_toDigits (by decide) (by decide) member
    simp [isIdentifierPart, Char.isAlphanum, digit]
  rw [temporary, Symbol.baseName, isIdentifier, String.toList_append]
  rw [isIdentifier] at stem
  cases characters : naming.stem.toList with
  | nil =>
      rw [characters] at stem
      cases stem
  | cons first others =>
      simp only [characters, Bool.and_eq_true] at stem
      simp only [List.cons_append, List.all_append, stem.1, stem.2, digits, Bool.and_self]

namespace Listing

variable {lexicon : Lexicon} {program : Program} {listing : Listing}

/-- A written program reads back as its script. -/
theorem script?_ofProgram (python : lexicon.python = true) {naming : Naming}
    {leaves : List Symbol} (wellFormed : program.WellFormed naming leaves)
    (written : ofProgram .python2 program = .ok listing)
    (leafNames : ∀ symbol ∈ leaves, isIdentifier symbol.baseName = true)
    (stem : isIdentifier naming.stem = true)
    (readsBack : ∀ tree ∈ program.script.trees, lexicon.ReadsBack tree) :
    listing.script? lexicon = some program.script := by
  obtain ⟨temporaries, outputs, ofTemporaries, ofOutputs, rfl⟩ := ofProgram_eq_ok_iff.mp written
  have admitted {count : Nat} {expr : Expr} (admits : naming.Admits leaves count expr) :
      expr.UsesIdentifiers := by
    intro symbol mentioned
    rcases admits symbol mentioned with leaf | ⟨position, _, rfl⟩
    · exact leafNames symbol leaf
    · exact Naming.isIdentifier_temporary stem position
  have identifiers : ∀ temporary ∈ program.temporaries,
      isIdentifier temporary.symbol.baseName = true ∧
        temporary.definition.UsesIdentifiers := by
    intro temporary member
    have listed := List.mem_map_of_mem (f := Temporary.symbol) member
    rw [wellFormed.names] at listed
    obtain ⟨_, _, named⟩ := List.mem_map.mp listed
    obtain ⟨position, found⟩ := List.mem_iff_getElem?.mp member
    exact ⟨named ▸ Naming.isIdentifier_temporary stem _,
      admitted (wellFormed.definitions position temporary found)⟩
  rw [Script.trees, List.forall_mem_append, Program.script, List.forall_mem_map,
    List.forall_mem_map, List.forall_mem_map] at readsBack
  rw [script?, readAssignments?_temporaryTexts python ofTemporaries identifiers readsBack.1,
    readAll?_outputTexts python ofOutputs
      (fun output member => admitted (wellFormed.outputs output member)) readsBack.2]
  rfl

end Listing

end LieScribe
