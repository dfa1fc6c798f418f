import LieScribe.Proofs.Sharing.Arrangement
import LieScribe.Proofs.Sharing.Walk
import Mathlib.Data.List.Nodup

/-!
# Well-formed programs

The temporaries of a program are numbered in order, each is an operation, and each reads
inputs and earlier temporaries only.  The walk that replaces repeated expressions keeps
this up: when a temporary is appended, its arguments were replaced already and mention
what is on the list.  Arranging the inputs changes no temporary.
-/

namespace LieScribe

/-- All symbols are leaves or among the first temporaries. -/
def Naming.Admits (naming : Naming) (leaves : List Symbol) (count : Nat) (expr : Expr) :
    Prop :=
  ∀ symbol ∈ expr.symbols,
    symbol ∈ leaves ∨ ∃ position < count, symbol = naming.temporary position

/-- A program that computes one temporary after the other from its leaves. -/
structure Program.WellFormed (naming : Naming) (leaves : List Symbol) (program : Program) :
    Prop where
  names : program.temporaries.map (·.symbol) =
    (List.range program.temporaries.length).map naming.temporary
  operations : ∀ temporary ∈ program.temporaries, temporary.definition.isAtom = false
  definitions : ∀ (position : Nat) (temporary : Temporary),
    program.temporaries[position]? = some temporary →
      naming.Admits leaves position temporary.definition
  outputs : ∀ output ∈ program.outputs,
    naming.Admits leaves program.temporaries.length output

variable {naming : Naming} {leaves inputs : List Symbol}

namespace Naming.Admits

theorem mono {fewer more : Nat} {expr : Expr} (admits : naming.Admits leaves fewer expr)
    (atMost : fewer ≤ more) : naming.Admits leaves more expr := by
  intro symbol mentioned
  refine (admits symbol mentioned).imp_right ?_
  rintro ⟨position, early, rfl⟩
  exact ⟨position, Nat.lt_of_lt_of_le early atMost, rfl⟩

theorem of_declared {count : Nat} {expr : Expr}
    (declared : ∀ symbol ∈ expr.symbols, symbol ∈ leaves) : naming.Admits leaves count expr :=
  fun symbol mentioned => .inl (declared symbol mentioned)

theorem op {count : Nat} (operation : Operation) {arguments : List Expr}
    (each : ∀ argument ∈ arguments, naming.Admits leaves count argument) :
    naming.Admits leaves count (.op operation arguments) := by
  intro symbol mentioned
  obtain ⟨argument, member, inArgument⟩ := Expr.mem_symbols_op.mp mentioned
  exact each argument member symbol inArgument

theorem temporary {count position : Nat} (early : position < count) :
    naming.Admits leaves count (.symbol (naming.temporary position)) := by
  intro symbol mentioned
  exact .inr ⟨position, early, Expr.mem_symbols_symbol.mp mentioned⟩

/-- Arranging the inputs turns them into leaves. -/
theorem arrange {count : Nat} {expr : Expr} (admits : naming.Admits inputs count expr)
    (distinct : inputs.Nodup) (free : ∀ position, naming.temporary position ∉ inputs) :
    naming.Admits (naming.leaves inputs) count
      (expr.substitute (naming.arrangement inputs)) := by
  have apart := renamesApart_arrangement distinct free
  intro symbol mentioned
  rw [Expr.symbols_substitute apart.renames] at mentioned
  obtain ⟨original, inExpr, rfl⟩ := List.mem_map.mp mentioned
  rcases admits original inExpr with declared | ⟨position, early, rfl⟩
  · exact .inl (leaf_mem_leaves declared)
  · exact .inr ⟨position, early, apart.fixed _ ⟨position, rfl⟩⟩

end Naming.Admits

/-! ## The walk -/

namespace Hoisted

/-- Each definition is an operation on leaves and earlier temporaries. -/
structure Ordered (naming : Naming) (leaves : List Symbol) (hoisted : List Hoisted) :
    Prop where
  operations : ∀ entry ∈ hoisted, entry.definition.isAtom = false
  definitions : ∀ (position : Nat) (entry : Hoisted), hoisted[position]? = some entry →
    naming.Admits leaves position entry.definition

theorem Ordered.concat {hoisted : List Hoisted} (ordered : Ordered naming leaves hoisted)
    (source : Expr) {definition : Expr} (operation : definition.isAtom = false)
    (admits : naming.Admits leaves hoisted.length definition) :
    Ordered naming leaves (hoisted ++ [⟨source, definition⟩]) where
  operations := List.forall_mem_append.mpr
    ⟨ordered.operations, List.forall_mem_singleton.mpr operation⟩
  definitions position entry found := by
    rcases Nat.lt_trichotomy position hoisted.length with early | rfl | late
    · rw [List.getElem?_append_left early] at found
      exact ordered.definitions position entry found
    · rw [List.getElem?_concat_length, Option.some.injEq] at found
      exact found ▸ admits
    · rw [List.getElem?_eq_none (by rw [List.length_append, List.length_singleton]; omega)]
        at found
      cases found

variable {repeated exprs replaced : List Expr} {before after : Progress}

theorem Walks.ordered (walks : Walks naming repeated exprs before after replaced)
    (declared : ∀ expr ∈ exprs, ∀ symbol ∈ expr.symbols, symbol ∈ leaves)
    (start : Ordered naming leaves before.hoisted) :
    Ordered naming leaves after.hoisted ∧
      ∀ replacement ∈ replaced, naming.Admits leaves after.hoisted.length replacement := by
  induction walks with
  | done progress =>
      exact ⟨start, fun _ => (nomatch ·)⟩
  | passed _ _ ofOthers =>
      rw [List.forall_mem_cons] at declared
      obtain ⟨ordered, admitted⟩ := ofOthers declared.2 start
      exact ⟨ordered, List.forall_mem_cons.mpr ⟨.of_declared declared.1, admitted⟩⟩
  | met _ _ known othersWalk ofOthers =>
      rw [List.forall_mem_cons] at declared
      obtain ⟨ordered, admitted⟩ := ofOthers declared.2 start
      obtain ⟨early, _, _⟩ := List.findIdx?_eq_some_iff_getElem.mp known
      have kept := Nat.lt_of_lt_of_le early othersWalk.hoisted_prefix.length_le
      exact ⟨ordered, List.forall_mem_cons.mpr ⟨.temporary kept, admitted⟩⟩
  | @entered operation _ _ _ _ _ _ _ _ _ _ _ _ places othersWalk ofArguments ofOthers =>
      rw [List.forall_mem_cons] at declared
      obtain ⟨middle, argumentsAdmitted⟩ := ofArguments
        (fun argument member symbol mentioned => declared.1 symbol
          (Expr.mem_symbols_op.mpr ⟨argument, member, mentioned⟩))
        start
      have definition := Naming.Admits.op operation argumentsAdmitted
      have longer := othersWalk.hoisted_prefix.length_le
      cases places with
      | stays _ =>
          obtain ⟨ordered, admitted⟩ := ofOthers declared.2 middle
          exact ⟨ordered, List.forall_mem_cons.mpr ⟨definition.mono longer, admitted⟩⟩
      | moves _ =>
          obtain ⟨ordered, admitted⟩ := ofOthers declared.2 (middle.concat _ rfl definition)
          rw [List.length_append, List.length_singleton] at longer
          exact ⟨ordered, List.forall_mem_cons.mpr ⟨.temporary longer, admitted⟩⟩

theorem getElem?_temporaries (hoisted : List Hoisted) (position : Nat) :
    (temporaries naming hoisted)[position]? =
      hoisted[position]?.map fun entry =>
        ⟨naming.temporary position, entry.definition⟩ := by
  simp [temporaries, Function.comp_def]

theorem map_definition_temporaries (naming : Naming) (hoisted : List Hoisted) :
    (temporaries naming hoisted).map (·.definition) = hoisted.map (·.definition) := by
  apply List.ext_getElem?
  intro position
  rw [List.getElem?_map, getElem?_temporaries, Option.map_map, List.getElem?_map]
  rfl

theorem map_symbol_temporaries (hoisted : List Hoisted) :
    (temporaries naming hoisted).map (·.symbol) =
      (List.range (temporaries naming hoisted).length).map naming.temporary := by
  apply List.ext_getElem?
  intro position
  rw [List.getElem?_map, getElem?_temporaries, List.getElem?_map]
  by_cases inside : position < hoisted.length
  · have listed : position < (temporaries naming hoisted).length := by
      simpa [temporaries] using inside
    rw [List.getElem?_eq_getElem inside, List.getElem?_range listed]
    rfl
  · have outside : (temporaries naming hoisted).length ≤ position := by
      simpa [temporaries] using inside
    rw [List.getElem?_eq_none (Nat.le_of_not_lt inside),
      List.getElem?_eq_none (by rwa [List.length_range])]
    rfl

end Hoisted

/-! ## Programs -/

namespace Program

variable {outputs : List Expr} {program : Program}

/-- Sharing makes a well-formed program, under the names that the inputs have. -/
theorem wellFormed_shared (naming : Naming)
    (declared : ∀ output ∈ outputs, ∀ symbol ∈ output.symbols, symbol ∈ inputs) :
    WellFormed naming inputs (shared naming outputs) := by
  have start : Hoisted.Ordered naming inputs [] :=
    ⟨fun _ => (nomatch ·), fun _ _ => nofun⟩
  obtain ⟨ordered, admitted⟩ := (Hoisted.walks_outputs naming outputs).1.ordered declared start
  refine ⟨Hoisted.map_symbol_temporaries _, ?_, ?_, ?_⟩
  · intro temporary member
    obtain ⟨position, found⟩ := List.mem_iff_getElem?.mp member
    rw [shared, Hoisted.getElem?_temporaries] at found
    obtain ⟨entry, isEntry, rfl⟩ := Option.map_eq_some_iff.mp found
    exact ordered.operations entry (List.mem_of_getElem? isEntry)
  · intro position temporary found
    rw [shared, Hoisted.getElem?_temporaries] at found
    obtain ⟨entry, isEntry, rfl⟩ := Option.map_eq_some_iff.mp found
    exact ordered.definitions position entry isEntry
  · intro output member
    have count : (shared naming outputs).temporaries.length =
        (Hoisted.replaceAll naming (Survey.repeatedIn outputs) outputs []).2.length := by
      simp [shared, Hoisted.temporaries]
    rw [count]
    exact admitted output member

theorem wellFormed_ofOutputs (naming : Naming)
    (declared : ∀ output ∈ outputs, ∀ symbol ∈ output.symbols, symbol ∈ inputs) :
    WellFormed naming inputs (ofOutputs outputs) where
  names := rfl
  operations _ := (nomatch ·)
  definitions _ _ := nofun
  outputs output member := .of_declared (declared output member)

/-- Arranging the inputs of a program keeps it well formed. -/
theorem WellFormed.arrange (wellFormed : WellFormed naming inputs program)
    (distinct : inputs.Nodup) (free : ∀ position, naming.temporary position ∉ inputs) :
    WellFormed naming (naming.leaves inputs)
      (program.substitute (naming.arrangement inputs)) := by
  have renames := (Naming.renamesApart_arrangement distinct free).renames
  refine ⟨?_, ?_, ?_, ?_⟩
  · simpa [substitute, Function.comp_def] using wellFormed.names
  · simp only [substitute, List.forall_mem_map]
    intro temporary member
    rw [Expr.isAtom_substitute renames]
    exact wellFormed.operations temporary member
  · intro position temporary found
    simp only [substitute, List.getElem?_map] at found
    obtain ⟨original, isOriginal, rfl⟩ := Option.map_eq_some_iff.mp found
    exact (wellFormed.definitions position original isOriginal).arrange distinct free
  · simp only [substitute, List.forall_mem_map, List.length_map]
    intro output member
    exact (wellFormed.outputs output member).arrange distinct free

theorem WellFormed.nodup_symbols (wellFormed : WellFormed naming leaves program) :
    (program.temporaries.map (·.symbol)).Nodup := by
  rw [wellFormed.names]
  exact List.Nodup.map (fun _ _ => Naming.temporary_injective) List.nodup_range

theorem WellFormed.isTemporary (wellFormed : WellFormed naming leaves program) :
    ∀ temporary ∈ program.temporaries, naming.IsTemporary temporary.symbol := by
  intro temporary member
  have listed := List.mem_map_of_mem (f := Temporary.symbol) member
  rw [wellFormed.names] at listed
  obtain ⟨position, _, named⟩ := List.mem_map.mp listed
  exact ⟨position, named.symm⟩

/-- What an expression of a well-formed program mentions is bound when it is evaluated. -/
theorem WellFormed.mem_scope (wellFormed : program.WellFormed naming leaves) {count : Nat}
    (atMost : count ≤ program.temporaries.length) {expr : Expr}
    (admits : naming.Admits leaves count expr) :
    ∀ symbol ∈ expr.symbols,
      symbol ∈ leaves ++ (program.temporaries.take count).map Temporary.symbol := by
  intro symbol mentioned
  rw [List.mem_append]
  refine (admits symbol mentioned).imp_right ?_
  rintro ⟨position, early, rfl⟩
  rw [List.map_take, wellFormed.names, ← List.map_take, List.take_range]
  exact List.mem_map_of_mem (List.mem_range.mpr (by omega))

/-- A well-formed program reads its leaves and its temporaries and nothing else. -/
theorem WellFormed.mem_leaves_or_temporaries (wellFormed : WellFormed naming leaves program) :
    ∀ expr ∈ program.exprs, ∀ symbol ∈ expr.symbols,
      symbol ∈ leaves ∨ symbol ∈ program.temporaries.map (·.symbol) := by
  have admitted {count : Nat} (atMost : count ≤ program.temporaries.length) {expr : Expr}
      (admits : naming.Admits leaves count expr) {symbol : Symbol}
      (mentioned : symbol ∈ expr.symbols) :
      symbol ∈ leaves ∨ symbol ∈ program.temporaries.map (·.symbol) := by
    refine (List.mem_append.mp (wellFormed.mem_scope atMost admits symbol mentioned)).imp_right ?_
    rw [List.map_take]
    exact List.mem_of_mem_take
  refine List.forall_mem_append.mpr ⟨List.forall_mem_map.mpr fun temporary member => ?_, ?_⟩
  · obtain ⟨position, found⟩ := List.mem_iff_getElem?.mp member
    have inside := (List.getElem?_eq_some_iff.mp found).1
    have admits := wellFormed.definitions position temporary found
    exact fun symbol => admitted (Nat.le_of_lt inside) admits
  · exact fun output member symbol => admitted (Nat.le_refl _) (wellFormed.outputs output member)

/-! ## Accepted requests -/

/-- Every accepted request is shared by a well-formed program with an output for each one
asked for, whose temporaries are numbered in order and named unlike each other and
unlike the inputs. -/
theorem wellFormed_of_share (accepted : share naming inputs outputs = .ok program) :
    program.outputs.length = outputs.length ∧
      program.WellFormed naming (naming.leaves inputs) ∧
        (program.temporaries.map (·.symbol)).Nodup ∧
          ∀ temporary ∈ program.temporaries, temporary.symbol ∉ inputs := by
  obtain ⟨checked, rfl⟩ := share_eq_ok_iff_substitute.mp accepted
  obtain ⟨distinct, free, declared⟩ := Naming.declares_of_checkRequest checked
  have wellFormed := (wellFormed_shared naming declared).arrange distinct free
  refine ⟨?_, wellFormed, wellFormed.nodup_symbols, ?_⟩
  · rw [substitute, List.length_map]
    exact (Hoisted.walks_outputs naming outputs).1.length_eq
  · intro temporary member
    have listed : temporary.symbol ∈ _ := List.mem_map_of_mem (f := (·.symbol)) member
    rw [wellFormed.names] at listed
    obtain ⟨position, _, named⟩ := List.mem_map.mp listed
    exact named ▸ free position

/-- A product with its own sine, where one input is an element of the array that will
hold the inputs, at another place, and one has the name of that array. -/
def dampedProduct : List Expr :=
  let product := Expr.element "b" 1 * Expr.named "b"
  let wave := Expr.sin product
  [product * wave, wave / product]

theorem wellFormed_share_dampedProduct :
    ∃ program,
      share ⟨true, "b", "b"⟩ [.named "b", .named "x", .element "b" 1] dampedProduct =
          .ok program ∧
        program.temporaries.map (·.symbol) = [.named "b0", .named "b1"] ∧
          program.WellFormed ⟨true, "b", "b"⟩
            [.element "b" 0, .element "b" 1, .element "b" 2] := by
  have accepted :
      share ⟨true, "b", "b"⟩ [.named "b", .named "x", .element "b" 1] dampedProduct =
        .ok ((shared ⟨true, "b", "b"⟩ dampedProduct).linearize
          [.named "b", .named "x", .element "b" 1] "b") := rfl
  exact ⟨_, accepted, rfl, (wellFormed_of_share accepted).2.1⟩

end Program

end LieScribe
