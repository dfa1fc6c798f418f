import LieScribe.Proofs.Applications
import LieScribe.Proofs.Degree
import LieScribe.Proofs.Sharing.WellFormed

/-!
# Which expressions get a temporary

Along the two walks an expression is visited as often as it stands among the outputs or
among the arguments of what is entered, and everything worth sharing is entered once.  So
the visits to an expression are its degree.  The first visit is noted as seen and the
others as repeated, which decides who gets a temporary; and each visit leaves one use of
the temporary behind.
-/

namespace LieScribe

namespace Expr

/-- How often a symbol is read in a list of expressions. -/
def readsIn (symbol : Symbol) (exprs : List Expr) : Nat :=
  (symbolsOf exprs).count symbol

theorem readsIn_cons (symbol : Symbol) (expr : Expr) (others : List Expr) :
    readsIn symbol (expr :: others) = expr.symbols.count symbol + readsIn symbol others := by
  rw [readsIn, symbolsOf, List.count_append, readsIn]

theorem readsIn_append (symbol : Symbol) (exprs others : List Expr) :
    readsIn symbol (exprs ++ others) = readsIn symbol exprs + readsIn symbol others := by
  induction exprs with
  | nil =>
      simp [readsIn, symbolsOf]
  | cons first rest inductionHypothesis =>
      rw [List.cons_append, readsIn_cons, readsIn_cons, inductionHypothesis, Nat.add_assoc]

theorem count_symbols_op (symbol : Symbol) (operation : Operation) (arguments : List Expr) :
    (op operation arguments).symbols.count symbol = readsIn symbol arguments := by
  rw [symbols, readsIn]

theorem count_symbols_symbol (symbol leaf : Symbol) :
    (Expr.symbol leaf).symbols.count symbol = if leaf = symbol then 1 else 0 := by
  simp [symbols, List.count_singleton]

/-- A renaming that leaves a temporary alone leaves its uses alone. -/
theorem readsIn_map_substitute {bindings : Bindings Expr} {isTemporary : Symbol → Prop}
    {rename : Symbol → Symbol} (apart : bindings.RenamesApart isTemporary rename)
    {symbol : Symbol} (isOne : isTemporary symbol) (exprs : List Expr) :
    readsIn symbol (exprs.map (substitute bindings)) = readsIn symbol exprs := by
  rw [readsIn, symbolsOf_map_substitute apart.renames, List.count, List.countP_map, readsIn,
    List.count]
  apply List.countP_congr
  intro leaf _
  simp only [Function.comp_apply, beq_iff_eq]
  constructor
  · intro renamed
    have temporary := apart.avoided leaf (renamed.symm ▸ isOne)
    rwa [apart.fixed leaf temporary] at renamed
  · rintro rfl
    exact apart.fixed leaf isOne

end Expr

namespace Hoisted

variable {naming : Naming}

/-! ## Counting along the walks -/

section Walks

variable {repeated exprs replaced : List Expr} {before after : Progress}

/-- A visit to an expression worth sharing is noted, as seen or as repeated, and every
visit is to one of the expressions walked over or to an argument of one that was seen on
the way. -/
theorem Walks.balance (walks : Walks naming repeated exprs before after replaced) {expr : Expr}
    (shareable : expr.isShareable = true) :
    expr.countIn after.survey.seen + expr.countIn after.survey.repeated +
        expr.usesIn before.survey.seen =
      expr.countIn before.survey.seen + expr.countIn before.survey.repeated +
        expr.countIn exprs + expr.usesIn after.survey.seen := by
  induction walks with
  | done progress =>
      simp only [Expr.countIn, List.countP_nil]
      omega
  | passed worthless _ ofOthers =>
      rw [Expr.countIn_cons, Expr.same_eq_false_of_isShareable worthless shareable]
      simpa using ofOthers
  | met _ _ _ _ ofOthers =>
      simp only [Expr.countIn_cons] at ofOthers ⊢
      omega
  | entered _ _ _ _ _ ofArguments ofOthers =>
      simp only [Expr.countIn_cons, Expr.usesIn_cons, Expr.arguments] at ofArguments ofOthers ⊢
      omega

/-- A visit to an expression that has a temporary in the end leaves one use of the
temporary behind, in a replacement or in a definition. -/
theorem Walks.readsIn_temporary (walks : Walks naming repeated exprs before after replaced)
    {final : List Hoisted}
    (distinct : final.Pairwise fun left right => left.source.same right.source = false)
    {position : Nat} {entry : Hoisted} (found : final[position]? = some entry)
    (shareable : entry.source.isShareable = true)
    (again : entry.source.memberOf repeated = true)
    (unreserved : ∀ expr ∈ exprs, naming.Unreserved expr) (reaches : after.hoisted <+: final) :
    Expr.readsIn (naming.temporary position) replaced +
          Expr.readsIn (naming.temporary position) (after.hoisted.map (·.definition)) +
        entry.source.usesIn before.survey.seen =
      Expr.readsIn (naming.temporary position) (before.hoisted.map (·.definition)) +
          entry.source.countIn exprs +
        entry.source.usesIn after.survey.seen := by
  induction walks with
  | done progress =>
      simp only [Expr.readsIn, Expr.symbolsOf, List.count_nil, Expr.countIn, List.countP_nil]
      omega
  | @passed expr _ _ _ _ worthless _ ofOthers =>
      rw [List.forall_mem_cons] at unreserved
      have others := ofOthers unreserved.2 reaches
      have unmentioned : expr.symbols.count (naming.temporary position) = 0 := by
        rw [List.count_eq_zero]
        exact fun mentioned => unreserved.1.ne_temporary mentioned position rfl
      rw [Expr.readsIn_cons, Expr.countIn_cons, unmentioned,
        Expr.same_eq_false_of_isShareable worthless shareable]
      simpa using others
  | @met expr _ _ _ _ known _ _ isKnown othersWalk ofOthers =>
      rw [List.forall_mem_cons] at unreserved
      have others := ofOthers unreserved.2 reaches
      obtain ⟨entry', listed, same⟩ :=
        exists_getElem?_of_position? isKnown (othersWalk.hoisted_prefix.trans reaches)
      have asSource : expr.same entry.source = true ↔ known = position := by
        rw [← source_same_iff distinct found listed]
        exact ⟨Expr.same_trans same, Expr.same_trans (Expr.same_symm same)⟩
      rw [Expr.readsIn_cons, Expr.count_symbols_symbol, Expr.countIn_cons]
      simp only [asSource, Naming.temporary_inj]
      dsimp only at others
      omega
  | @entered operation arguments _ _ _ _ _ _ _ _ _ _ _ places
      othersWalk ofArguments ofOthers =>
      rw [List.forall_mem_cons] at unreserved
      have others := ofOthers unreserved.2 reaches
      have below := ofArguments unreserved.1.arguments
        (places.grows.trans (othersWalk.hoisted_prefix.trans reaches))
      dsimp only at below others
      rw [Expr.usesIn_cons, Expr.arguments] at below
      rw [Expr.readsIn_cons, Expr.countIn_cons]
      cases places with
      | stays once =>
          have different : ¬ (Expr.op operation arguments).same entry.source = true := by
            intro same
            rw [Expr.memberOf_of_same (Expr.same_symm same) again] at once
            cases once
          rw [Expr.count_symbols_op, if_neg different]
          omega
      | moves _ =>
          have listed := getElem?_length_of_prefix (othersWalk.hoisted_prefix.trans reaches)
          have asSource := source_same_iff distinct found listed
          have nothing : Expr.readsIn (naming.temporary position) [] = 0 := rfl
          rw [List.map_append, Expr.readsIn_append, List.map_singleton, Expr.readsIn_cons,
            Expr.count_symbols_op] at others
          rw [Expr.count_symbols_symbol]
          simp only [asSource, Naming.temporary_inj]
          omega

end Walks

/-! ## Visits are degrees -/

variable {outputs : List Expr}

/-- Everything worth sharing in the outputs is seen. -/
theorem memberOf_seen_of_occurs {expr : Expr} (occurs : Expr.Occurs outputs expr)
    (shareable : expr.isShareable = true) :
    expr.memberOf (Survey.empty.visitAll outputs).seen = true := by
  obtain ⟨ofOutputs, ofArguments⟩ := (walks_outputs Naming.named outputs).1.covers
  induction occurs with
  | root member =>
      exact ofOutputs _ member shareable
  | @argument operation arguments argument _ member inductionHypothesis =>
      have parentSeen := inductionHypothesis (Expr.isShareable_op_of_mem member shareable)
      obtain ⟨parent, seen, same⟩ := Expr.memberOf_iff.mp parentSeen
      obtain ⟨arguments', rfl, pairwise⟩ := Expr.same_op_iff.mp (Expr.same_symm same)
      -- the argument that stands at the same place in the parent that was seen
      obtain ⟨position, inside, rfl⟩ := List.mem_iff_getElem.mp member
      have inside' : position < arguments'.length := pairwise.length_eq ▸ inside
      have argumentSame := pairwise.get inside inside'
      have argumentSeen := (ofArguments _ seen).resolve_left (nomatch ·)
        arguments'[position] (List.getElem_mem inside')
        (Expr.isShareable_eq_of_same argumentSame ▸ shareable)
      exact Expr.memberOf_of_same (Expr.same_symm argumentSame) argumentSeen

theorem usesIn_seen (outputs : List Expr) {expr : Expr} (shareable : expr.isShareable = true) :
    expr.usesIn (Expr.distinct (Expr.operationsOf outputs)) =
      expr.usesIn (Survey.empty.visitAll outputs).seen := by
  obtain ⟨walks, inStep⟩ := walks_outputs Naming.named outputs
  apply Expr.usesIn_distinct inStep.unique
  · intro parent seen
    obtain ⟨occurs, worth⟩ := (walks.occurs_of_mem_seen parent seen).resolve_left (nomatch ·)
    exact Expr.memberOf_of_mem
      (Expr.mem_operationsOf_iff.mpr ⟨occurs, Expr.isAtom_of_isShareable worth⟩)
  · intro parent listed unseen
    obtain ⟨occurs, _⟩ := Expr.mem_operationsOf_iff.mp listed
    rw [Expr.countIn, List.countP_eq_zero]
    intro argument member same
    -- a parent that was not seen has nothing worth sharing below it
    have argumentShareable : argument.isShareable = true := by
      rwa [Expr.isShareable_eq_of_same same]
    have parentShareable : parent.isShareable = true := by
      cases parent with
      | op operation arguments => exact Expr.isShareable_op_of_mem member argumentShareable
      | symbol leaf => cases member
      | literal constant => cases member
    rw [memberOf_seen_of_occurs occurs parentShareable] at unseen
    cases unseen

/-- An expression is met again as often as its degree says, less the first time. -/
theorem degree_eq {expr : Expr} (occurs : Expr.Occurs outputs expr)
    (shareable : expr.isShareable = true) :
    Expr.degree outputs expr = 1 + expr.countIn (Survey.repeatedIn outputs) := by
  obtain ⟨walks, inStep⟩ := walks_outputs Naming.named outputs
  have balance := walks.balance shareable
  have seenOnce : expr.countIn (Survey.empty.visitAll outputs).seen = 1 := by
    have most : expr.countIn (Survey.empty.visitAll outputs).seen ≤ 1 :=
      Expr.countIn_le_one inStep.unique
    have least := Expr.countIn_pos_iff.mpr (memberOf_seen_of_occurs occurs shareable)
    omega
  have start : expr.usesIn Survey.empty.seen = 0 ∧ expr.countIn Survey.empty.seen = 0 ∧
      expr.countIn Survey.empty.repeated = 0 := ⟨rfl, rfl, rfl⟩
  rw [Expr.degree, usesIn_seen outputs shareable, Survey.repeatedIn]
  dsimp only at balance
  omega

/-- There is a temporary for exactly the expressions of degree two and more. -/
theorem exists_source_same_iff {expr : Expr} (occurs : Expr.Occurs outputs expr)
    (shareable : expr.isShareable = true) :
    (∃ entry ∈ table naming outputs, entry.source.same expr = true) ↔
      2 ≤ Expr.degree outputs expr := by
  have inStep := inStep_table naming outputs
  have again : 2 ≤ Expr.degree outputs expr ↔
      expr.memberOf (Survey.repeatedIn outputs) = true := by
    rw [← Expr.countIn_pos_iff, degree_eq occurs shareable]
    omega
  rw [again]
  constructor
  · rintro ⟨entry, member, same⟩
    exact Expr.memberOf_of_same same (inStep.again entry member)
  · intro isAgain
    obtain ⟨first, seen, same⟩ := Expr.memberOf_iff.mp (memberOf_seen_of_occurs occurs shareable)
    have firstAgain := Expr.memberOf_of_same (Expr.same_symm same) isAgain
    obtain ⟨entry, member, entrySame⟩ :=
      (inStep.finished first seen firstAgain).resolve_left (nomatch ·)
    exact ⟨entry, member, Expr.same_trans entrySame same⟩

/-- What a temporary is for, and how often it is read. -/
theorem source_of_table (unreserved : ∀ output ∈ outputs, naming.Unreserved output)
    {position : Nat} {entry : Hoisted} (found : (table naming outputs)[position]? = some entry) :
    Expr.Occurs outputs entry.source ∧ entry.source.isShareable = true ∧
      Expr.readsIn (naming.temporary position) (Program.shared naming outputs).outputs +
          Expr.readsIn (naming.temporary position)
            ((table naming outputs).map (·.definition)) =
        Expr.degree outputs entry.source := by
  have inStep := inStep_table naming outputs
  obtain ⟨_, _, _, occurs, shareable⟩ := (sound_table unreserved).exists_expansion found
  have visits := (walks_table naming outputs).readsIn_temporary inStep.distinct found shareable
    (inStep.again entry (List.mem_of_getElem? found)) unreserved List.prefix_rfl
  have start : entry.source.usesIn Survey.empty.seen = 0 ∧
      Expr.readsIn (naming.temporary position) (([] : List Hoisted).map (·.definition)) = 0 :=
    ⟨rfl, rfl⟩
  refine ⟨occurs, shareable, ?_⟩
  rw [Expr.degree, usesIn_seen outputs shareable]
  dsimp only at visits
  omega

end Hoisted

/-! ## Compound expressions -/

namespace Expr

/-- An operation that is not the negation of an atom. -/
def IsCompound (expr : Expr) : Prop :=
  expr.isAtom = false ∧ ∀ atom : Expr, atom.isAtom = true → expr ≠ .op .neg [atom]

theorem isShareable_iff_isCompound {expr : Expr} (checked : expr.check = .ok ()) :
    expr.isShareable = true ↔ expr.IsCompound := by
  cases expr with
  | symbol leaf => simp [isShareable, IsCompound, isAtom]
  | literal constant => simp [isShareable, IsCompound, isAtom]
  | op operation arguments =>
      rw [check, Outcome.check_eq_ok_iff, Operation.checkCount_eq_ok_iff] at checked
      rw [isShareable_op_iff]
      constructor
      · rintro worth
        refine ⟨rfl, ?_⟩
        rintro atom isAtom ⟨⟩
        obtain ⟨argument, member, notAtom⟩ := worth rfl
        rw [List.mem_singleton.mp member, isAtom] at notAtom
        cases notAtom
      · rintro ⟨_, noNegation⟩ rfl
        have one : arguments.length = 1 := by simpa [Operation.arity, Arity.accepts] using checked.1
        obtain ⟨argument, rfl⟩ := List.length_eq_one_iff.mp one
        refine ⟨argument, List.mem_cons_self, ?_⟩
        rw [Bool.eq_false_iff]
        exact fun atom => noNegation argument atom rfl

end Expr

/-! ## Programs -/

namespace Program

/-- With all temporaries expanded, a symbol stands for an expression. -/
def Holds (program : Program) (symbol : Symbol) (expr : Expr) : Prop :=
  ∃ expansion, program.expansions.get? symbol = some expansion ∧ expansion.same expr = true

/-- How often a symbol is read, in definitions and outputs together. -/
def reads (program : Program) (symbol : Symbol) : Nat :=
  Expr.readsIn symbol program.outputs +
    Expr.readsIn symbol (program.temporaries.map (·.definition))

/-- A program has one temporary for each compound expression of degree two or more, and
no other temporaries; each is read as often as the degree of its expression says. -/
structure FollowsDegrees (outputs : List Expr) (arrangement : Bindings Expr)
    (program : Program) : Prop where
  shared_iff : ∀ expr : Expr, Expr.Occurs outputs expr → expr.IsCompound →
    ((∃ temporary ∈ program.temporaries,
        program.Holds temporary.symbol (expr.substitute arrangement)) ↔
      2 ≤ Expr.degree outputs expr)
  single : program.temporaries.Pairwise fun earlier later =>
    ∀ expr, ¬ (program.Holds earlier.symbol expr ∧ program.Holds later.symbol expr)
  source : ∀ temporary ∈ program.temporaries, ∃ expr,
    Expr.Occurs outputs expr ∧ expr.IsCompound ∧
      program.Holds temporary.symbol (expr.substitute arrangement)
  reads_eq : ∀ temporary ∈ program.temporaries, ∀ expr, Expr.Occurs outputs expr →
    program.Holds temporary.symbol (expr.substitute arrangement) →
      program.reads temporary.symbol = Expr.degree outputs expr

theorem Holds.same {program : Program} {symbol : Symbol} {expr other : Expr}
    (holds : program.Holds symbol expr) (holdsOther : program.Holds symbol other) :
    expr.same other = true := by
  obtain ⟨expansion, bound, same⟩ := holds
  obtain ⟨expansion', bound', same'⟩ := holdsOther
  rw [bound, Option.some.injEq] at bound'
  subst bound'
  exact Expr.same_trans (Expr.same_symm same) same'

theorem Holds.of_same {program : Program} {symbol : Symbol} {expr other : Expr}
    (holds : program.Holds symbol expr) (same : expr.same other = true) :
    program.Holds symbol other := by
  obtain ⟨expansion, bound, expansionSame⟩ := holds
  exact ⟨expansion, bound, Expr.same_trans expansionSame same⟩

/-- Programs for the same outputs in another order hold the same expressions. -/
theorem FollowsDegrees.holds_of_perm {outputs others : List Expr}
    {arrangement : Bindings Expr} {program reordered : Program}
    (follows : program.FollowsDegrees outputs arrangement)
    (othersFollow : reordered.FollowsDegrees others arrangement) (perm : outputs.Perm others)
    {expr : Expr}
    (held : ∃ temporary ∈ program.temporaries, program.Holds temporary.symbol expr) :
    ∃ temporary ∈ reordered.temporaries, reordered.Holds temporary.symbol expr := by
  obtain ⟨temporary, member, holds⟩ := held
  obtain ⟨source, occurs, compound, holdsSource⟩ := follows.source temporary member
  have enough := (follows.shared_iff source occurs compound).mp ⟨temporary, member, holdsSource⟩
  rw [Expr.degree_perm perm] at enough
  obtain ⟨temporary', member', holds'⟩ :=
    (othersFollow.shared_iff source (occurs.perm perm) compound).mpr enough
  exact ⟨temporary', member', holds'.of_same (holdsSource.same holds)⟩

section Arranged

variable {naming : Naming} {inputs : List Symbol} {outputs : List Expr}

theorem mem_temporaries_substitute_iff {bindings : Bindings Expr} {temporary : Temporary} :
    temporary ∈ ((shared naming outputs).substitute bindings).temporaries ↔
      ∃ position entry, (Hoisted.table naming outputs)[position]? = some entry ∧
        temporary = ⟨naming.temporary position, entry.definition.substitute bindings⟩ := by
  rw [List.mem_iff_getElem?]
  refine exists_congr fun position => ?_
  rw [substitute, List.getElem?_map, shared, Hoisted.getElem?_temporaries, Option.map_map,
    Option.map_eq_some_iff]
  exact exists_congr fun entry => and_congr_right fun _ => eq_comm

theorem map_definition_substitute (naming : Naming) (outputs : List Expr)
    (bindings : Bindings Expr) :
    ((shared naming outputs).substitute bindings).temporaries.map (·.definition) =
      ((Hoisted.table naming outputs).map (·.definition)).map (Expr.substitute bindings) := by
  rw [Hoisted.table, ← Hoisted.map_definition_temporaries naming, List.map_map, substitute,
    List.map_map, shared]
  rfl

/-- After the inputs were arranged, a temporary holds what its expression became. -/
theorem holds_arranged_iff (checked : naming.checkRequest inputs outputs = .ok ())
    {position : Nat} {entry : Hoisted}
    (found : (Hoisted.table naming outputs)[position]? = some entry)
    {expr : Expr} (occurs : Expr.Occurs outputs expr) :
    ((shared naming outputs).substitute (naming.arrangement inputs)).Holds
        (naming.temporary position) (expr.substitute (naming.arrangement inputs)) ↔
      entry.source.same expr = true := by
  obtain ⟨distinct, free, declared⟩ := Naming.declares_of_checkRequest checked
  have apart := Naming.renamesApart_arrangement distinct free
  have sound := Hoisted.sound_table (Naming.unreserved_of_checkRequest checked)
  obtain ⟨expansion, bound, same, sourceOccurs, _⟩ := sound.exists_expansion found
  have named : ∀ temporary ∈ (shared naming outputs).temporaries,
      naming.IsTemporary temporary.symbol := by
    intro temporary member
    rw [← substitute_empty (shared naming outputs)] at member
    obtain ⟨position, _, _, rfl⟩ := mem_temporaries_substitute_iff.mp member
    exact ⟨position, rfl⟩
  have arranged := get?_expansions_substitute apart named ⟨position, rfl⟩
  rw [expansions_shared, ← Hoisted.table, bound, Option.map_some] at arranged
  have injective : ∀ symbol ∈ expansion.symbols, ∀ symbol' ∈ expr.symbols,
      naming.leaf inputs symbol = naming.leaf inputs symbol' → symbol = symbol' := by
    rw [Expr.symbols_eq_of_same same]
    intro symbol mentioned symbol' mentioned'
    exact Naming.leaf_injective (sourceOccurs.declared declared symbol mentioned)
      (occurs.declared declared symbol' mentioned')
  have iff := Expr.same_substitute_iff apart.renames injective
  constructor
  · rintro ⟨_, found, sameArranged⟩
    rw [arranged, Option.some.injEq] at found
    rw [← found, iff] at sameArranged
    exact Expr.same_trans (Expr.same_symm same) sameArranged
  · intro sameSource
    exact ⟨_, arranged, iff.mpr (Expr.same_trans same sameSource)⟩

theorem reads_arranged (checked : naming.checkRequest inputs outputs = .ok ())
    {position : Nat} {entry : Hoisted}
    (found : (Hoisted.table naming outputs)[position]? = some entry) :
    ((shared naming outputs).substitute (naming.arrangement inputs)).reads
        (naming.temporary position) =
      Expr.degree outputs entry.source := by
  obtain ⟨distinct, free, _⟩ := Naming.declares_of_checkRequest checked
  have apart := Naming.renamesApart_arrangement distinct free
  obtain ⟨_, _, reads⟩ :=
    Hoisted.source_of_table (Naming.unreserved_of_checkRequest checked) found
  rw [Program.reads, map_definition_substitute, substitute,
    Expr.readsIn_map_substitute apart ⟨position, rfl⟩,
    Expr.readsIn_map_substitute apart ⟨position, rfl⟩]
  exact reads

theorem followsDegrees (checked : naming.checkRequest inputs outputs = .ok ()) :
    ((shared naming outputs).substitute (naming.arrangement inputs)).FollowsDegrees outputs
      (naming.arrangement inputs) := by
  obtain ⟨distinct, free, declared⟩ := Naming.declares_of_checkRequest checked
  have unreserved := Naming.unreserved_of_checkRequest checked
  have compound_iff : ∀ expr : Expr, Expr.Occurs outputs expr →
      (expr.isShareable = true ↔ expr.IsCompound) := fun expr occurs =>
    Expr.isShareable_iff_isCompound (occurs.check (Naming.check_of_checkRequest checked))
  refine ⟨?_, ?_, ?_, ?_⟩
  · intro expr occurs compound
    rw [← Hoisted.exists_source_same_iff occurs ((compound_iff expr occurs).mpr compound)]
    constructor
    · rintro ⟨_, member, holds⟩
      obtain ⟨position, entry, found, rfl⟩ := mem_temporaries_substitute_iff.mp member
      exact ⟨entry, List.mem_of_getElem? found, (holds_arranged_iff checked found occurs).mp holds⟩
    · rintro ⟨entry, member, same⟩
      obtain ⟨position, found⟩ := List.mem_iff_getElem?.mp member
      exact ⟨_, mem_temporaries_substitute_iff.mpr ⟨position, entry, found, rfl⟩,
        (holds_arranged_iff checked found occurs).mpr same⟩
  · have names := ((wellFormed_shared naming declared).arrange distinct free).nodup_symbols
    refine (List.pairwise_map.mp names).imp_of_mem ?_
    rintro _ _ earlierMember laterMember different expr ⟨earlierHolds, laterHolds⟩
    obtain ⟨position, entry, found, rfl⟩ := mem_temporaries_substitute_iff.mp earlierMember
    obtain ⟨position', entry', found', rfl⟩ := mem_temporaries_substitute_iff.mp laterMember
    obtain ⟨occurs, _, _⟩ := Hoisted.source_of_table unreserved found
    have holdsSource := (holds_arranged_iff checked found occurs).mpr (Expr.same_refl _)
    have same := (holds_arranged_iff checked found' occurs).mp
      (laterHolds.of_same (earlierHolds.same holdsSource))
    have equal := (Hoisted.source_same_iff (Hoisted.inStep_table naming outputs).distinct
      found found').mp same
    exact different (by rw [equal])
  · intro _ member
    obtain ⟨position, entry, found, rfl⟩ := mem_temporaries_substitute_iff.mp member
    obtain ⟨occurs, shareable, _⟩ := Hoisted.source_of_table unreserved found
    exact ⟨entry.source, occurs, (compound_iff _ occurs).mp shareable,
      (holds_arranged_iff checked found occurs).mpr (Expr.same_refl _)⟩
  · intro _ member expr occurs holds
    obtain ⟨position, entry, found, rfl⟩ := mem_temporaries_substitute_iff.mp member
    have same := (holds_arranged_iff checked found occurs).mp holds
    rw [reads_arranged checked found, Expr.degree_eq_of_same same]

theorem FollowsDegrees.two_le_reads {arrangement : Bindings Expr} {program : Program}
    (follows : program.FollowsDegrees outputs arrangement) :
    ∀ temporary ∈ program.temporaries, 2 ≤ program.reads temporary.symbol := by
  intro temporary member
  obtain ⟨expr, occurs, compound, holds⟩ := follows.source temporary member
  rw [follows.reads_eq temporary member expr occurs holds]
  exact (follows.shared_iff expr occurs compound).mp ⟨temporary, member, holds⟩

/-- An accepted request is shared by a program whose temporaries follow the degrees of the
expressions in the outputs.  Every temporary is read at least twice, and the outputs in
another order are shared as well, by temporaries for the same expressions. -/
theorem followsDegrees_of_share {program : Program}
    (accepted : share naming inputs outputs = .ok program) :
    program.FollowsDegrees outputs (naming.arrangement inputs) ∧
      (∀ temporary ∈ program.temporaries, 2 ≤ program.reads temporary.symbol) ∧
        ∀ others, outputs.Perm others → ∃ reordered,
          share naming inputs others = .ok reordered ∧
            ∀ expr,
              (∃ temporary ∈ program.temporaries, program.Holds temporary.symbol expr) ↔
                ∃ temporary ∈ reordered.temporaries,
                  reordered.Holds temporary.symbol expr := by
  obtain ⟨checked, rfl⟩ := share_eq_ok_iff_substitute.mp accepted
  have follows := followsDegrees checked
  refine ⟨follows, follows.two_le_reads, fun others perm => ?_⟩
  have othersChecked := Naming.checkRequest_of_perm checked perm
  have othersFollow := followsDegrees othersChecked
  refine ⟨_, share_eq_ok_iff_substitute.mpr ⟨othersChecked, rfl⟩, fun expr => ?_⟩
  exact ⟨follows.holds_of_perm othersFollow perm, othersFollow.holds_of_perm follows perm.symm⟩

end Arranged

/-- A product that occurs four times, but below one repeated sine only, and a negated
input that occurs three times. -/
def wavesOfProduct : List Expr :=
  let x := Expr.named "x"
  let wave := Expr.sin (x * .named "y")
  [wave, -x * wave, .op .add [wave, -x, wave, Expr.cos (-x)]]

theorem followsDegrees_share_wavesOfProduct :
    ∃ program,
      share .arrayed [.named "y", .named "x"] wavesOfProduct = .ok program ∧
        program.temporaries.length = 1 ∧
          program.reads (.named "tmp0") = 4 ∧
            program.FollowsDegrees wavesOfProduct
              (Naming.arrayed.arrangement [.named "y", .named "x"]) := by
  have accepted :
      share .arrayed [.named "y", .named "x"] wavesOfProduct =
        .ok ((shared .arrayed wavesOfProduct).linearize [.named "y", .named "x"] "inp") := rfl
  exact ⟨_, accepted, rfl, rfl, (followsDegrees_of_share accepted).1⟩

end Program

end LieScribe
