import LieScribe.Proofs.Degree
import LieScribe.Proofs.Sharing.WellFormed

/-!
# Nothing is left to share

The definitions and outputs of a shared program are expressions again, in which the
temporaries are further inputs.  With temporaries expanded, each operation among them is
one that the walk entered, and the walk enters no expression twice.  Equal operations have
equal expansions, so no operation that is worth sharing stands there twice, and sharing
the program once more changes nothing.
-/

namespace LieScribe

namespace Expr

theorem operationsOf_append (exprs others : List Expr) :
    operationsOf (exprs ++ others) = operationsOf exprs ++ operationsOf others := by
  induction exprs with
  | nil =>
      rfl
  | cons first rest inductionHypothesis =>
      rw [List.cons_append, operationsOf, operationsOf, inductionHypothesis, List.append_assoc]

theorem operationsOf_atoms {exprs : List Expr} (atoms : ∀ expr ∈ exprs, expr.isAtom = true) :
    operationsOf exprs = [] := by
  rw [List.eq_nil_iff_forall_not_mem]
  intro operation member
  obtain ⟨occurs, isOperation⟩ := mem_operationsOf_iff.mp member
  have isAtom : operation.isAtom = true := by
    clear member isOperation
    induction occurs with
    | root member => exact atoms _ member
    | argument _ _ inductionHypothesis => cases inductionHypothesis
  rw [isAtom] at isOperation
  cases isOperation

theorem countIn_append (expr : Expr) (exprs others : List Expr) :
    expr.countIn (exprs ++ others) = expr.countIn exprs + expr.countIn others :=
  List.countP_append

end Expr

namespace Hoisted

variable {naming : Naming} {repeated exprs replaced outputs : List Expr} {before after : Progress}
  {final : List Hoisted}

/-! ## What the walks leave, expanded -/

theorem expanded_of_unreserved (hoisted : List Hoisted) {expr : Expr}
    (unreserved : naming.Unreserved expr) : expanded naming hoisted expr = expr := by
  induction expr with
  | symbol leaf =>
      exact expanded_symbol_of_unreserved hoisted unreserved
  | literal constant =>
      rfl
  | op operation arguments each =>
      rw [expanded_op]
      congr 1
      rw [List.map_congr_left (g := id), List.map_id]
      intro argument member
      exact each argument member (unreserved.arguments argument member)

theorem Sound.same_expanded_temporary
    (sound : Sound naming outputs (fun expansion expr => expansion.same expr = true) final)
    {position : Nat} {entry : Hoisted} (found : final[position]? = some entry) :
    (expanded naming final (.symbol (naming.temporary position))).same entry.source = true := by
  obtain ⟨expansion, bound, same, _⟩ := sound.exists_expansion found
  rwa [expanded_temporary bound]

/-- The replacements stand for the expressions that were walked over. -/
theorem Walks.same_expanded (walks : Walks naming repeated exprs before after replaced)
    (sound : Sound naming outputs (fun expansion expr => expansion.same expr = true) final)
    (unreserved : ∀ expr ∈ exprs, naming.Unreserved expr) (reaches : after.hoisted <+: final) :
    List.Forall₂ (fun replacement expr => (expanded naming final replacement).same expr = true)
      replaced exprs := by
  induction walks with
  | done progress =>
      exact .nil
  | passed _ _ ofOthers =>
      rw [List.forall_mem_cons] at unreserved
      refine .cons ?_ (ofOthers unreserved.2 reaches)
      rw [expanded_of_unreserved final unreserved.1]
      exact Expr.same_refl _
  | met _ _ isKnown othersWalk ofOthers =>
      rw [List.forall_mem_cons] at unreserved
      refine .cons ?_ (ofOthers unreserved.2 reaches)
      obtain ⟨entry, listed, same⟩ :=
        exists_getElem?_of_position? isKnown (othersWalk.hoisted_prefix.trans reaches)
      exact Expr.same_trans (sound.same_expanded_temporary listed) same
  | entered _ _ _ places othersWalk ofArguments ofOthers =>
      rw [List.forall_mem_cons] at unreserved
      refine .cons ?_ (ofOthers unreserved.2 reaches)
      cases places with
      | stays _ =>
          have below := ofArguments (unreserved.1.arguments)
            (othersWalk.hoisted_prefix.trans reaches)
          rw [expanded_op]
          exact Expr.same_op_iff.mpr ⟨_, rfl, List.forall₂_map_left_iff.mpr below⟩
      | moves _ =>
          have listed := getElem?_length_of_prefix (othersWalk.hoisted_prefix.trans reaches)
          exact sound.same_expanded_temporary listed

/-- What is not worth sharing has no operation that is. -/
theorem countIn_operations_eq_zero {first expr : Expr} (worthless : first.isShareable = false)
    (shareable : expr.isShareable = true) (unreserved : naming.Unreserved first) :
    expr.countIn (first.operations.map (expanded naming final)) = 0 := by
  cases first with
  | symbol leaf => rfl
  | literal constant => rfl
  | op operation arguments =>
      have different := Expr.same_eq_false_of_isShareable worthless shareable
      rw [Expr.operations, Expr.operationsOf_atoms (Expr.isAtom_of_not_isShareable worthless),
        List.map_singleton, Expr.countIn_cons, expanded_of_unreserved final unreserved, different]
      rfl

/-- An operation whose arguments are replaced is counted as the operation itself. -/
theorem countIn_operations_op (operation : Operation) {arguments arguments' : List Expr}
    (argumentsSame : List.Forall₂
      (fun argument' argument => (expanded naming final argument').same argument = true)
      arguments' arguments)
    (expr : Expr) :
    expr.countIn ((Expr.op operation arguments').operations.map (expanded naming final)) =
      expr.countIn ((Expr.operationsOf arguments').map (expanded naming final)) +
        if (Expr.op operation arguments).same expr = true then 1 else 0 := by
  have rebuilt : (expanded naming final (.op operation arguments')).same
      (.op operation arguments) = true := by
    rw [expanded_op]
    exact Expr.same_op_iff.mpr ⟨_, rfl, List.forall₂_map_left_iff.mpr argumentsSame⟩
  have same : (expanded naming final (.op operation arguments')).same expr = true ↔
      (Expr.op operation arguments).same expr = true :=
    ⟨Expr.same_trans (Expr.same_symm rebuilt), Expr.same_trans rebuilt⟩
  rw [Expr.operations, List.map_cons, Expr.countIn_cons]
  simp only [same]

/-- Every expression that is entered leaves one operation behind, in a replacement or in a
definition, and all operations that are worth sharing come from there. -/
theorem Walks.countIn_operations (walks : Walks naming repeated exprs before after replaced)
    (sound : Sound naming outputs (fun expansion expr => expansion.same expr = true) final)
    (unreserved : ∀ expr ∈ exprs, naming.Unreserved expr) (reaches : after.hoisted <+: final)
    {expr : Expr} (shareable : expr.isShareable = true) :
    expr.countIn ((Expr.operationsOf replaced).map (expanded naming final)) +
          expr.countIn ((Expr.operationsOf (after.hoisted.map (·.definition))).map
            (expanded naming final)) +
        expr.countIn before.survey.seen =
      expr.countIn ((Expr.operationsOf (before.hoisted.map (·.definition))).map
            (expanded naming final)) +
        expr.countIn after.survey.seen := by
  induction walks with
  | done progress =>
      rw [Expr.operationsOf, List.map_nil, Expr.countIn, List.countP_nil, Nat.zero_add]
  | @passed first _ _ _ _ worthless _ ofOthers =>
      rw [List.forall_mem_cons] at unreserved
      have others := ofOthers unreserved.2 reaches
      have nothing : expr.countIn (first.operations.map (expanded naming final)) = 0 :=
        countIn_operations_eq_zero worthless shareable unreserved.1
      rw [Expr.operationsOf, List.map_append, Expr.countIn_append, nothing]
      omega
  | met _ _ _ _ ofOthers =>
      rw [List.forall_mem_cons] at unreserved
      exact ofOthers unreserved.2 reaches
  | @entered operation arguments arguments' _ _ _ _ _ middle _ _ _ argumentsWalk places
      othersWalk ofArguments ofOthers =>
      rw [List.forall_mem_cons] at unreserved
      have others := ofOthers unreserved.2 reaches
      have below := ofArguments unreserved.1.arguments
        (places.grows.trans (othersWalk.hoisted_prefix.trans reaches))
      have argumentsSame := argumentsWalk.same_expanded sound unreserved.1.arguments
        (places.grows.trans (othersWalk.hoisted_prefix.trans reaches))
      have definition := countIn_operations_op operation argumentsSame expr
      rw [Expr.countIn_cons] at below
      dsimp only at below others
      rw [Expr.operationsOf, List.map_append, Expr.countIn_append]
      cases places with
      | stays _ =>
          omega
      | moves _ =>
          have nothing : expr.countIn ((Expr.symbol
              (naming.temporary middle.hoisted.length)).operations.map (expanded naming final)) =
            0 := rfl
          rw [List.map_append, Expr.operationsOf_append, List.map_append, Expr.countIn_append,
            List.map_singleton, Expr.operationsOf, Expr.operationsOf, List.append_nil] at others
          dsimp only at others
          omega

/-! ## Surveying once more -/

/-- The survey notes an expression no more often than it stands among the operations. -/
theorem Walks.countIn_noted_le (walks : Walks naming repeated exprs before after replaced)
    (expr : Expr) :
    expr.countIn after.survey.seen + expr.countIn after.survey.repeated ≤
      expr.countIn before.survey.seen + expr.countIn before.survey.repeated +
        expr.countIn (Expr.operationsOf exprs) := by
  induction walks with
  | done progress =>
      exact Nat.le_add_right _ _
  | passed _ _ ofOthers =>
      rw [Expr.operationsOf, Expr.countIn_append]
      omega
  | @met first _ _ _ _ _ shareable _ _ _ ofOthers =>
      cases first with
      | symbol leaf => cases shareable
      | literal constant => cases shareable
      | op operation arguments =>
          simp only [Expr.operationsOf, Expr.operations, Expr.countIn_append,
            Expr.countIn_cons] at ofOthers ⊢
          omega
  | entered _ _ _ _ _ ofArguments ofOthers =>
      simp only [Expr.operationsOf, Expr.operations, Expr.countIn_append,
        Expr.countIn_cons] at ofArguments ofOthers ⊢
      omega

theorem Walks.memberOf_seen_of_repeated
    (walks : Walks naming repeated exprs before after replaced) :
    ∀ expr ∈ after.survey.repeated, expr ∈ before.survey.repeated ∨
      expr.memberOf after.survey.seen = true ∧ expr.isShareable = true := by
  induction walks with
  | done progress =>
      exact fun _ => .inl
  | passed _ _ ofOthers =>
      exact ofOthers
  | met shareable seen _ othersWalk ofOthers =>
      intro expr member
      rcases ofOthers expr member with earlier | later
      · rcases List.mem_cons.mp earlier with rfl | before
        · exact .inr ⟨Expr.memberOf_mono othersWalk.seen_subset seen, shareable⟩
        · exact .inl before
      · exact .inr later
  | entered _ _ _ _ othersWalk ofArguments ofOthers =>
      intro expr member
      rcases ofOthers expr member with earlier | later
      · rcases ofArguments expr earlier with before | ⟨seen, shareable⟩
        · exact .inl before
        · exact .inr ⟨Expr.memberOf_mono othersWalk.seen_subset seen, shareable⟩
      · exact .inr later

theorem replaceAll_nil (naming : Naming) (exprs : List Expr) :
    replaceAll naming [] exprs [] = (exprs, []) := by
  induction exprs using Expr.forestInduct with
  | nil =>
      rfl
  | atom expr others atom ofOthers =>
      cases expr with
      | symbol leaf => rw [replaceAll_cons, replace, ofOthers]
      | literal constant => rw [replaceAll_cons, replace, ofOthers]
      | op operation arguments => cases atom
  | op operation arguments others ofArguments ofOthers =>
      have kept : replace naming [] (.op operation arguments) [] = (.op operation arguments, []) := by
        rw [replace_of_not_memberOf rfl rfl, ofArguments]
      rw [replaceAll_cons, kept, ofOthers]

/-! ## Shared programs -/

theorem isShareable_expanded (naming : Naming) (hoisted : List Hoisted) {expr : Expr}
    (shareable : expr.isShareable = true) :
    (expanded naming hoisted expr).isShareable = true := by
  cases expr with
  | symbol leaf => cases shareable
  | literal constant => cases shareable
  | op operation arguments =>
      rw [expanded_op, Expr.isShareable_op_iff]
      intro negation
      obtain ⟨argument, member, notAtom⟩ := Expr.isShareable_op_iff.mp shareable negation
      refine ⟨_, List.mem_map_of_mem member, ?_⟩
      cases argument with
      | symbol leaf => cases notAtom
      | literal constant => cases notAtom
      | op operation arguments => rw [expanded_op]; rfl

/-- Every definition stands for what its temporary is for. -/
theorem Sound.expands_definition {relates : Expr → Expr → Prop} {hoisted : List Hoisted}
    (sound : Sound naming outputs relates hoisted) :
    ∀ entry ∈ hoisted, Expands naming relates hoisted entry.definition entry.source := by
  induction sound with
  | nil =>
      exact fun _ => (nomatch ·)
  | concat _ _ _ settled related inductionHypothesis =>
      refine List.forall_mem_append.mpr ⟨fun entry member => ?_, List.forall_mem_singleton.mpr ?_⟩
      · exact (inductionHypothesis entry member).mono (List.prefix_append _ _)
      · exact Expands.mono ⟨settled, related⟩ (List.prefix_append _ _)

theorem definitions_distinct (unreserved : ∀ output ∈ outputs, naming.Unreserved output) :
    (table naming outputs).Pairwise fun earlier later =>
      earlier.definition.same later.definition = false := by
  have sound := sound_table unreserved
  refine (inStep_table naming outputs).distinct.imp_of_mem ?_
  intro earlier later earlierMember laterMember different
  rw [Bool.eq_false_iff]
  intro same
  have expansions := Expr.same_substitute (expansions naming (table naming outputs)) same
  have sources := Expr.same_trans
    (Expr.same_symm (sound.expands_definition earlier earlierMember).relates)
    (Expr.same_trans expansions (sound.expands_definition later laterMember).relates)
  rw [different] at sources
  cases sources

/-- No operation that is worth sharing stands twice in a shared program. -/
theorem countIn_operations_le_one (unreserved : ∀ output ∈ outputs, naming.Unreserved output)
    {expr : Expr} (shareable : expr.isShareable = true) :
    expr.countIn (Expr.operationsOf ((table naming outputs).map (·.definition) ++
      (Program.shared naming outputs).outputs)) ≤ 1 := by
  have counts := (walks_table naming outputs).countIn_operations (sound_table unreserved)
    unreserved List.prefix_rfl (isShareable_expanded naming (table naming outputs) shareable)
  have seenOnce : (expanded naming (table naming outputs) expr).countIn
      (Survey.empty.visitAll outputs).seen ≤ 1 :=
    Expr.countIn_le_one (inStep_table naming outputs).unique
  have start : ∀ expr : Expr, expr.countIn Survey.empty.seen = 0 ∧ expr.countIn [] = 0 :=
    fun _ => ⟨rfl, rfl⟩
  -- operations that are the same have the same expansions
  have expandedCount : ∀ exprs : List Expr, expr.countIn exprs ≤
      (expanded naming (table naming outputs) expr).countIn
        (exprs.map (expanded naming (table naming outputs))) := by
    intro exprs
    rw [Expr.countIn, Expr.countIn, List.countP_map]
    exact List.countP_mono_left fun other _ same => Expr.same_substitute _ same
  have ofDefinitions := expandedCount
    (Expr.operationsOf ((table naming outputs).map (·.definition)))
  have ofOutputs := expandedCount
    (Expr.operationsOf (Program.shared naming outputs).outputs)
  simp only [List.map_nil, Expr.operationsOf, (start _).1, (start _).2] at counts
  rw [Expr.operationsOf_append, Expr.countIn_append]
  omega

end Hoisted

namespace Program

variable {naming : Naming} {inputs : List Symbol} {outputs : List Expr} {program : Program}

theorem shared_eq_ofOutputs (naming : Naming) {exprs : List Expr}
    (once : ∀ expr : Expr, expr.isShareable = true →
      expr.countIn (Expr.operationsOf exprs) ≤ 1) :
    shared naming exprs = ofOutputs exprs := by
  have noneRepeated : Survey.repeatedIn exprs = [] := by
    rw [List.eq_nil_iff_forall_not_mem]
    intro expr member
    obtain ⟨walks, _⟩ := Hoisted.walks_outputs naming exprs
    obtain ⟨seen, shareable⟩ :=
      (walks.memberOf_seen_of_repeated expr member).resolve_left (nomatch ·)
    have noted := walks.countIn_noted_le expr
    have atMost := once expr shareable
    have inSeen := Expr.countIn_pos_iff.mpr seen
    have inRepeated := Expr.countIn_pos_iff.mpr (Expr.memberOf_of_mem member)
    have start : expr.countIn Survey.empty.seen = 0 ∧ expr.countIn Survey.empty.repeated = 0 :=
      ⟨rfl, rfl⟩
    rw [Survey.repeatedIn] at inRepeated
    dsimp only at noted inSeen
    omega
  rw [shared, noneRepeated, Hoisted.replaceAll_nil]
  rfl

/-- No two temporaries of a shared program have equal definitions, and sharing the program
itself, its temporaries being inputs, finds nothing more to share. -/
theorem share_again_of_share (inputsNamed : naming.linear = false)
    (accepted : share naming inputs outputs = .ok program) :
    (program.temporaries.Pairwise fun earlier later =>
        earlier.definition.same later.definition = false) ∧
      ∀ again : Naming, again.linear = false →
        again.checkRequest (inputs ++ program.temporaries.map (·.symbol))
            (program.temporaries.map (·.definition) ++ program.outputs) = .ok () →
          share again (inputs ++ program.temporaries.map (·.symbol))
              (program.temporaries.map (·.definition) ++ program.outputs) =
            .ok (ofOutputs (program.temporaries.map (·.definition) ++ program.outputs)) := by
  obtain ⟨checked, rfl⟩ := (share_eq_ok_iff inputsNamed).mp accepted
  have unreserved := Naming.unreserved_of_checkRequest checked
  have definitions := Hoisted.map_definition_temporaries naming (Hoisted.table naming outputs)
  constructor
  · have distinct : ((Hoisted.table naming outputs).map (·.definition)).Pairwise
        fun left right => left.same right = false :=
      List.pairwise_map.mpr (Hoisted.definitions_distinct unreserved)
    rw [← definitions, List.pairwise_map] at distinct
    exact distinct
  · intro again againNamed againChecked
    refine (share_eq_ok_iff againNamed).mpr ⟨againChecked, ?_⟩
    apply shared_eq_ofOutputs
    intro expr shareable
    have once := Hoisted.countIn_operations_le_one unreserved shareable
    rw [← definitions] at once
    exact once

/-- A product and its negation, both repeated: once the product is a temporary, its
negation is that of an atom. -/
def negatedProducts : List Expr :=
  let product := Expr.named "x" * .named "y"
  [-product * 2, Expr.sin (-product), product]

theorem share_again_negatedProducts :
    ∃ program,
      share .named [.named "x", .named "y"] negatedProducts = .ok program ∧
        program.temporaries.length = 2 ∧
          share .packaged
              ([.named "x", .named "y"] ++ program.temporaries.map (·.symbol))
              (program.temporaries.map (·.definition) ++ program.outputs) =
            .ok (ofOutputs (program.temporaries.map (·.definition) ++ program.outputs)) := by
  have accepted :
      share .named [.named "x", .named "y"] negatedProducts =
        .ok (shared .named negatedProducts) := rfl
  exact ⟨_, accepted, rfl, (share_again_of_share rfl accepted).2 .packaged rfl rfl⟩

end Program

end LieScribe
