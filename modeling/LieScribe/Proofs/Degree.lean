import LieScribe.Proofs.Expr
import Mathlib

/-!
# Degrees

Drawn with equal expressions in one place, the outputs of a request are a graph.  The
degree of an expression is the number of its incoming edges: the outputs that are equal
to it, and the positions at which the distinct operations of the outputs have it as an
argument.  Degrees do not depend on the order of the outputs, nor on which of several
equal expressions stands for the others.
-/

namespace LieScribe.Expr

mutual

/-- The operations in a tree, from the root downward and from left to right. -/
def operations : Expr → List Expr
  | .symbol _ => []
  | .literal _ => []
  | .op operation arguments => .op operation arguments :: operationsOf arguments

def operationsOf : List Expr → List Expr
  | [] => []
  | expr :: others => expr.operations ++ operationsOf others

end

/-- How many expressions of a list are the same as a given one. -/
def countIn (expr : Expr) (exprs : List Expr) : Nat :=
  exprs.countP (·.same expr)

/-- At how many positions the given parents have an expression as an argument. -/
def usesIn (expr : Expr) (parents : List Expr) : Nat :=
  (parents.map fun parent => expr.countIn parent.arguments).sum

/-- The outputs that are the same as an expression, and the positions at which distinct
operations in the outputs have it as an argument. -/
def degree (outputs : List Expr) (expr : Expr) : Nat :=
  expr.countIn outputs + expr.usesIn (distinct (operationsOf outputs))

/-! ## Operations that occur -/

theorem mem_operationsOf_iff {exprs : List Expr} {expr : Expr} :
    expr ∈ operationsOf exprs ↔ Occurs exprs expr ∧ expr.isAtom = false := by
  induction exprs using forestInduct with
  | nil =>
      simp [operationsOf, not_occurs_nil]
  | atom first others atom ofOthers =>
      have nothing : first.operations = [] ∧ first.arguments = [] := by
        cases first with
        | symbol leaf => exact ⟨rfl, rfl⟩
        | literal constant => exact ⟨rfl, rfl⟩
        | op operation arguments => cases atom
      rw [operationsOf, nothing.1, List.nil_append, ofOthers, occurs_cons_iff, nothing.2]
      have different : expr.isAtom = false → expr ≠ first := by
        rintro operation rfl
        rw [atom] at operation
        cases operation
      simp only [not_occurs_nil, false_or]
      grind
  | op operation arguments others ofArguments ofOthers =>
      rw [operationsOf, operations, List.cons_append, List.mem_cons, List.mem_append,
        ofArguments, ofOthers, occurs_cons_iff]
      have isOperation : (op operation arguments).isAtom = false := rfl
      simp only [Expr.arguments]
      grind

/-! ## Counting -/

theorem countIn_cons (expr first : Expr) (others : List Expr) :
    expr.countIn (first :: others) =
      expr.countIn others + if first.same expr = true then 1 else 0 :=
  List.countP_cons

theorem countIn_pos_iff {expr : Expr} {exprs : List Expr} :
    0 < expr.countIn exprs ↔ expr.memberOf exprs = true := by
  rw [countIn, List.countP_pos_iff, memberOf_iff]

theorem countIn_le_one {expr : Expr} {exprs : List Expr}
    (distinct : exprs.Pairwise fun left right => left.same right = false) :
    expr.countIn exprs ≤ 1 := by
  induction exprs with
  | nil => exact Nat.zero_le 1
  | cons first others inductionHypothesis =>
      rw [List.pairwise_cons] at distinct
      rw [countIn_cons]
      split
      · rename_i same
        have none : expr.countIn others = 0 := by
          rw [countIn, List.countP_eq_zero]
          intro other member otherSame
          have equal := same_trans same (same_symm otherSame)
          rw [distinct.1 other member] at equal
          cases equal
        omega
      · exact inductionHypothesis distinct.2

theorem countIn_congr {expr : Expr} {left right : List Expr}
    (pairwise : List.Forall₂ (fun expr other => expr.same other = true) left right) :
    expr.countIn left = expr.countIn right := by
  induction pairwise with
  | nil => rfl
  | @cons first first' others others' same _ inductionHypothesis =>
      have agree : first.same expr = true ↔ first'.same expr = true :=
        ⟨same_trans (same_symm same), same_trans same⟩
      rw [countIn_cons, countIn_cons, inductionHypothesis]
      simp only [agree]

theorem countIn_eq_of_same {left right : Expr} (same : left.same right = true)
    (exprs : List Expr) : left.countIn exprs = right.countIn exprs := by
  apply List.countP_congr
  intro expr _
  exact ⟨fun found => same_trans found same, fun found => same_trans found (same_symm same)⟩

theorem countIn_arguments_eq_of_same (expr : Expr) {left right : Expr}
    (same : left.same right = true) :
    expr.countIn left.arguments = expr.countIn right.arguments := by
  cases left with
  | op operation arguments =>
      obtain ⟨arguments', rfl, pairwise⟩ := same_op_iff.mp same
      exact countIn_congr pairwise
  | symbol leaf => cases right <;> simp_all [Expr.same, Expr.arguments]
  | literal constant => cases right <;> simp_all [Expr.same, Expr.arguments]

theorem usesIn_cons (expr parent : Expr) (others : List Expr) :
    expr.usesIn (parent :: others) = expr.countIn parent.arguments + expr.usesIn others := by
  rw [usesIn, List.map_cons, List.sum_cons, usesIn]

/-! ## Distinct expressions -/

theorem canonical_canonical (expr : Expr) : expr.canonical.canonical = expr.canonical := by
  induction expr with
  | symbol leaf => rfl
  | literal constant =>
      cases constant with
      | int value => rfl
      | float value =>
          simp only [canonical, Literal.canonical]
          split <;> simp_all
  | op operation arguments each =>
      rw [canonical, canonical]
      congr 1
      induction arguments with
      | nil => rfl
      | cons first others inductionHypothesis =>
          rw [List.forall_mem_cons] at each
          rw [canonicals, canonicals, each.1, inductionHypothesis each.2]

theorem same_canonical (expr : Expr) : expr.canonical.same expr = true :=
  (same_iff _ _).mpr (canonical_canonical expr)

theorem nodup_map_canonical {exprs : List Expr}
    (distinct : exprs.Pairwise fun left right => left.same right = false) :
    (exprs.map canonical).Nodup := by
  rw [List.Nodup, List.pairwise_map]
  refine distinct.imp fun {left right} different equal => ?_
  rw [(same_iff left right).mpr equal] at different
  cases different

theorem foldl_distinct (exprs kept : List Expr)
    (keptDistinct : kept.Pairwise fun left right => left.same right = false) :
    let result := exprs.foldl
      (fun kept expr => if expr.memberOf kept then kept else kept ++ [expr]) kept
    (result.Pairwise fun left right => left.same right = false) ∧
      kept ⊆ result ∧ (∀ expr ∈ exprs, expr.memberOf result = true) ∧
        ∀ expr ∈ result, expr ∈ kept ∨ expr ∈ exprs := by
  induction exprs generalizing kept with
  | nil =>
      exact ⟨keptDistinct, List.Subset.refl _, fun _ => (nomatch ·), fun _ => .inl⟩
  | cons first others inductionHypothesis =>
      rw [List.foldl_cons]
      split
      · rename_i found
        obtain ⟨distinct, keeps, covers, origin⟩ := inductionHypothesis kept keptDistinct
        refine ⟨distinct, keeps, List.forall_mem_cons.mpr ⟨memberOf_mono keeps found, covers⟩, ?_⟩
        exact fun expr member => (origin expr member).imp_right (List.mem_cons_of_mem _)
      · rename_i notFound
        have different : ∀ earlier ∈ kept, ∀ last ∈ [first], earlier.same last = false := by
          intro earlier member
          rw [List.forall_mem_singleton, Bool.eq_false_iff]
          exact fun same => notFound (memberOf_iff.mpr ⟨earlier, member, same⟩)
        obtain ⟨distinct, keeps, covers, origin⟩ := inductionHypothesis (kept ++ [first])
          (List.pairwise_append.mpr ⟨keptDistinct, List.pairwise_singleton _ _, different⟩)
        rw [List.append_subset] at keeps
        refine ⟨distinct, keeps.1, List.forall_mem_cons.mpr ⟨?_, covers⟩, fun expr member => ?_⟩
        · exact memberOf_of_mem (keeps.2 List.mem_cons_self)
        · rcases origin expr member with inKept | later
          · rcases List.mem_append.mp inKept with earlier | last
            · exact .inl earlier
            · exact .inr (List.mem_cons.mpr (.inl (List.mem_singleton.mp last)))
          · exact .inr (List.mem_cons_of_mem _ later)

/-- Of each class of equal expressions one is kept. -/
theorem distinct_spec (exprs : List Expr) :
    ((distinct exprs).Pairwise fun left right => left.same right = false) ∧
      (∀ expr ∈ exprs, expr.memberOf (distinct exprs) = true) ∧ distinct exprs ⊆ exprs := by
  obtain ⟨different, _, covers, origin⟩ :=
    foldl_distinct exprs [] List.Pairwise.nil
  exact ⟨different, covers, fun expr member => (origin expr member).resolve_left (nomatch ·)⟩

/-- Two lists of distinct expressions give one sum if the classes of the first are among
those of the second and the others contribute nothing. -/
theorem sum_map_eq_of_memberOf {weight : Expr → Nat}
    (respects : ∀ left right : Expr, left.same right = true → weight left = weight right)
    {some all : List Expr}
    (someDistinct : some.Pairwise fun left right => left.same right = false)
    (allDistinct : all.Pairwise fun left right => left.same right = false)
    (inside : ∀ expr ∈ some, expr.memberOf all = true)
    (outside : ∀ expr ∈ all, expr.memberOf some = false → weight expr = 0) :
    (some.map weight).sum = (all.map weight).sum := by
  classical
  have throughClasses : ∀ exprs : List Expr,
      exprs.Pairwise (fun left right => left.same right = false) →
        (exprs.map weight).sum = ∑ expr ∈ (exprs.map canonical).toFinset, weight expr := by
    intro exprs distinct
    have representatives : exprs.map weight = (exprs.map canonical).map weight := by
      rw [List.map_map]
      exact List.map_congr_left fun expr _ => respects _ _ (same_symm (same_canonical expr))
    rw [representatives, ← List.sum_toFinset _ (nodup_map_canonical distinct)]
  rw [throughClasses some someDistinct, throughClasses all allDistinct]
  apply Finset.sum_subset
  · intro representative member
    obtain ⟨expr, inSome, rfl⟩ := List.mem_map.mp (List.mem_toFinset.mp member)
    obtain ⟨other, inAll, same⟩ := memberOf_iff.mp (inside expr inSome)
    rw [List.mem_toFinset, ← (same_iff other expr).mp same]
    exact List.mem_map_of_mem inAll
  · intro representative member notInSome
    obtain ⟨expr, inAll, rfl⟩ := List.mem_map.mp (List.mem_toFinset.mp member)
    rw [respects _ _ (same_canonical expr)]
    apply outside expr inAll
    rw [Bool.eq_false_iff]
    intro found
    obtain ⟨other, inSome, same⟩ := memberOf_iff.mp found
    apply notInSome
    rw [List.mem_toFinset, ← (same_iff other expr).mp same]
    exact List.mem_map_of_mem inSome

/-! ## Degrees -/

/-- The parents can be taken from any list of distinct operations that has all parents
among them. -/
theorem usesIn_distinct {expr : Expr} {exprs parents : List Expr}
    (parentsDistinct : parents.Pairwise fun left right => left.same right = false)
    (inside : ∀ parent ∈ parents, parent.memberOf exprs = true)
    (outside : ∀ parent ∈ exprs, parent.memberOf parents = false →
      expr.countIn parent.arguments = 0) :
    expr.usesIn (distinct exprs) = expr.usesIn parents := by
  obtain ⟨different, covers, subset⟩ := distinct_spec exprs
  symm
  refine sum_map_eq_of_memberOf (fun _ _ => countIn_arguments_eq_of_same expr)
    parentsDistinct different (fun parent member => ?_)
    (fun parent member => outside parent (subset member))
  obtain ⟨found, foundMember, same⟩ := memberOf_iff.mp (inside parent member)
  exact memberOf_of_same same (covers found foundMember)

theorem degree_eq_of_same {left right : Expr} (same : left.same right = true)
    (outputs : List Expr) : degree outputs left = degree outputs right := by
  simp only [degree, usesIn, countIn_eq_of_same same]

theorem Occurs.perm {exprs others : List Expr} {expr : Expr} (perm : exprs.Perm others)
    (occurs : Occurs exprs expr) : Occurs others expr :=
  occurs.mono fun _ member => .root (perm.mem_iff.mp member)

/-- Degrees do not depend on the order of the outputs. -/
theorem degree_perm {outputs others : List Expr} (perm : outputs.Perm others) (expr : Expr) :
    degree outputs expr = degree others expr := by
  have operations : ∀ parent, parent ∈ operationsOf outputs ↔ parent ∈ operationsOf others := by
    intro parent
    rw [mem_operationsOf_iff, mem_operationsOf_iff]
    exact and_congr_left fun _ => ⟨Occurs.perm perm, Occurs.perm perm.symm⟩
  obtain ⟨different, covers, subset⟩ := distinct_spec (operationsOf others)
  have parents : expr.usesIn (distinct (operationsOf outputs)) =
      expr.usesIn (distinct (operationsOf others)) := by
    refine usesIn_distinct different (fun parent member => ?_) (fun parent member missing => ?_)
    · exact memberOf_of_mem ((operations parent).mpr (subset member))
    · rw [covers parent ((operations parent).mp member)] at missing
      cases missing
  rw [degree, degree, parents, countIn, perm.countP_eq, ← countIn]

end LieScribe.Expr
