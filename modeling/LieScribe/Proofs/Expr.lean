import LieScribe.Expr.Equality
import LieScribe.Expr.Substitution
import Mathlib.Data.List.Forall2

/-!
# Expressions, their parts, and substitution

The parts of a list of expressions, and what substitution leaves alone: an
expression is not affected by the bindings of symbols that it does not mention.
-/

namespace LieScribe.Expr

/-- Induction over a list of trees: along the list and, at an operation, into the list
of its arguments. -/
@[elab_as_elim]
theorem forestInduct {motive : List Expr → Prop}
    (nil : motive [])
    (atom : ∀ expr others, expr.isAtom = true → motive others → motive (expr :: others))
    (op : ∀ operation arguments others, motive arguments → motive others →
      motive (.op operation arguments :: others))
    (exprs : List Expr) : motive exprs :=
  @Expr.rec_1 (fun expr => ∀ others, motive others → motive (expr :: others)) motive
    (fun _ others ofOthers => atom _ others rfl ofOthers)
    (fun _ others ofOthers => atom _ others rfl ofOthers)
    (fun operation arguments ofArguments others ofOthers =>
      op operation arguments others ofArguments ofOthers)
    nil
    (fun _ others ofExpr ofOthers => ofExpr others ofOthers)
    exprs

/-! ## Parts -/

/-- The expressions that occur in a list of trees. -/
inductive Occurs (exprs : List Expr) : Expr → Prop where
  | root {expr : Expr} : expr ∈ exprs → Occurs exprs expr
  | argument {operation : Operation} {arguments : List Expr} {argument : Expr} :
      Occurs exprs (op operation arguments) →
      argument ∈ arguments →
      Occurs exprs argument

theorem Occurs.mono {exprs others : List Expr} {expr : Expr}
    (each : ∀ root ∈ exprs, Occurs others root) (occurs : Occurs exprs expr) :
    Occurs others expr := by
  induction occurs with
  | root member =>
      exact each _ member
  | argument _ member inductionHypothesis =>
      exact inductionHypothesis.argument member

theorem Occurs.tail {first expr : Expr} {others : List Expr} (occurs : Occurs others expr) :
    Occurs (first :: others) expr :=
  occurs.mono fun _ member => .root (List.mem_cons_of_mem _ member)

theorem Occurs.inside {operation : Operation} {arguments others : List Expr} {expr : Expr}
    (occurs : Occurs arguments expr) : Occurs (op operation arguments :: others) expr :=
  occurs.mono fun _ member => .argument (.root List.mem_cons_self) member

theorem not_occurs_nil (expr : Expr) : ¬ Occurs [] expr := by
  intro occurs
  induction occurs with
  | root member => cases member
  | argument _ _ inductionHypothesis => exact inductionHypothesis

theorem occurs_cons_iff {first expr : Expr} {others : List Expr} :
    Occurs (first :: others) expr ↔
      expr = first ∨ Occurs first.arguments expr ∨ Occurs others expr := by
  constructor
  · intro occurs
    induction occurs with
    | root member =>
        rcases List.mem_cons.mp member with rfl | later
        · exact .inl rfl
        · exact .inr (.inr (.root later))
    | argument _ member inductionHypothesis =>
        rcases inductionHypothesis with rfl | inside | later
        · exact .inr (.inl (.root member))
        · exact .inr (.inl (inside.argument member))
        · exact .inr (.inr (later.argument member))
  · rintro (rfl | inside | later)
    · exact .root List.mem_cons_self
    · cases first with
      | op operation arguments => exact inside.inside
      | symbol leaf => exact absurd inside (not_occurs_nil expr)
      | literal constant => exact absurd inside (not_occurs_nil expr)
    · exact later.tail

theorem nodeCount_lt_of_mem {argument : Expr} {arguments : List Expr}
    (member : argument ∈ arguments) (operation : Operation) :
    argument.nodeCount < (op operation arguments).nodeCount := by
  have inSum : argument.nodeCount ≤ nodeCounts arguments := by
    induction arguments with
    | nil =>
        cases member
    | cons first others inductionHypothesis =>
        rw [nodeCounts]
        rcases List.mem_cons.mp member with rfl | later
        · omega
        · have bound := inductionHypothesis later
          omega
  rw [nodeCount]
  omega

/-! ## Symbols -/

theorem mem_symbolsOf {symbol : Symbol} {exprs : List Expr} :
    symbol ∈ symbolsOf exprs ↔ ∃ expr ∈ exprs, symbol ∈ expr.symbols := by
  induction exprs with
  | nil =>
      simp [symbolsOf]
  | cons expr others inductionHypothesis =>
      simp [symbolsOf, inductionHypothesis]

@[simp]
theorem mem_symbols_op {symbol : Symbol} {operation : Operation}
    {arguments : List Expr} :
    symbol ∈ (op operation arguments).symbols ↔
      ∃ argument ∈ arguments, symbol ∈ argument.symbols := by
  rw [symbols, mem_symbolsOf]

@[simp]
theorem mem_symbols_symbol {symbol leaf : Symbol} :
    symbol ∈ (Expr.symbol leaf).symbols ↔ symbol = leaf := by
  simp [symbols]

@[simp]
theorem symbols_literal (constant : Literal) :
    (Expr.literal constant).symbols = [] := rfl

theorem forall_symbols_op {property : Symbol → Prop} {operation : Operation}
    {arguments : List Expr} :
    (∀ symbol ∈ (op operation arguments).symbols, property symbol) ↔
      ∀ argument ∈ arguments, ∀ symbol ∈ argument.symbols, property symbol := by
  simp only [mem_symbols_op]
  grind

theorem Occurs.declared {exprs : List Expr} {expr : Expr} (occurs : Occurs exprs expr)
    {inputs : List Symbol}
    (declared : ∀ root ∈ exprs, ∀ symbol ∈ root.symbols, symbol ∈ inputs) :
    ∀ symbol ∈ expr.symbols, symbol ∈ inputs := by
  induction occurs with
  | root member =>
      exact declared _ member
  | argument _ member inductionHypothesis =>
      intro symbol mentioned
      exact inductionHypothesis symbol (mem_symbols_op.mpr ⟨_, member, mentioned⟩)

/-! ## Substitution -/

@[simp]
theorem substitute_symbol (bindings : Bindings Expr) (leaf : Symbol) :
    (Expr.symbol leaf).substitute bindings =
      (bindings.get? leaf).getD (.symbol leaf) := rfl

@[simp]
theorem substitute_literal (bindings : Bindings Expr) (constant : Literal) :
    (Expr.literal constant).substitute bindings = .literal constant := rfl

@[simp]
theorem substitute_op (bindings : Bindings Expr) (operation : Operation)
    (arguments : List Expr) :
    (op operation arguments).substitute bindings =
      .op operation (arguments.map (substitute bindings)) := by
  rw [substitute, substituteAll_eq_map]

theorem substitute_empty : substitute Bindings.empty = id := by
  funext expr
  induction expr with
  | symbol leaf => rfl
  | literal constant => rfl
  | op operation arguments each =>
      rw [substitute_op, List.map_congr_left each, List.map_id, id]

/-- Substitution looks at the symbols of an expression only. -/
theorem substitute_congr {left right : Bindings Expr} {expr : Expr}
    (agree : ∀ symbol ∈ expr.symbols, left.get? symbol = right.get? symbol) :
    expr.substitute left = expr.substitute right := by
  induction expr with
  | symbol leaf =>
      simp [agree leaf (mem_symbols_symbol.mpr rfl)]
  | literal constant =>
      rfl
  | op operation arguments each =>
      rw [substitute_op, substitute_op]
      congr 1
      apply List.map_congr_left
      intro argument member
      apply each argument member
      intro symbol mentioned
      exact agree symbol (mem_symbols_op.mpr ⟨argument, member, mentioned⟩)

/-! ## Sameness -/

theorem sameAll_iff_forall₂ {left right : List Expr} :
    sameAll left right = true ↔
      List.Forall₂ (fun expr other => expr.same other = true) left right := by
  induction left generalizing right with
  | nil =>
      cases right <;> simp [sameAll]
  | cons expr others inductionHypothesis =>
      cases right with
      | nil =>
          simp [sameAll]
      | cons other rest =>
          simp [sameAll, inductionHypothesis]

theorem same_op_iff {operation : Operation} {arguments : List Expr}
    {other : Expr} :
    (op operation arguments).same other = true ↔
      ∃ arguments', other = .op operation arguments' ∧
        List.Forall₂ (fun expr other => expr.same other = true)
          arguments arguments' := by
  cases other with
  | symbol leaf =>
      simp [same]
  | literal constant =>
      simp [same]
  | op operation' arguments' =>
      simp only [same, Bool.and_eq_true, decide_eq_true_eq, sameAll_iff_forall₂,
        op.injEq]
      grind

theorem canonical_eq_of_canonicals_eq {exprs : List Expr}
    (canonical : canonicals exprs = exprs) :
    ∀ expr ∈ exprs, expr.canonical = expr := by
  induction exprs with
  | nil =>
      intro expr member
      exact absurd member List.not_mem_nil
  | cons first others inductionHypothesis =>
      rw [canonicals, List.cons.injEq] at canonical
      intro expr member
      rcases List.mem_cons.mp member with rfl | later
      · exact canonical.1
      · exact inductionHypothesis canonical.2 expr later

theorem nodeCount_canonical (expr : Expr) : expr.canonical.nodeCount = expr.nodeCount := by
  induction expr with
  | symbol leaf =>
      rfl
  | literal constant =>
      rfl
  | op operation arguments each =>
      have sums : nodeCounts (canonicals arguments) = nodeCounts arguments := by
        induction arguments with
        | nil =>
            rfl
        | cons first others inductionHypothesis =>
            rw [List.forall_mem_cons] at each
            rw [canonicals, nodeCounts, nodeCounts, each.1, inductionHypothesis each.2]
      rw [canonical, nodeCount, nodeCount, sums]

theorem nodeCount_eq_of_same {left right : Expr} (same : left.same right = true) :
    left.nodeCount = right.nodeCount := by
  rw [← nodeCount_canonical left, ← nodeCount_canonical right, (same_iff left right).mp same]

theorem isAtom_eq_of_same {left right : Expr} (same : left.same right = true) :
    left.isAtom = right.isAtom := by
  cases left <;> cases right <;> simp_all [Expr.same, isAtom]

theorem symbols_eq_of_same {left right : Expr} (same : left.same right = true) :
    left.symbols = right.symbols := by
  induction left generalizing right with
  | symbol leaf =>
      cases right with
      | symbol leaf' => rw [symbols, symbols, of_decide_eq_true same]
      | literal constant => cases same
      | op operation arguments => cases same
  | literal constant =>
      cases right with
      | literal constant' => rfl
      | symbol leaf => cases same
      | op operation arguments => cases same
  | op operation arguments each =>
      obtain ⟨arguments', rfl, pairwise⟩ := same_op_iff.mp same
      rw [symbols, symbols]
      clear same
      induction pairwise with
      | nil => rfl
      | cons headSame _ inductionHypothesis =>
          rw [List.forall_mem_cons] at each
          rw [symbolsOf, symbolsOf, each.1 headSame, inductionHypothesis each.2]

theorem same_substitute (bindings : Bindings Expr) {left right : Expr}
    (same : left.same right = true) :
    (left.substitute bindings).same (right.substitute bindings) = true := by
  induction left generalizing right with
  | symbol leaf =>
      cases right with
      | symbol leaf' => rw [of_decide_eq_true same]; exact same_refl _
      | literal constant => cases same
      | op operation arguments => cases same
  | literal constant =>
      cases right with
      | literal constant' => exact same
      | symbol leaf => cases same
      | op operation arguments => cases same
  | op operation arguments each =>
      obtain ⟨arguments', rfl, pairwise⟩ := same_op_iff.mp same
      rw [substitute_op, substitute_op]
      refine same_op_iff.mpr ⟨_, rfl, ?_⟩
      rw [List.forall₂_map_left_iff, List.forall₂_map_right_iff]
      clear same
      induction pairwise with
      | nil => exact .nil
      | cons headSame _ inductionHypothesis =>
          rw [List.forall_mem_cons] at each
          exact .cons (each.1 headSame) (inductionHypothesis each.2)

/-! ## Membership -/

theorem memberOf_iff {expr : Expr} {exprs : List Expr} :
    expr.memberOf exprs = true ↔
      ∃ member ∈ exprs, member.same expr = true := by
  simp [memberOf]

theorem memberOf_of_same {left right : Expr} {exprs : List Expr}
    (same : left.same right = true) (member : left.memberOf exprs = true) :
    right.memberOf exprs = true := by
  obtain ⟨found, foundMember, foundSame⟩ := memberOf_iff.mp member
  exact memberOf_iff.mpr ⟨found, foundMember, same_trans foundSame same⟩

theorem memberOf_mono {expr : Expr} {exprs others : List Expr} (subset : exprs ⊆ others)
    (member : expr.memberOf exprs = true) : expr.memberOf others = true := by
  obtain ⟨found, foundMember, same⟩ := memberOf_iff.mp member
  exact memberOf_iff.mpr ⟨found, subset foundMember, same⟩

theorem memberOf_of_mem {expr : Expr} {exprs : List Expr} (member : expr ∈ exprs) :
    expr.memberOf exprs = true :=
  memberOf_iff.mpr ⟨expr, member, same_refl expr⟩

end LieScribe.Expr
