import LieScribe.Expr.WellFormed
import LieScribe.Proofs.Evaluation
import LieScribe.Proofs.Renaming

/-!
# Applications

Which operations are applied in a list of expressions, and to how many arguments.  Expressions
are well formed exactly if every operation accepts the number of arguments it is applied to.
Equal expressions have the same applications, and a substitution keeps those that are there
and adds those of the expressions it puts in.  Whether expressions have values depends on
their applications and on which of their symbols are bound, and on nothing else.
-/

namespace LieScribe.Expr

/-- Somewhere in the expressions an operation is applied to so many arguments. -/
def Applies (exprs : List Expr) (operation : Operation) (count : Nat) : Prop :=
  ∃ arguments : List Expr, arguments.length = count ∧ Occurs exprs (.op operation arguments)

variable {operation : Operation} {count : Nat} {exprs others : List Expr} {expr : Expr}

/-! ## Lists of expressions -/

@[simp]
theorem not_applies_nil : ¬ Applies [] operation count := by
  rintro ⟨arguments, _, occurs⟩
  exact not_occurs_nil _ occurs

theorem applies_cons_atom (atom : expr.isAtom = true) :
    Applies (expr :: others) operation count ↔ Applies others operation count := by
  refine exists_congr fun arguments => and_congr_right fun _ => ?_
  rw [occurs_cons_iff]
  cases expr with
  | symbol leaf => simp [Expr.arguments, not_occurs_nil]
  | literal constant => simp [Expr.arguments, not_occurs_nil]
  | op applied arguments => cases atom

theorem not_applies_atom (atom : expr.isAtom = true) : ¬ Applies [expr] operation count := by
  rw [applies_cons_atom atom]
  exact not_applies_nil

theorem applies_cons_op {applied : Operation} {arguments : List Expr} :
    Applies (.op applied arguments :: others) operation count ↔
      (applied = operation ∧ arguments.length = count) ∨
        Applies arguments operation count ∨ Applies others operation count := by
  constructor
  · rintro ⟨found, rightCount, occurs⟩
    rcases occurs_cons_iff.mp occurs with equal | inside | later
    · cases equal
      exact .inl ⟨rfl, rightCount⟩
    · exact .inr (.inl ⟨found, rightCount, inside⟩)
    · exact .inr (.inr ⟨found, rightCount, later⟩)
  · rintro (⟨rfl, rightCount⟩ | ⟨found, rightCount, inside⟩ | ⟨found, rightCount, later⟩)
    · exact ⟨arguments, rightCount, .root List.mem_cons_self⟩
    · exact ⟨found, rightCount, inside.inside⟩
    · exact ⟨found, rightCount, later.tail⟩

theorem applies_append :
    Applies (exprs ++ others) operation count ↔
      Applies exprs operation count ∨ Applies others operation count := by
  induction exprs using forestInduct with
  | nil =>
      simp
  | atom first rest atom ofRest =>
      rw [List.cons_append, applies_cons_atom atom, applies_cons_atom atom, ofRest]
  | op applied arguments rest _ ofRest =>
      rw [List.cons_append, applies_cons_op, applies_cons_op, ofRest, or_assoc, or_assoc]

theorem applies_cons :
    Applies (expr :: others) operation count ↔
      Applies [expr] operation count ∨ Applies others operation count := by
  rw [← List.singleton_append, applies_append]

/-- What is applied in parts of expressions is applied in the expressions. -/
theorem Applies.mono (applies : Applies exprs operation count)
    (each : ∀ expr ∈ exprs, Occurs others expr) : Applies others operation count := by
  obtain ⟨arguments, rightCount, occurs⟩ := applies
  exact ⟨arguments, rightCount, occurs.mono each⟩

theorem Applies.exists_mem (applies : Applies exprs operation count) :
    ∃ expr ∈ exprs, Applies [expr] operation count := by
  induction exprs with
  | nil =>
      exact absurd applies not_applies_nil
  | cons first rest inductionHypothesis =>
      rcases applies_cons.mp applies with inFirst | inRest
      · exact ⟨first, List.mem_cons_self, inFirst⟩
      · obtain ⟨found, member, inFound⟩ := inductionHypothesis inRest
        exact ⟨found, List.mem_cons_of_mem _ member, inFound⟩

/-! ## Well-formed expressions -/

theorem checkAll_eq_ok_iff :
    checkAll exprs = .ok () ↔ ∀ expr ∈ exprs, expr.check = .ok () := by
  induction exprs with
  | nil =>
      simp [checkAll]
  | cons first others inductionHypothesis =>
      rw [checkAll, Outcome.check_eq_ok_iff, inductionHypothesis, List.forall_mem_cons]

theorem checkAll_eq_ok_iff_applies :
    checkAll exprs = .ok () ↔
      ∀ operation count, Applies exprs operation count → operation.arity.accepts count = true := by
  induction exprs using forestInduct with
  | nil =>
      simp [checkAll]
  | atom first others atom ofOthers =>
      have passes : first.check = .ok () := by
        cases first with
        | symbol leaf => rfl
        | literal constant => rfl
        | op applied arguments => cases atom
      rw [checkAll, Outcome.check_eq_ok_iff, ofOthers]
      simp only [passes, true_and, applies_cons_atom atom]
  | op applied arguments others ofArguments ofOthers =>
      rw [checkAll, Outcome.check_eq_ok_iff, check, Outcome.check_eq_ok_iff, ofArguments,
        ofOthers, Operation.checkCount_eq_ok_iff]
      simp only [applies_cons_op]
      constructor
      · rintro ⟨⟨here, below⟩, later⟩ operation count (⟨rfl, rfl⟩ | inside | inOthers)
        · exact here
        · exact below operation count inside
        · exact later operation count inOthers
      · intro each
        exact ⟨⟨each applied _ (.inl ⟨rfl, rfl⟩),
            fun operation count inside => each operation count (.inr (.inl inside))⟩,
          fun operation count inOthers => each operation count (.inr (.inr inOthers))⟩

theorem check_eq_ok_iff_applies :
    expr.check = .ok () ↔
      ∀ operation count, Applies [expr] operation count →
        operation.arity.accepts count = true := by
  rw [← checkAll_eq_ok_iff_applies, checkAll_eq_ok_iff, List.forall_mem_singleton]

theorem Occurs.check (occurs : Occurs exprs expr)
    (checked : ∀ expr ∈ exprs, expr.check = .ok ()) : expr.check = .ok () := by
  induction occurs with
  | root member =>
      exact checked _ member
  | argument _ member inductionHypothesis =>
      rw [Expr.check, Outcome.check_eq_ok_iff] at inductionHypothesis
      exact checkAll_eq_ok_iff.mp inductionHypothesis.2 _ member

/-! ## Sameness and substitution -/

/-- Equal expressions have the same applications. -/
theorem applies_iff_of_same
    (pairwise : List.Forall₂ (fun expr other => expr.same other = true) exprs others) :
    Applies exprs operation count ↔ Applies others operation count := by
  induction exprs using forestInduct generalizing others with
  | nil =>
      obtain rfl := List.forall₂_nil_left_iff.mp pairwise
      rfl
  | atom first rest atom ofRest =>
      obtain ⟨other, remaining, same, restPairwise, rfl⟩ :=
        List.forall₂_cons_left_iff.mp pairwise
      rw [applies_cons_atom atom, applies_cons_atom ((isAtom_eq_of_same same).symm.trans atom),
        ofRest restPairwise]
  | op applied arguments rest ofArguments ofRest =>
      obtain ⟨other, remaining, same, restPairwise, rfl⟩ :=
        List.forall₂_cons_left_iff.mp pairwise
      obtain ⟨arguments', rfl, argumentsPairwise⟩ := same_op_iff.mp same
      rw [applies_cons_op, applies_cons_op, ofArguments argumentsPairwise, ofRest restPairwise,
        argumentsPairwise.length_eq]

/-- A substitution keeps all applications and adds those of the expressions put in. -/
theorem applies_map_substitute_iff {bindings : Bindings Expr} :
    Applies (exprs.map (substitute bindings)) operation count ↔
      Applies exprs operation count ∨
        ∃ symbol ∈ symbolsOf exprs, ∃ put, bindings.get? symbol = some put ∧
          Applies [put] operation count := by
  induction exprs using forestInduct with
  | nil =>
      simp [symbolsOf]
  | atom first rest atom ofRest =>
      rw [List.map_cons, applies_cons, ofRest, applies_cons_atom atom]
      cases first with
      | symbol leaf =>
          simp only [symbolsOf, symbols, List.singleton_append, List.mem_cons, exists_eq_or_imp,
            substitute_symbol]
          cases found : bindings.get? leaf with
          | none => simp [not_applies_atom atom]
          | some put =>
              simp only [Option.getD_some, Option.some.injEq, exists_eq_left']
              exact or_left_comm
      | literal constant =>
          simp [symbolsOf, symbols, not_applies_atom atom]
      | op applied arguments => cases atom
  | op applied arguments rest ofArguments ofRest =>
      rw [List.map_cons, substitute_op, applies_cons_op, applies_cons_op, ofArguments, ofRest,
        List.length_map, symbolsOf, symbols]
      simp only [List.mem_append]
      grind

/-- A renaming changes no application. -/
theorem applies_map_substitute_of_renames {bindings : Bindings Expr} {rename : Symbol → Symbol}
    (renames : bindings.Renames rename) :
    Applies (exprs.map (substitute bindings)) operation count ↔
      Applies exprs operation count := by
  rw [applies_map_substitute_iff, or_iff_left]
  rintro ⟨symbol, _, put, found, applies⟩
  have isSymbol := renames symbol
  rw [substitute_symbol, found, Option.getD_some] at isSymbol
  rw [isSymbol] at applies
  exact not_applies_atom rfl applies

theorem check_substitute_of_renames {bindings : Bindings Expr} {rename : Symbol → Symbol}
    (renames : bindings.Renames rename) (checked : expr.check = .ok ()) :
    (expr.substitute bindings).check = .ok () := by
  rw [check_eq_ok_iff_applies] at checked ⊢
  intro operation count applies
  exact checked operation count ((applies_map_substitute_of_renames renames).mp applies)

/-! ## Values -/

/-- Expressions have values exactly if every operation in them is interpreted and accepts
the number of its arguments, and every symbol in them is bound. -/
theorem forall_exists_evaluateIn_iff_applies {α : Type} {arithmetic : Arithmetic α}
    {bindings : Bindings α} :
    (∀ expr ∈ exprs, ∃ value, expr.evaluateIn arithmetic bindings = .ok value) ↔
      (∀ operation count, Applies exprs operation count →
        operation.arity.accepts count = true ∧ operation.isFunction = false) ∧
        ∀ symbol ∈ symbolsOf exprs, ∃ value, bindings.get? symbol = some value := by
  induction exprs using forestInduct with
  | nil =>
      simp [symbolsOf]
  | atom first others atom ofOthers =>
      rw [List.forall_mem_cons, ofOthers, symbolsOf]
      simp only [applies_cons_atom atom, List.mem_append, or_imp, forall_and]
      cases first with
      | symbol leaf =>
          cases found : bindings.get? leaf <;> simp [evaluateIn, symbols, found]
      | literal constant => simp [evaluateIn]
      | op applied arguments => cases atom
  | op applied arguments others ofArguments ofOthers =>
      rw [List.forall_mem_cons, ofOthers, exists_evaluateIn_op_eq_ok_iff, ofArguments, symbolsOf,
        symbols]
      simp only [applies_cons_op, List.mem_append]
      grind

end LieScribe.Expr
