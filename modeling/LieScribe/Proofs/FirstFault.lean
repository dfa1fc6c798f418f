import LieScribe.Expr.WellFormed
import LieScribe.Proofs.Expr
import LieScribe.Proofs.Outcome

/-!
# The first fault of a walk

The nodes of a tree are listed from the root downward and from left to right.  A walk that
stops at the first node with a fault ends with the first fault of this list, and with a
result if there is none.  `Outcome.fault?` forgets the result of a walk, so that walks with
different results are compared by their faults: the faults of two steps, one after the other,
are those of the first and then those of the second.

The check of an expression is such a walk, for operations that do not accept the number of
their arguments.
-/

namespace LieScribe

namespace Outcome

variable {ε α β : Type}

/-- The fault that a computation ends with, if it has no result. -/
def fault? : Except ε α → Option ε
  | .ok _ => none
  | .error fault => some fault

@[simp]
theorem fault?_ok (result : α) : fault? (.ok result : Except ε α) = none := rfl

@[simp]
theorem fault?_error (fault : ε) : fault? (.error fault : Except ε α) = some fault := rfl

theorem fault?_eq_none_iff {outcome : Except ε α} :
    fault? outcome = none ↔ ∃ result, outcome = .ok result := by
  cases outcome <;> simp

theorem fault?_eq_some_iff {outcome : Except ε α} {fault : ε} :
    fault? outcome = some fault ↔ outcome = .error fault := by
  cases outcome <;> simp

/-- The fault of the first step comes before the one of the second, which must not depend on
the result of the first. -/
theorem fault?_bind {first : Except ε α} {next : α → Except ε β} {later : Option ε}
    (second : ∀ result, first = .ok result → fault? (next result) = later) :
    fault? (first >>= next) = (fault? first).or later := by
  cases first with
  | error fault => rfl
  | ok result => exact second result rfl

/-- A second step that always has a result adds no fault. -/
theorem fault?_bind_of_ok {first : Except ε α} {next : α → Except ε β}
    (second : ∀ result, first = .ok result → ∃ value, next result = .ok value) :
    fault? (first >>= next) = fault? first := by
  rw [fault?_bind fun result given => fault?_eq_none_iff.mpr (second result given), Option.or_none]

/-- A check that passes has no fault. -/
theorem fault?_checked {check : Except ε Unit} {next : Except ε α} (passes : check = .ok ()) :
    fault? (do check; next) = fault? next := by
  rw [passes]
  rfl

end Outcome

namespace Expr

/-! ## Nodes -/

mutual

/-- The nodes of a tree, from the root downward and from left to right. -/
def nodes : Expr → List Expr
  | .symbol leaf => [.symbol leaf]
  | .literal constant => [.literal constant]
  | .op operation arguments => .op operation arguments :: nodesOf arguments

def nodesOf : List Expr → List Expr
  | [] => []
  | expr :: others => expr.nodes ++ nodesOf others

end

theorem nodes_of_isAtom {expr : Expr} (atom : expr.isAtom = true) : expr.nodes = [expr] := by
  cases expr with
  | symbol leaf => rfl
  | literal constant => rfl
  | op operation arguments => cases atom

theorem nodesOf_singleton (expr : Expr) : nodesOf [expr] = expr.nodes := by
  rw [nodesOf, nodesOf, List.append_nil]

theorem nodesOf_eq_flatMap (exprs : List Expr) : nodesOf exprs = exprs.flatMap nodes := by
  induction exprs with
  | nil =>
      rfl
  | cons expr others inductionHypothesis =>
      rw [nodesOf, inductionHypothesis, List.flatMap_cons]

theorem forall_nodes_op {property : Expr → Prop} {operation : Operation} {arguments : List Expr} :
    (∀ node ∈ nodes (.op operation arguments), property node) ↔
      property (.op operation arguments) ∧
        ∀ argument ∈ arguments, ∀ node ∈ argument.nodes, property node := by
  rw [nodes, List.forall_mem_cons, nodesOf_eq_flatMap, List.forall_mem_flatMap]

/-- A search through the nodes of an operation looks at the operation before its arguments. -/
theorem findSome?_nodes_op {α : Type} (find? : Expr → Option α) (operation : Operation)
    (arguments : List Expr) :
    (nodes (.op operation arguments)).findSome? find? =
      (find? (.op operation arguments)).or ((nodesOf arguments).findSome? find?) := by
  rw [nodes, List.findSome?_cons]
  cases find? (.op operation arguments) <;> rfl

theorem findSome?_nodesOf_cons {α : Type} (find? : Expr → Option α) (expr : Expr)
    (others : List Expr) :
    (nodesOf (expr :: others)).findSome? find? =
      (expr.nodes.findSome? find?).or ((nodesOf others).findSome? find?) := by
  rw [nodesOf, List.findSome?_append]

theorem mem_nodesOf_iff {exprs : List Expr} {node : Expr} :
    node ∈ nodesOf exprs ↔ Occurs exprs node := by
  induction exprs using forestInduct with
  | nil =>
      simp [nodesOf, not_occurs_nil]
  | atom first others atom ofOthers =>
      have childless : first.arguments = [] := by
        cases first with
        | symbol leaf => rfl
        | literal constant => rfl
        | op operation arguments => cases atom
      rw [nodesOf, nodes_of_isAtom atom, List.mem_append, List.mem_singleton, ofOthers,
        occurs_cons_iff, childless, or_iff_right (not_occurs_nil node)]
  | op operation arguments others ofArguments ofOthers =>
      rw [nodesOf, nodes, List.cons_append, List.mem_cons, List.mem_append, ofArguments,
        ofOthers, occurs_cons_iff, Expr.arguments]

theorem mem_nodes_iff {expr node : Expr} : node ∈ expr.nodes ↔ Occurs [expr] node := by
  rw [← nodesOf_singleton, mem_nodesOf_iff]

/-- The symbols of an expression are the nodes that are symbols, in the same order. -/
theorem symbolsOf_eq_filterMap (exprs : List Expr) :
    symbolsOf exprs = (nodesOf exprs).filterMap symbol? := by
  induction exprs using forestInduct with
  | nil =>
      rfl
  | atom first others atom ofOthers =>
      rw [symbolsOf, nodesOf, List.filterMap_append, ofOthers]
      cases first with
      | symbol leaf => rfl
      | literal constant => rfl
      | op operation arguments => cases atom
  | op operation arguments others ofArguments ofOthers =>
      rw [symbolsOf, symbols, nodesOf, nodes, List.filterMap_append, ofArguments, ofOthers]
      rfl

theorem symbols_eq_filterMap (expr : Expr) : expr.symbols = expr.nodes.filterMap symbol? := by
  rw [← nodesOf_singleton, ← symbolsOf_eq_filterMap, symbolsOf, symbolsOf, List.append_nil]

theorem mem_symbols_iff_mem_nodes {expr : Expr} {leaf : Symbol} :
    leaf ∈ expr.symbols ↔ .symbol leaf ∈ expr.nodes := by
  rw [symbols_eq_filterMap, List.mem_filterMap]
  constructor
  · rintro ⟨node, member, isLeaf⟩
    cases node with
    | symbol found => cases isLeaf; exact member
    | literal constant => cases isLeaf
    | op operation arguments => cases isLeaf
  · exact fun member => ⟨.symbol leaf, member, rfl⟩

/-! ## Numbers of arguments -/

/-- The fault of an operation that does not accept the number of its arguments. -/
def arityFault? : Expr → Option Fault
  | .op operation arguments =>
      if operation.arity.accepts arguments.length then
        none
      else
        some (.malformedOperation operation.name operation.arity arguments.length)
  | _ => none

theorem fault?_checkCount (operation : Operation) (arguments : List Expr) :
    Outcome.fault? (operation.checkCount arguments.length) =
      (Expr.op operation arguments).arityFault? := by
  rw [Operation.checkCount, arityFault?]
  split <;> rfl

theorem fault?_checkAll (exprs : List Expr) :
    Outcome.fault? (checkAll exprs) = (nodesOf exprs).findSome? arityFault? := by
  induction exprs using forestInduct with
  | nil =>
      rfl
  | atom first others atom ofOthers =>
      rw [findSome?_nodesOf_cons, ← ofOthers]
      cases first with
      | symbol leaf => rfl
      | literal constant => rfl
      | op operation arguments => cases atom
  | op operation arguments others ofArguments ofOthers =>
      rw [checkAll, Outcome.fault?_bind fun _ _ => ofOthers, check,
        Outcome.fault?_bind fun _ _ => ofArguments, fault?_checkCount, findSome?_nodesOf_cons,
        findSome?_nodes_op]

/-- The check of an expression ends with its first operation that does not accept the number
of its arguments. -/
theorem fault?_check (expr : Expr) :
    Outcome.fault? expr.check = expr.nodes.findSome? arityFault? := by
  have alone := fault?_checkAll [expr]
  rwa [checkAll, Outcome.fault?_bind fun _ _ => rfl, checkAll, Outcome.fault?_ok, Option.or_none,
    nodesOf_singleton] at alone

end Expr

end LieScribe
