import LieScribe.Proofs.Evaluation
import LieScribe.Proofs.FirstFault
import LieScribe.Proofs.Writing

/-!
# Traversals

Writing an expression and evaluating it are walks over the same nodes, and both stop at a
function and at an operation that does not accept the number of its arguments; evaluation
also stops at a symbol that is not bound.  Each walk ends with the report of the first node
that it stops at.  Where a walk gets as far as applying an operation, the operation takes as
many arguments as it is given, so that no argument is missing.
-/

namespace LieScribe

/-! ## Faulty nodes -/

namespace Expr

/-- A node that can be neither written nor evaluated, whatever its symbols stand for: a
function, or an operation that does not accept the number of its arguments. -/
def isFaulty : Expr → Bool
  | .op operation arguments =>
      operation.isFunction || !operation.arity.accepts arguments.length
  | _ => false

/-- The fault of a node, where functions are reported as `refused`. -/
def fault? (refused : String → Fault) : Expr → Option Fault
  | .op operation arguments =>
      if operation.isFunction then
        some (refused operation.name)
      else
        (Expr.op operation arguments).arityFault?
  | _ => none

theorem fault?_op_of_isFunction {operation : Operation} (refused : String → Fault)
    (arguments : List Expr) (function : operation.isFunction = true) :
    (Expr.op operation arguments).fault? refused = some (refused operation.name) := by
  rw [Expr.fault?, if_pos function]

theorem fault?_op_of_interpreted {operation : Operation} (refused : String → Fault)
    (arguments : List Expr) (interpreted : operation.isFunction = false) :
    (Expr.op operation arguments).fault? refused =
      Outcome.fault? (operation.checkCount arguments.length) := by
  rw [Expr.fault?, if_neg (Bool.eq_false_iff.mp interpreted), fault?_checkCount]

theorem isSome_fault? (refused : String → Fault) (node : Expr) :
    (node.fault? refused).isSome = node.isFaulty := by
  cases node with
  | symbol leaf => rfl
  | literal constant => rfl
  | op operation arguments =>
      rw [Expr.fault?, isFaulty, arityFault?]
      cases operation.isFunction <;> cases operation.arity.accepts arguments.length <;> rfl

theorem fault?_of_isFaulty {operation : Operation} {arguments : List Expr}
    (refused : String → Fault) (faulty : (Expr.op operation arguments).isFaulty = true) :
    (Expr.op operation arguments).fault? refused =
      some (if operation.isFunction then
          refused operation.name
        else
          .malformedOperation operation.name operation.arity arguments.length) := by
  rw [isFaulty] at faulty
  cases interpreted : operation.isFunction with
  | true => rw [fault?_op_of_isFunction refused arguments interpreted, if_pos rfl]
  | false =>
      rw [interpreted, Bool.false_or, Bool.not_eq_true'] at faulty
      rw [fault?_op_of_interpreted refused arguments interpreted, Operation.checkCount, faulty]
      rfl

/-- Without functions, the faulty nodes are the ones that a check reports. -/
theorem fault?_eq_arityFault? {node : Expr} (refused : String → Fault)
    (interpreted : ∀ operation arguments, node = .op operation arguments →
      operation.isFunction = false) :
    node.fault? refused = node.arityFault? := by
  cases node with
  | symbol leaf => rfl
  | literal constant => rfl
  | op operation arguments =>
      rw [fault?_op_of_interpreted refused arguments (interpreted operation arguments rfl),
        fault?_checkCount]

/-- The first fault of a list of nodes is the fault of the first node that has one. -/
theorem findSome?_eq_bind_find? {fault? : Expr → Option Fault} {stops : Expr → Bool}
    (reported : ∀ node, (fault? node).isSome = stops node) (nodes : List Expr) :
    nodes.findSome? fault? = (nodes.find? stops).bind fault? := by
  induction nodes with
  | nil =>
      rfl
  | cons first others inductionHypothesis =>
      rw [List.findSome?_cons, List.find?_cons, ← reported first]
      cases found : fault? first with
      | none => exact inductionHypothesis
      | some fault => exact found.symm

theorem findSome?_eq_none_iff {fault? : Expr → Option Fault} {stops : Expr → Bool}
    (reported : ∀ node, (fault? node).isSome = stops node) {nodes : List Expr} :
    nodes.findSome? fault? = none ↔ ∀ node ∈ nodes, stops node = false := by
  simp only [List.findSome?_eq_none_iff, ← reported, Option.isSome_eq_false_iff,
    Option.isNone_iff_eq_none]

/-- A search that finds a fault is followed by any other search that stays quiet where the
first one does. -/
theorem findSome?_eq_some_of_imp {fault? other? : Expr → Option Fault} {nodes : List Expr}
    {fault : Fault} (quiet : ∀ node ∈ nodes, fault? node = none → other? node = none)
    (alike : ∀ node ∈ nodes, fault? node = some fault → other? node = some fault)
    (found : nodes.findSome? fault? = some fault) : nodes.findSome? other? = some fault := by
  obtain ⟨before, node, after, rfl, reported, earlier⟩ := List.findSome?_eq_some_iff.mp found
  refine List.findSome?_eq_some_iff.mpr ⟨before, node, after, rfl, ?_, fun early member => ?_⟩
  · exact alike node (List.mem_append_right before List.mem_cons_self) reported
  · exact quiet early (List.mem_append_left _ member) (earlier early member)

end Expr

/-! ## Writing -/

/-- Every operation but a function needs an argument. -/
theorem Operation.pos_of_accepts (operation : Operation) {count : Nat}
    (interpreted : operation.isFunction = false)
    (accepted : operation.arity.accepts count = true) : 0 < count := by
  by_contra none
  rw [Nat.eq_zero_of_not_pos none] at accepted
  cases operation <;> simp_all [Operation.arity, Arity.accepts, Operation.isFunction]

namespace Target

variable {target : Target}

/-- Every target has a text for the operations other than sums and functions. -/
theorem exists_combine?_eq_some (target : Target) {operation : Operation}
    {operands : List Operand} (accepted : operation.arity.accepts operands.length = true)
    (notAdd : operation ≠ .add) (interpreted : operation.isFunction = false) :
    ∃ fragment, target.combine? operation operands = some fragment := by
  rcases operands with _ | ⟨first, _ | ⟨second, _ | ⟨third, others⟩⟩⟩ <;>
    cases operation <;> cases target <;>
    simp_all [combine?, Python.combine?, Cpp.combine?, Python.callee?, Cpp.callee?,
      Operation.comparisonSign?, Operation.arity, Arity.accepts, Operation.isFunction]

theorem checkSupport_eq_ok_iff {operation : Operation} :
    target.checkSupport operation = .ok () ↔ operation.isFunction = false := by
  cases operation <;> simp [checkSupport, Operation.isFunction]

theorem length_of_writeAll {arguments : List Expr} {operands : List Operand}
    (written : target.writeAll arguments = .ok operands) :
    operands.length = arguments.length := by
  induction arguments generalizing operands with
  | nil =>
      cases written
      rfl
  | cons argument others inductionHypothesis =>
      obtain ⟨_, further, _, ofOthers, rfl⟩ := writeAll_cons_eq_ok_iff.mp written
      rw [List.length_cons, List.length_cons, inductionHypothesis ofOthers]

/-- Once its arguments are written, an operation has as many of them as it accepts, and a
text unless it is a sum. -/
theorem combines_of_written {operation : Operation} {arguments : List Expr}
    {operands : List Operand} (counted : operation.checkCount arguments.length = .ok ())
    (supported : target.checkSupport operation = .ok ())
    (written : target.writeAll arguments = .ok operands) :
    operation.arity.accepts operands.length = true ∧ 0 < operands.length ∧
      (operation ≠ .add → ∃ fragment, target.combine? operation operands = some fragment) := by
  have interpreted := checkSupport_eq_ok_iff.mp supported
  have accepted := Operation.checkCount_eq_ok_iff.mp counted
  rw [← length_of_writeAll written] at accepted
  exact ⟨accepted, operation.pos_of_accepts interpreted accepted,
    fun notAdd => target.exists_combine?_eq_some accepted notAdd interpreted⟩

/-- The fault that writing reports at a node. -/
def nodeFault? (target : Target) : Expr → Option Fault :=
  Expr.fault? (.unsupportedOperation · target)

/-- Writing an operation other than a sum ends with the fault of the operation, and then with
the first one of its arguments. -/
theorem fault?_write_op {operation : Operation} {arguments : List Expr} {inside : Option Fault}
    (notSum : ∀ first others, operation = .add → arguments = first :: others → False)
    (ofArguments : Outcome.fault? (target.writeAll arguments) = inside) :
    Outcome.fault? (target.write (.op operation arguments)) =
      (target.nodeFault? (.op operation arguments)).or inside := by
  rw [write.eq_4 _ _ _ notSum, nodeFault?]
  cases interpreted : operation.isFunction with
  | true =>
      cases operation with
      | function name => rfl
      | _ => cases interpreted
  | false =>
      rw [Expr.fault?_op_of_interpreted _ arguments interpreted]
      refine Outcome.fault?_bind fun _ counted => ?_
      have supported : target.checkSupport operation = .ok () :=
        checkSupport_eq_ok_iff.mpr interpreted
      rw [Outcome.fault?_checked supported, ← ofArguments]
      refine Outcome.fault?_bind_of_ok fun operands written => ?_
      have notAdd := ne_add_of_accepts (Operation.checkCount_eq_ok_iff.mp counted) notSum
      obtain ⟨fragment, found⟩ := (combines_of_written counted supported written).2.2 notAdd
      exact ⟨fragment, by rw [found]⟩

/-- Writing ends with the first fault among the nodes. -/
theorem fault?_write (target : Target) (expr : Expr) :
    Outcome.fault? (target.write expr) = expr.nodes.findSome? target.nodeFault? := by
  -- `write_induct` says nothing about faults, so this goes by the recursion of the walk.
  have walk := write.mutual_induct
    (fun expr => Outcome.fault? (target.write expr) = expr.nodes.findSome? target.nodeFault?)
    (fun arguments => Outcome.fault? (target.writeAll arguments) =
      (Expr.nodesOf arguments).findSome? target.nodeFault?)
    (fun others => Outcome.fault? (target.writeTerms others) =
      (Expr.nodesOf others).findSome? target.nodeFault?)
  refine (walk ?symbol ?literal ?sum ?combined ?noOperands ?operands ?noTerms ?negated
    ?literalTerm ?plain).1 expr
  case symbol =>
    intro leaf
    rfl
  case literal =>
    intro constant
    rfl
  case sum =>
    intro first others ofFirst ofOthers
    have terms : ∀ head, Outcome.fault? (do
        let terms ← target.writeTerms others
        return Fragment.sum head terms) = Outcome.fault? (target.writeTerms others) :=
      fun head => Outcome.fault?_bind_of_ok fun terms _ => ⟨_, rfl⟩
    rw [write, Outcome.fault?_bind fun _ _ => Outcome.fault?_bind fun head _ => terms head, ofFirst,
      ofOthers, Expr.findSome?_nodes_op, Expr.findSome?_nodesOf_cons, nodeFault?,
      Expr.fault?_op_of_interpreted _ _ rfl]
  case combined =>
    intro operation arguments notSum ofArguments
    rw [Expr.findSome?_nodes_op, fault?_write_op notSum ofArguments]
  case noOperands =>
    rfl
  case operands =>
    intro argument others ofArgument ofOthers
    rw [writeAll, Expr.findSome?_nodesOf_cons, ← ofArgument, ← ofOthers]
    exact Outcome.fault?_bind fun _ _ => Outcome.fault?_bind_of_ok fun _ _ => ⟨_, rfl⟩
  case noTerms =>
    rfl
  case negated =>
    intro operand others ofOperand ofOthers
    -- The change of sign itself has one argument, so no fault is lost by not writing it.
    have signed : (Expr.nodes (.op .neg [operand])).findSome? target.nodeFault? =
        operand.nodes.findSome? target.nodeFault? := by
      rw [Expr.findSome?_nodes_op, Expr.nodesOf_singleton]
      rfl
    rw [writeTerms, Expr.findSome?_nodesOf_cons, signed, ← ofOperand, ← ofOthers]
    exact Outcome.fault?_bind fun _ _ => Outcome.fault?_bind_of_ok fun _ _ => ⟨_, rfl⟩
  case literalTerm =>
    intro constant others ofOthers
    rw [writeTerms, Expr.findSome?_nodesOf_cons, ← ofOthers]
    exact Outcome.fault?_bind_of_ok fun _ _ => ⟨_, rfl⟩
  case plain =>
    intro term others notNegated notLiteral ofTerm ofOthers
    rw [writeTerms.eq_4 _ _ _ notNegated notLiteral, Expr.findSome?_nodesOf_cons, ← ofTerm,
      ← ofOthers]
    exact Outcome.fault?_bind fun _ _ => Outcome.fault?_bind_of_ok fun _ _ => ⟨_, rfl⟩

theorem exists_write_eq_ok_iff {expr : Expr} :
    (∃ fragment, target.write expr = .ok fragment) ↔
      ∀ node ∈ expr.nodes, node.isFaulty = false := by
  rw [← Outcome.fault?_eq_none_iff, fault?_write, nodeFault?,
    Expr.findSome?_eq_none_iff (Expr.isSome_fault? _)]

theorem write_eq_error_of_find? {expr : Expr} {operation : Operation} {arguments : List Expr}
    (first : expr.nodes.find? Expr.isFaulty = some (.op operation arguments)) :
    target.write expr = .error (if operation.isFunction then
        .unsupportedOperation operation.name target
      else
        .malformedOperation operation.name operation.arity arguments.length) := by
  rw [← Outcome.fault?_eq_some_iff, fault?_write, nodeFault?,
    Expr.findSome?_eq_bind_find? (Expr.isSome_fault? _), first, Option.bind_some,
    Expr.fault?_of_isFaulty _ (List.find?_some first)]

end Target

/-! ## Evaluation -/

namespace Bindings

variable {α : Type}

/-- A node at which evaluation stops: a faulty one, or a symbol that is not bound. -/
def isStuck (bindings : Bindings α) : Expr → Bool
  | .symbol leaf => (bindings.get? leaf).isNone
  | node => node.isFaulty

/-- The fault that evaluation reports at a node. -/
def nodeFault? (bindings : Bindings α) : Expr → Option Fault
  | .symbol leaf => if (bindings.get? leaf).isNone then some (.unboundSymbol leaf) else none
  | node => node.fault? .uninterpretedFunction

theorem nodeFault?_op (bindings : Bindings α) (operation : Operation) (arguments : List Expr) :
    bindings.nodeFault? (.op operation arguments) =
      (Expr.op operation arguments).fault? .uninterpretedFunction := rfl

theorem isSome_nodeFault? (bindings : Bindings α) (node : Expr) :
    (bindings.nodeFault? node).isSome = bindings.isStuck node := by
  cases node with
  | symbol leaf =>
      rw [nodeFault?, isStuck]
      cases bindings.get? leaf <;> rfl
  | literal constant => rfl
  | op operation arguments =>
      rw [nodeFault?_op, Expr.isSome_fault?]
      rfl

end Bindings

namespace Expr

variable {α : Type} {arithmetic : Arithmetic α} {bindings : Bindings α}

/-- Once its arguments are evaluated, an operation has as many of them as it accepts, and a
value. -/
theorem applies_of_evaluated {operation : Operation} {arguments : List Expr} {values : List α}
    (counted : operation.checkCount arguments.length = .ok ())
    (supported : rejectFunction operation = .ok ())
    (evaluated : evaluateAllIn arithmetic bindings arguments = .ok values) :
    operation.arity.accepts values.length = true ∧ operation.isFunction = false ∧
      ∃ value, arithmetic.value? operation values = some value := by
  have interpreted := rejectFunction_eq_ok_iff.mp supported
  have accepted := Operation.checkCount_eq_ok_iff.mp counted
  rw [(evaluateAllIn_eq_ok_iff.mp evaluated).length_eq] at accepted
  exact ⟨accepted, interpreted, arithmetic.exists_value?_eq_some accepted interpreted⟩

/-- Evaluating an operation ends with the fault of the operation, and then with the first one
of its arguments. -/
theorem fault?_evaluateIn_op {operation : Operation} {arguments : List Expr}
    {inside : Option Fault}
    (ofArguments : Outcome.fault? (evaluateAllIn arithmetic bindings arguments) = inside) :
    Outcome.fault? ((op operation arguments).evaluateIn arithmetic bindings) =
      (bindings.nodeFault? (.op operation arguments)).or inside := by
  rw [evaluateIn, Bindings.nodeFault?_op]
  cases interpreted : operation.isFunction with
  | true =>
      cases operation with
      | function name => rfl
      | _ => cases interpreted
  | false =>
      rw [fault?_op_of_interpreted _ arguments interpreted]
      refine Outcome.fault?_bind fun _ counted => ?_
      have supported := rejectFunction_eq_ok_iff.mpr interpreted
      rw [Outcome.fault?_checked supported, ← ofArguments]
      refine Outcome.fault?_bind_of_ok fun values evaluated => ?_
      obtain ⟨value, computed⟩ := (applies_of_evaluated counted supported evaluated).2.2
      exact ⟨value, by rw [computed]⟩

theorem fault?_evaluateAllIn (exprs : List Expr) :
    Outcome.fault? (evaluateAllIn arithmetic bindings exprs) =
      (nodesOf exprs).findSome? bindings.nodeFault? := by
  induction exprs using forestInduct with
  | nil =>
      rfl
  | atom first others atom ofOthers =>
      rw [evaluateAllIn, findSome?_nodesOf_cons, nodes_of_isAtom atom, ← ofOthers]
      have here : Outcome.fault? (first.evaluateIn arithmetic bindings) =
          [first].findSome? bindings.nodeFault? := by
        cases first with
        | symbol leaf =>
            rw [evaluateIn, List.findSome?_cons, Bindings.nodeFault?]
            cases bindings.get? leaf <;> rfl
        | literal constant => rfl
        | op operation arguments => cases atom
      rw [← here]
      exact Outcome.fault?_bind fun _ _ => Outcome.fault?_bind_of_ok fun _ _ => ⟨_, rfl⟩
  | op operation arguments others ofArguments ofOthers =>
      rw [evaluateAllIn, findSome?_nodesOf_cons, findSome?_nodes_op,
        ← fault?_evaluateIn_op ofArguments, ← ofOthers]
      exact Outcome.fault?_bind fun _ _ => Outcome.fault?_bind_of_ok fun _ _ => ⟨_, rfl⟩

/-- Evaluation ends with the first fault among the nodes, unbound symbols included. -/
theorem fault?_evaluateIn (expr : Expr) :
    Outcome.fault? (expr.evaluateIn arithmetic bindings) =
      expr.nodes.findSome? bindings.nodeFault? := by
  rw [← nodesOf_singleton, ← fault?_evaluateAllIn, evaluateAllIn]
  exact (Outcome.fault?_bind_of_ok fun value _ => ⟨[value], rfl⟩).symm

theorem forall_isStuck_eq_false_iff {nodes : List Expr} :
    (∀ node ∈ nodes, bindings.isStuck node = false) ↔
      (∀ node ∈ nodes, node.isFaulty = false) ∧
        ∀ leaf, .symbol leaf ∈ nodes → ∃ value, bindings.get? leaf = some value := by
  have bound : ∀ leaf, bindings.isStuck (.symbol leaf) = false ↔
      ∃ value, bindings.get? leaf = some value := by
    intro leaf
    rw [Bindings.isStuck, Option.isNone_eq_false_iff, Option.isSome_iff_exists]
  constructor
  · intro passes
    refine ⟨fun node member => ?_, fun leaf member => (bound leaf).mp (passes _ member)⟩
    cases node with
    | symbol leaf => rfl
    | literal constant => rfl
    | op operation arguments => exact passes _ member
  · rintro ⟨sound, each⟩ node member
    cases node with
    | symbol leaf => exact (bound leaf).mpr (each leaf member)
    | literal constant => rfl
    | op operation arguments => exact sound _ member

theorem exists_evaluateIn_eq_ok_iff {expr : Expr} :
    (∃ value, expr.evaluateIn arithmetic bindings = .ok value) ↔
      (∀ node ∈ expr.nodes, node.isFaulty = false) ∧
        ∀ leaf, .symbol leaf ∈ expr.nodes → ∃ value, bindings.get? leaf = some value := by
  rw [← Outcome.fault?_eq_none_iff, fault?_evaluateIn,
    findSome?_eq_none_iff bindings.isSome_nodeFault?, forall_isStuck_eq_false_iff]

theorem evaluateIn_eq_error_of_find? {expr node : Expr} {fault : Fault}
    (first : expr.nodes.find? bindings.isStuck = some node)
    (reported : bindings.nodeFault? node = some fault) :
    expr.evaluateIn arithmetic bindings = .error fault := by
  rw [← Outcome.fault?_eq_some_iff, fault?_evaluateIn,
    findSome?_eq_bind_find? bindings.isSome_nodeFault?, first, Option.bind_some, reported]

theorem evaluateIn_eq_error_of_find?_op {expr : Expr} {operation : Operation}
    {arguments : List Expr}
    (first : expr.nodes.find? bindings.isStuck = some (.op operation arguments)) :
    expr.evaluateIn arithmetic bindings = .error (if operation.isFunction then
        .uninterpretedFunction operation.name
      else
        .malformedOperation operation.name operation.arity arguments.length) := by
  have stuck : bindings.isStuck (.op operation arguments) = true := List.find?_some first
  exact evaluateIn_eq_error_of_find? first (fault?_of_isFaulty _ stuck)

theorem evaluateIn_eq_error_of_find?_symbol {expr : Expr} {leaf : Symbol}
    (first : expr.nodes.find? bindings.isStuck = some (.symbol leaf)) :
    expr.evaluateIn arithmetic bindings = .error (.unboundSymbol leaf) :=
  evaluateIn_eq_error_of_find? first (if_pos (List.find?_some first))

/-! ## Checked expressions -/

variable {expr : Expr} {fault : Fault}

/-- Without functions, writing fails as the check does. -/
theorem write_eq_error_iff_check {target : Target}
    (interpreted : ∀ operation arguments, .op operation arguments ∈ expr.nodes →
      operation.isFunction = false) :
    target.write expr = .error fault ↔ expr.check = .error fault := by
  have alike : ∀ node ∈ expr.nodes, target.nodeFault? node = node.arityFault? :=
    fun node member => fault?_eq_arityFault? _
      fun operation arguments isOperation => interpreted _ _ (isOperation ▸ member)
  rw [← Outcome.fault?_eq_some_iff, ← Outcome.fault?_eq_some_iff, Target.fault?_write, fault?_check]
  constructor
  · exact findSome?_eq_some_of_imp (fun node member => (alike node member).symm.trans)
      (fun node member => (alike node member).symm.trans)
  · exact findSome?_eq_some_of_imp (fun node member => (alike node member).trans)
      (fun node member => (alike node member).trans)

/-- Without functions, the operations that evaluation reports are the ones that the check
reports. -/
theorem check_eq_error_of_evaluateIn {name : String} {arity : Arity} {count : Nat}
    (interpreted : ∀ operation arguments, .op operation arguments ∈ expr.nodes →
      operation.isFunction = false)
    (failed : expr.evaluateIn arithmetic bindings = .error (.malformedOperation name arity count)) :
    expr.check = .error (.malformedOperation name arity count) := by
  rw [← Outcome.fault?_eq_some_iff, fault?_evaluateIn] at failed
  rw [← Outcome.fault?_eq_some_iff, fault?_check]
  refine findSome?_eq_some_of_imp (fun node member => ?_) (fun node member => ?_) failed
  all_goals
    cases node with
    | symbol leaf => simp [Bindings.nodeFault?, arityFault?]
    | literal constant => exact id
    | op operation arguments =>
        rw [Bindings.nodeFault?_op, fault?_eq_arityFault? _ fun _ _ isOperation => by
          cases isOperation; exact interpreted _ _ member]
        exact id

/-! ## Agreement -/

/-- Every target writes exactly the expressions without a faulty node, and otherwise reports
the first of these nodes: the same way in every target, except that the report of a function
names the target.  Evaluation also needs every symbol to be bound, and reports the first node
that is faulty or an unbound symbol.  Where no function occurs, both report the operations
that the check reports.  No operation is ever combined or applied with an argument missing,
and no function is applied at all. -/
theorem traversals_agree (arithmetic : Arithmetic α) (bindings : Bindings α) (expr : Expr) :
    (∀ target : Target, (∃ fragment, target.write expr = .ok fragment) ↔
        ∀ node ∈ expr.nodes, node.isFaulty = false) ∧
      (∀ operation arguments, expr.nodes.find? isFaulty = some (.op operation arguments) →
        ∀ target : Target, target.write expr = .error (if operation.isFunction then
            .unsupportedOperation operation.name target
          else
            .malformedOperation operation.name operation.arity arguments.length)) ∧
      ((∃ value, expr.evaluateIn arithmetic bindings = .ok value) ↔
        (∀ node ∈ expr.nodes, node.isFaulty = false) ∧
          ∀ leaf, .symbol leaf ∈ expr.nodes → ∃ value, bindings.get? leaf = some value) ∧
      (∀ leaf, expr.nodes.find? bindings.isStuck = some (.symbol leaf) →
        expr.evaluateIn arithmetic bindings = .error (.unboundSymbol leaf)) ∧
      (∀ operation arguments,
        expr.nodes.find? bindings.isStuck = some (.op operation arguments) →
          expr.evaluateIn arithmetic bindings = .error (if operation.isFunction then
              .uninterpretedFunction operation.name
            else
              .malformedOperation operation.name operation.arity arguments.length)) ∧
      ((∀ operation arguments, .op operation arguments ∈ expr.nodes →
          operation.isFunction = false) →
        (∀ (target : Target) fault, target.write expr = .error fault ↔
          expr.check = .error fault) ∧
        ∀ name arity count,
          expr.evaluateIn arithmetic bindings = .error (.malformedOperation name arity count) →
            expr.check = .error (.malformedOperation name arity count)) ∧
      (∀ (target : Target) operation arguments operands,
        operation.checkCount arguments.length = .ok () →
        target.checkSupport operation = .ok () →
        target.writeAll arguments = .ok operands →
          operation.arity.accepts operands.length = true ∧ 0 < operands.length ∧
            (operation ≠ .add →
              ∃ fragment, target.combine? operation operands = some fragment)) ∧
      ∀ operation arguments values,
        operation.checkCount arguments.length = .ok () →
        rejectFunction operation = .ok () →
        evaluateAllIn arithmetic bindings arguments = .ok values →
          operation.arity.accepts values.length = true ∧ operation.isFunction = false ∧
            ∃ value, arithmetic.value? operation values = some value :=
  ⟨fun _ => Target.exists_write_eq_ok_iff,
    fun _ _ first _ => Target.write_eq_error_of_find? first,
    exists_evaluateIn_eq_ok_iff,
    fun _ => evaluateIn_eq_error_of_find?_symbol,
    fun _ _ => evaluateIn_eq_error_of_find?_op,
    fun interpreted => ⟨fun _ _ => write_eq_error_iff_check interpreted,
      fun _ _ _ => check_eq_error_of_evaluateIn interpreted⟩,
    fun _ _ _ _ => Target.combines_of_written,
    fun _ _ _ => applies_of_evaluated⟩

/-- A quotient that lacks its denominator. -/
def halfQuotient : Expr :=
  .op .div [.symbol (.named "y")]

/-- A sum of a symbol, a function of a faulty quotient, and a change of sign without an
operand. -/
def manyFaults : Expr :=
  .op .add [.symbol (.named "x"), .op (.function "gust") [halfQuotient], .op .neg []]

theorem traversals_agree_manyFaults :
    (∀ target : Target, target.write manyFaults =
        .error (.unsupportedOperation "gust" target)) ∧
      evaluate (Bindings.empty.bind (.named "x") 1.0) manyFaults =
        .error (.uninterpretedFunction "gust") ∧
      evaluate .empty manyFaults = .error (.unboundSymbol (.named "x")) ∧
      (∀ target : Target, target.write halfQuotient =
        .error (.malformedOperation "div" (.exactly 2) 1)) ∧
      (∀ target : Target, ∃ whole,
        target.combine? .neg [⟨.literal (.int 3), target.literal (.int 3)⟩] = some whole) ∧
      ∃ value, Arithmetic.double.value? .neg [Literal.value (.int 3)] = some value := by
  obtain ⟨_, refused, _, _, stuck, _, combines, applies⟩ :=
    traversals_agree .double (Bindings.empty.bind (.named "x") 1.0) manyFaults
  obtain ⟨_, _, _, unbound, _⟩ := traversals_agree .double .empty manyFaults
  obtain ⟨_, _, _, _, _, unchecked, _⟩ := traversals_agree .double .empty halfQuotient
  have interpreted : ∀ operation arguments, .op operation arguments ∈ halfQuotient.nodes →
      operation.isFunction = false := by
    simp [halfQuotient, nodes, nodesOf, Operation.isFunction]
  refine ⟨refused _ _ rfl, stuck _ _ rfl, unbound _ rfl,
    fun target => ((unchecked interpreted).1 target _).mpr rfl, fun target => ?_, ?_⟩
  · exact (combines target .neg [.literal (.int 3)] _ rfl rfl rfl).2.2 (by decide)
  · exact (applies .neg [.literal (.int 3)] _ rfl rfl rfl).2.2

end Expr

end LieScribe
