import LieScribe.Group.Compiled
import LieScribe.Proofs.Groups.Operations
import LieScribe.Proofs.Sharing.Values

/-!
# Compiled operations

An operation of a group compiles to a program that reads its inputs from one array.  Negative
zero, the one literal that is the same as another with a different value, does not occur in
group operations.  So sharing merges expressions of equal value only, and the program computes
the outputs as they are defined.
-/

namespace LieScribe

/-- If the outputs of an accepted request are canonical, the program that reads the inputs from
an array computes the outputs under bindings of the inputs themselves. -/
theorem Program.runIn_share_eq_ok_iff {α : Type} {arithmetic : Arithmetic α} {naming : Naming}
    {inputs : List Symbol} {outputs : List Expr} {program : Program} {values results : List α}
    (linear : naming.linear = true) (accepted : share naming inputs outputs = .ok program)
    (canonical : Expr.canonicals outputs = outputs) (count : values.length = inputs.length) :
    program.runIn arithmetic (Bindings.empty.bindArray naming.inputArray values) = .ok results ↔
      Expr.evaluateAllIn arithmetic (Bindings.empty.bindAll (inputs.zip values)) outputs =
        .ok results := by
  obtain ⟨checked, rfl⟩ := share_eq_ok_iff_substitute.mp accepted
  obtain ⟨distinct, free, declared⟩ := Naming.declares_of_checkRequest checked
  have unreserved := Naming.unreserved_of_checkRequest checked
  have wellFormed := wellFormed_shared naming declared
  have sideBySide : SideBySide _ _ _ _ :=
    sideBySide_bindArray linear wellFormed distinct free count
  rw [runIn_substitute (Naming.renamesApart_arrangement distinct free) wellFormed.isTemporary
      sideBySide, runIn_shared_eq_ok_iff unreserved,
    evaluateAllIn_inline_shared unreserved (Hoisted.mergesAgree_of_canonicals_eq canonical)]

namespace MotionGroup

theorem canonicals_outputs (group : MotionGroup) (operation : GroupOperation) :
    Expr.canonicals (group.outputs operation) = group.outputs operation := by
  cases group <;> cases operation <;> rfl

end MotionGroup

namespace CompiledOperation

/-- Every operation of every group compiles.  A call is refused exactly if its arguments do not
have as many values together as the operation has inputs, however they are split; else it
returns the values of the outputs with the inputs bound to those of the arguments in order. -/
theorem exists_compile_call (group : MotionGroup) (operation : GroupOperation) :
    ∃ compiled, compile group operation = .ok compiled ∧
      ∀ arguments : List (List Float),
        (arguments.flatten.length ≠ (group.inputs operation).length →
          compiled.call arguments = .error (.wrongValueCount (group.qualified operation)
            (group.inputs operation).length arguments.flatten.length)) ∧
        (arguments.flatten.length = (group.inputs operation).length →
          ∃ values, compiled.call arguments = .ok values ∧
            values.length = group.outputDim operation ∧
              List.Forall₂
                (fun output value => output.evaluate (Bindings.empty.bindAll
                  ((group.inputs operation).zip arguments.flatten)) = .ok value)
                (group.outputs operation) values) := by
  have accepted := Program.share_eq_ok_iff_substitute.mpr
    ⟨group.checkRequest_outputs operation, rfl⟩
  refine ⟨_, Outcome.bind_eq_ok_iff.mpr ⟨_, accepted, rfl⟩, fun arguments => ⟨?_, ?_⟩⟩
  · intro wrong
    exact if_neg wrong
  · intro count
    obtain ⟨values, computed⟩ := MotionGroup.exists_outcome_eq_ok Arithmetic.double count
    have ran := (Program.runIn_share_eq_ok_iff rfl accepted
      (group.canonicals_outputs operation) count).mpr computed
    refine ⟨values, ?_, MotionGroup.length_of_outcome Arithmetic.double computed,
      Expr.evaluateAllIn_eq_ok_iff.mp computed⟩
    exact (if_pos count).trans ran

/-- A product of complex numbers, called with its four values split in an odd way and with one
value too few. -/
theorem exists_compile_call_rot2 :
    ∃ compiled, compile .rot2 .compose = .ok compiled ∧
      compiled.call [[0.5], [], [0.25, 2.0], [1.0]] =
        .ok [0.5 * 2.0 - 0.25 * 1.0, 0.25 * 2.0 + 0.5 * 1.0] ∧
      compiled.call [[0.5, 0.25], [2.0]] = .error (.wrongValueCount "rot2.compose" 4 3) := by
  obtain ⟨compiled, isCompiled, calls⟩ := exists_compile_call .rot2 .compose
  obtain ⟨values, called, -, each⟩ := (calls [[0.5], [], [0.25, 2.0], [1.0]]).2 rfl
  have evaluated : Expr.evaluateAllIn Arithmetic.double _ _ = .ok values :=
    Expr.evaluateAllIn_eq_ok_iff.mpr each
  obtain rfl : [0.5 * 2.0 - 0.25 * 1.0, 0.25 * 2.0 + 0.5 * 1.0] = values :=
    Except.ok.inj evaluated
  refine ⟨compiled, isCompiled, called, ?_⟩
  exact (calls [[0.5, 0.25], [2.0]]).1 (by decide)

end CompiledOperation

end LieScribe
