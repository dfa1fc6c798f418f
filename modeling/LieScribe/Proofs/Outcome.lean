/-!
# Outcomes

A computation that may fail succeeds when each of its steps does.  Steps are
peeled off one at a time with `Outcome.bind_eq_ok_iff`.
-/

namespace LieScribe.Outcome

variable {ε α β : Type}

theorem bind_eq_ok_iff {first : Except ε α} {next : α → Except ε β} {result : β} :
    first >>= next = .ok result ↔
      ∃ middle, first = .ok middle ∧ next middle = .ok result := by
  cases first with
  | error fault =>
      simp [bind, Except.bind]
  | ok middle =>
      simp [bind, Except.bind]

theorem pure_eq_ok_iff {value result : α} :
    (pure value : Except ε α) = .ok result ↔ value = result := by
  simp [pure, Except.pure]

theorem check_eq_ok_iff {check : Except ε Unit} {next : Except ε α} {result : α} :
    (do check; next) = .ok result ↔ check = .ok () ∧ next = .ok result := by
  rw [bind_eq_ok_iff]
  exact ⟨fun ⟨_, checked, done⟩ => ⟨checked, done⟩, fun ⟨checked, done⟩ => ⟨(), checked, done⟩⟩

/-- What is done after a check fails with the fault of the check, or later. -/
theorem check_eq_error_iff {check : Except ε Unit} {next : Except ε α} {fault : ε} :
    (do check; next) = .error fault ↔
      check = .error fault ∨ check = .ok () ∧ next = .error fault := by
  cases check with
  | error earlier => simp [bind, Except.bind]
  | ok _ => simp [bind, Except.bind]

/-- A value that is returned after a check. -/
theorem checked_eq_ok_iff {check : Except ε Unit} {value result : α} :
    (do check; return value) = .ok result ↔ check = .ok () ∧ value = result := by
  rw [check_eq_ok_iff, pure_eq_ok_iff]

end LieScribe.Outcome
