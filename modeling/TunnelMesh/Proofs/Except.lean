import Mathlib

/-!
# Steps that may fail

A computation in steps succeeds just when each step does (`Except.bind_eq_ok`), and fails with the
failure of its first step that does not (`Except.bind_eq_error`). A check among the steps is passed
just when what it refuses is not the case (`Except.ite_throw_eq_ok`). This is how the steps of a run
are taken apart.
-/

namespace Except

variable {ε α β : Type} {x : Except ε α}

/-- Two steps succeed just when the first does and the second does with its result. -/
theorem bind_eq_ok {f : α → Except ε β} {b : β} :
    (x >>= f) = .ok b ↔ ∃ a, x = .ok a ∧ f a = .ok b := by
  cases x with
  | error e => simp [bind, Except.bind]
  | ok a => simp [bind, Except.bind]

/-- Two steps fail with the failure of the first, or of the second on what the first gives. -/
theorem bind_eq_error {f : α → Except ε β} {e : ε} :
    (x >>= f) = .error e ↔ x = .error e ∨ ∃ a, x = .ok a ∧ f a = .error e := by
  cases x with
  | error e => simp [bind, Except.bind]
  | ok a => simp [bind, Except.bind]

/-- What is made of a result is there just when the result is. -/
theorem bind_pure_eq_ok {f : α → β} {b : β} :
    (x >>= fun a => pure (f a)) = .ok b ↔ ∃ a, x = .ok a ∧ b = f a := by
  simp only [bind_eq_ok, pure, Except.pure, Except.ok.injEq, eq_comm (a := b)]

/-- What is made of a result fails just when there is no result. -/
theorem bind_pure_eq_error {f : α → β} {e : ε} :
    (x >>= fun a => pure (f a)) = .error e ↔ x = .error e := by
  simp [bind_eq_error, pure, Except.pure]

/-- What is done with a result counts only for the result that there is. -/
theorem bind_eq_bind {f g : α → Except ε β} (h : ∀ a, x = .ok a → f a = g a) :
    (x >>= f) = (x >>= g) := by
  cases x with
  | error e => rfl
  | ok a => exact h a rfl

/-- A check is passed just when what it refuses is not the case. -/
theorem ite_throw_eq_ok {p : Prop} [Decidable p] {e : ε} {f : α → Except ε β} {y : Except ε β}
    {b : β} : (if p then throw e >>= f else y) = .ok b ↔ ¬ p ∧ y = .ok b := by
  by_cases h : p
  · simp [h, throw, throwThe, MonadExceptOf.throw, bind, Except.bind]
  · simp [h]

end Except
