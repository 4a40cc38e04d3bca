/-
Outcomes of steps that may fail.

A computation on outcomes succeeds when each of its steps does, and fails with the
failure of the first step that does not.  These are the two ways in which the
proofs take such a computation apart.
-/
import LambdaShell.Expr.Eval

namespace LambdaShell.Outcome

variable {ε α β : Type} {x : Except ε α} {f : α → Except ε β}

theorem bind_eq_ok {b : β} : (x >>= f) = .ok b ↔ ∃ a, x = .ok a ∧ f a = .ok b := by
  constructor
  · intro h
    cases x with
    | error e => cases h
    | ok a => exact ⟨a, rfl, h⟩
  · rintro ⟨a, rfl, h⟩
    exact h

theorem bind_eq_error {e : ε} :
    (x >>= f) = .error e ↔ x = .error e ∨ ∃ a, x = .ok a ∧ f a = .error e := by
  constructor
  · intro h
    cases x with
    | error d =>
        cases h
        exact Or.inl rfl
    | ok a => exact Or.inr ⟨a, rfl, h⟩
  · rintro (rfl | ⟨a, rfl, h⟩)
    · rfl
    · exact h

theorem map_eq_ok {g : α → β} {b : β} : x.map g = .ok b ↔ ∃ a, x = .ok a ∧ g a = b := by
  constructor
  · intro h
    cases x with
    | error e => cases h
    | ok a => exact ⟨a, rfl, Except.ok.inj h⟩
  · rintro ⟨a, rfl, rfl⟩
    rfl

theorem eq_error_of_map {g : α → β} {e : ε} (h : x.map g = .error e) : x = .error e := by
  cases x with
  | error d =>
      cases h
      rfl
  | ok a => cases h

/-- A computation that never succeeds fails. -/
theorem exists_error (h : ∀ a, x ≠ .ok a) : ∃ e, x = .error e := by
  cases x with
  | error e => exact ⟨e, rfl⟩
  | ok a => exact absurd rfl (h a)

/-! ### Why a computation fails -/

/-- If the computation fails, then with a failure of that kind. -/
def FailsOnly (P : ε → Prop) (x : Except ε α) : Prop := ∀ e, x = .error e → P e

variable {P : ε → Prop}

theorem FailsOnly.ok (a : α) : FailsOnly P (.ok a) := by
  intro e h
  cases h

theorem FailsOnly.bind (hx : FailsOnly P x) (hf : ∀ a, FailsOnly P (f a)) :
    FailsOnly P (x >>= f) := by
  intro e h
  rcases bind_eq_error.mp h with h | ⟨a, -, h⟩
  · exact hx e h
  · exact hf a e h

theorem FailsOnly.map (hx : FailsOnly P x) (g : α → β) : FailsOnly P (x.map g) := by
  intro e h
  exact hx e (eq_error_of_map h)

end LambdaShell.Outcome
