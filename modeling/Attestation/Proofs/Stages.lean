import Mathlib.Init

/-!
# Computations in stages

Most functions are stages one after the other, of which the first that fails decides. These lemmas take the outcome of
two stages apart.
-/

namespace Attestation

variable {ε α β : Type} {x : Except ε α}

/-- Two stages succeed when the first does and the second does on its result. -/
theorem bind_eq_ok_iff {f : α → Except ε β} {b : β} : x >>= f = .ok b ↔ ∃ a, x = .ok a ∧ f a = .ok b := by
  cases x <;> simp [Bind.bind, Except.bind]

/-- They fail when the first does, or the second on its result. -/
theorem bind_eq_error_iff {f : α → Except ε β} {e : ε} :
    x >>= f = .error e ↔ x = .error e ∨ ∃ a, x = .ok a ∧ f a = .error e := by
  cases x <;> simp [Bind.bind, Except.bind]

end Attestation
