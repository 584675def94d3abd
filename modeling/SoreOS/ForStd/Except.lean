import Mathlib.Tactic.Common

/-!
# Computations that may fail

Rules for `do` blocks in `Except`: running past a step that succeeds, and taking
a successful block apart.
-/

namespace ForStd

variable {ε α β : Type}

@[simp] theorem ok_bind (a : α) (f : α → Except ε β) : ((.ok a : Except ε α) >>= f) = f a := rfl

@[simp] theorem error_bind (e : ε) (f : α → Except ε β) :
    ((.error e : Except ε α) >>= f) = .error e := rfl

@[simp] theorem pure_eq_ok (a : α) : (pure a : Except ε α) = .ok a := rfl

/-- A block succeeds when its first step does, and then the rest. -/
theorem bind_eq_ok {x : Except ε α} {f : α → Except ε β} {b : β} :
    x >>= f = .ok b ↔ ∃ a, x = .ok a ∧ f a = .ok b := by
  cases x with
  | error e => simp
  | ok a => simp

/-- Run a block past its first step. -/
theorem bind_of_ok {x : Except ε α} {f : α → Except ε β} {a : α} {y : Except ε β} (hx : x = .ok a)
    (h : f a = y) : x >>= f = y := by
  rw [hx]
  exact h

theorem map_eq_ok {x : Except ε α} {f : α → β} {b : β} :
    f <$> x = .ok b ↔ ∃ a, x = .ok a ∧ f a = b := by
  cases x with
  | error e => simp
  | ok a => simp

end ForStd
