import Mathlib

/-!
# Computations that fail with a state

A function that changes a state step by step and may give up after some of its steps is a
computation in `Except ε`, where `ε` has the state that it leaves behind when it gives up. This file
has assertions about both ends of such a computation.

## Main definitions

* `Attempt.Ends` — what holds when the computation fails, and of its result when it does not.

## Main results

* `Attempt.Ends.bind` — the rule for two computations one after the other.
-/

namespace Attempt

universe u v

variable {ε : Type u} {α β : Type v}

/-- The computation fails with `P`, or completes with `Q`. -/
def Ends (P : ε → Prop) (Q : α → Prop) : Except ε α → Prop
  | .error e => P e
  | .ok a => Q a

variable {P P' : ε → Prop} {Q Q' : α → Prop} {R : β → Prop} {x : Except ε α} {f : α → Except ε β}

@[simp] theorem ends_ok (a : α) : Ends P Q (.ok a) ↔ Q a := Iff.rfl

@[simp] theorem ends_pure (a : α) : Ends P Q (pure a) ↔ Q a := Iff.rfl

theorem Ends.mono (h : Ends P Q x) (hP : ∀ e, P e → P' e) (hQ : ∀ a, Q a → Q' a) : Ends P' Q' x := by
  cases x with
  | error e => exact hP e h
  | ok a => exact hQ a h

theorem Ends.of_ok (h : Ends P Q x) {a : α} (hx : x = .ok a) : Q a := by
  rw [hx] at h
  exact h

/-- The result may be named. -/
theorem Ends.eq_ok (h : Ends P Q x) : Ends P (fun a => x = .ok a ∧ Q a) x := by
  cases x with
  | error e => exact h
  | ok a => exact ⟨rfl, h⟩

/-- **The sequence rule.** What holds after the first computation is what the second one starts
from. -/
theorem Ends.bind (h : Ends P Q x) (hf : ∀ a, Q a → Ends P R (f a)) : Ends P R (x >>= f) := by
  cases x with
  | error e => exact h
  | ok a => exact hf a h

end Attempt
