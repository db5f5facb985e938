import Mathlib

/-!
# Interning

A cache keeps the first object that it is asked for under each key and returns it for every later
object with that key. What is returned is what was passed as long as no two objects that are passed
share a key.

## Main definitions

* `Interning.Extends` — a cache keeps what another one has.
* `Interning.Filled` — a cache has been filled from a set of objects.

## Main results

* `Interning.tryEmplace_lookup` — what is returned is what the cache has from then on.
-/

namespace Interning

variable {α κ : Type*} [DecidableEq κ]

/-- Asks a cache for an object under a key: the object that it has, or the one that is passed, which
it then keeps. -/
def tryEmplace (cache : κ → Option α) (k : κ) (a : α) : α × (κ → Option α) :=
  match cache k with
  | some b => (b, cache)
  | none => (a, Function.update cache k (some a))

/-- A cache keeps what another one has. -/
def Extends (cache cache' : κ → Option α) : Prop := ∀ k b, cache k = some b → cache' k = some b

/-- What a cache has comes from a set of objects and is kept under its key. -/
structure Filled (key : α → κ) (seen : Set α) (cache : κ → Option α) : Prop where
  key_eq : ∀ k b, cache k = some b → key b = k
  mem_seen : ∀ k b, cache k = some b → b ∈ seen

omit [DecidableEq κ] in
theorem extends_refl (cache : κ → Option α) : Extends cache cache := fun _ _ h => h

omit [DecidableEq κ] in
theorem Extends.trans {c₁ c₂ c₃ : κ → Option α} (h : Extends c₁ c₂) (h' : Extends c₂ c₃) :
    Extends c₁ c₃ := fun k b hb => h' k b (h k b hb)

/-- What is returned is what the cache has from then on. -/
theorem tryEmplace_lookup (cache : κ → Option α) (k : κ) (a : α) :
    (tryEmplace cache k a).2 k = some (tryEmplace cache k a).1 := by
  rw [tryEmplace]
  cases hk : cache k with
  | some b => exact hk
  | none => exact Function.update_self k (some a) cache

theorem extends_tryEmplace (cache : κ → Option α) (k : κ) (a : α) : Extends cache (tryEmplace cache k a).2 := by
  intro k' b hb
  rw [tryEmplace]
  cases hk : cache k with
  | some _ => exact hb
  | none =>
    have hne : k' ≠ k := fun heq => nomatch (heq ▸ hb).symm.trans hk
    exact (Function.update_of_ne hne _ _).trans hb

/-- What a cache has was there before or is what has been passed. -/
theorem eq_of_tryEmplace_eq_some {cache : κ → Option α} {k k' : κ} {a b : α}
    (h : (tryEmplace cache k a).2 k' = some b) : cache k' = some b ∨ k' = k ∧ b = a := by
  rw [tryEmplace] at h
  cases hk : cache k with
  | some _ =>
    rw [hk] at h
    exact Or.inl h
  | none =>
    rw [hk] at h
    rcases eq_or_ne k' k with rfl | hne
    · exact Or.inr ⟨rfl, (Option.some.inj ((Function.update_self k' (some a) cache).symm.trans h)).symm⟩
    · exact Or.inl ((Function.update_of_ne hne (some a) cache).symm.trans h)

variable {key : α → κ} {seen : Set α} {cache : κ → Option α}

omit [DecidableEq κ] in
theorem filled_empty : Filled key seen fun _ => none :=
  ⟨fun _ _ h => (nomatch h), fun _ _ h => (nomatch h)⟩

/-- A cache that is asked for an object of the set stays filled from it. -/
theorem Filled.tryEmplace (h : Filled key seen cache) {a : α} (ha : a ∈ seen) :
    Filled key seen (tryEmplace cache (key a) a).2 := by
  constructor
  · intro k b hb
    rcases eq_of_tryEmplace_eq_some hb with hold | ⟨rfl, rfl⟩
    · exact h.key_eq k b hold
    · rfl
  · intro k b hb
    rcases eq_of_tryEmplace_eq_some hb with hold | ⟨rfl, rfl⟩
    · exact h.mem_seen k b hold
    · exact ha

end Interning
