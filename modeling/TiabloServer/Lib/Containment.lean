import Mathlib

/-!
# Containment

Things lie in places, and a thing is itself a place that things may lie in. This file has the things
that a set of places holds, directly or inside other things, and sums over them.

## Main definitions

* `Containment.Held` — the things held by a set of places.
* `Containment.total` — the sum of a quantity over the things with a property.

## Main results

* `Containment.Held.mono` — when things move about but stay held, all that was held stays held.
* `Containment.total_add_shares` — totals differ as the shares of the things that change do.
-/

namespace Containment

variable {ι γ : Type*}

/-- The things held by the places `R`: those that lie in one of them and those that lie in a thing
that is held. `In c x` says that `x` lies in `c`, and `inner x` is the thing `x` as a place. -/
inductive Held (In : γ → ι → Prop) (inner : ι → γ) (R : Set γ) : ι → Prop
  | direct {c : γ} {x : ι} (hc : c ∈ R) (hx : In c x) : Held In inner R x
  | nested {x y : ι} (hx : Held In inner R x) (hy : In (inner x) y) : Held In inner R y

variable {In In' : γ → ι → Prop} {inner : ι → γ} {R : Set γ}

/-- What is held lies somewhere. -/
theorem Held.exists_in {x : ι} (h : Held In inner R x) : ∃ c, In c x := by
  cases h with
  | direct _ hx => exact ⟨_, hx⟩
  | nested _ hy => exact ⟨_, hy⟩

/-- What lies nowhere is not held. -/
theorem not_held {x : ι} (h : ∀ c, ¬ In c x) : ¬ Held In inner R x := by
  intro hx
  obtain ⟨c, hc⟩ := hx.exists_in
  exact h c hc

/-- **Things that move stay held.** If every thing that lay somewhere still lies there or is held
all the same, then all that was held is held. -/
theorem Held.mono (h : ∀ c y, In c y → In' c y ∨ Held In' inner R y) {x : ι}
    (hx : Held In inner R x) : Held In' inner R x := by
  induction hx with
  | direct hc hx => exact (h _ _ hx).elim (fun hx' => .direct hc hx') id
  | nested _ hy ih => exact (h _ _ hy).elim (fun hy' => .nested ih hy') id

/-- If the only thing that lay somewhere else is `z`, and what lies in `z` was held before, then
what is held and is not `z` was held before. -/
theorem Held.of_new {z : ι} (hz : ∀ y, In' (inner z) y → y = z ∨ Held In inner R y)
    (h : ∀ c y, In' c y → In c y ∨ y = z) {x : ι} (hx : Held In' inner R x) : x = z ∨ Held In inner R x := by
  induction hx with
  | direct hc hx => exact (h _ _ hx).elim (fun hx' => Or.inr (.direct hc hx')) Or.inl
  | nested hx hy ih =>
    rcases ih with rfl | ih
    · exact hz _ hy
    · exact (h _ _ hy).elim (fun hy' => Or.inr (.nested ih hy')) Or.inl

/-! ## Totals -/

open Classical in
/-- The sum of `f` over the things of `live` that have the property `P`. -/
noncomputable def total (live : Finset ι) (P : ι → Prop) (f : ι → ℕ) : ℕ :=
  ∑ x ∈ live, if P x then f x else 0

variable {live : Finset ι} {P P' : ι → Prop} {f f' : ι → ℕ}

open Classical in
/-- The share of one thing in a total. -/
noncomputable def share (P : ι → Prop) (f : ι → ℕ) (x : ι) : ℕ := if P x then f x else 0

theorem share_of {x : ι} (h : P x) : share P f x = f x := if_pos h

theorem share_of_not {x : ι} (h : ¬ P x) : share P f x = 0 := if_neg h

theorem share_le (x : ι) : share P f x ≤ f x := by
  unfold share
  split_ifs <;> simp

/-- A thing keeps its share when it keeps the property and the quantity. -/
theorem share_congr {x : ι} (hP : P' x ↔ P x) (hf : f' x = f x) : share P' f' x = share P f x := by
  by_cases hx : P x
  · rw [share_of hx, share_of (hP.2 hx), hf]
  · rw [share_of_not hx, share_of_not (hP.not.2 hx)]

/-- A total is the sum of the shares. -/
theorem total_eq_sum_share : total live P f = ∑ x ∈ live, share P f x := rfl

variable [DecidableEq ι] {s : Finset ι}

/-- **Balance.** When only the shares of `s` change, the totals differ as these do. -/
theorem total_add_shares (hs : s ⊆ live) (h : ∀ x ∈ live, x ∉ s → share P' f' x = share P f x) :
    total live P' f' + ∑ x ∈ s, share P f x = total live P f + ∑ x ∈ s, share P' f' x := by
  have hrest : ∑ x ∈ live \ s, share P' f' x = ∑ x ∈ live \ s, share P f x :=
    Finset.sum_congr rfl fun x hx => h x (Finset.mem_sdiff.1 hx).1 (Finset.mem_sdiff.1 hx).2
  have h1 : total live P' f' = ∑ x ∈ live \ s, share P' f' x + ∑ x ∈ s, share P' f' x :=
    (Finset.sum_sdiff hs).symm
  have h2 : total live P f = ∑ x ∈ live \ s, share P f x + ∑ x ∈ s, share P f x :=
    (Finset.sum_sdiff hs).symm
  omega

/-- When no share outside `s` grows, the total grows at most as the shares of `s` do. -/
theorem total_add_shares_le (hs : s ⊆ live) (h : ∀ x ∈ live, x ∉ s → share P' f' x ≤ share P f x) :
    total live P' f' + ∑ x ∈ s, share P f x ≤ total live P f + ∑ x ∈ s, share P' f' x := by
  have hrest : ∑ x ∈ live \ s, share P' f' x ≤ ∑ x ∈ live \ s, share P f x :=
    Finset.sum_le_sum fun x hx => h x (Finset.mem_sdiff.1 hx).1 (Finset.mem_sdiff.1 hx).2
  have h1 : total live P' f' = ∑ x ∈ live \ s, share P' f' x + ∑ x ∈ s, share P' f' x :=
    (Finset.sum_sdiff hs).symm
  have h2 : total live P f = ∑ x ∈ live \ s, share P f x + ∑ x ∈ s, share P f x :=
    (Finset.sum_sdiff hs).symm
  omega

end Containment
