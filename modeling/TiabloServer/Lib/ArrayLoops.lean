import Mathlib

/-!
# Loops over arrays

Arrays by rows and columns that loops change in place, as functions of the integers.

## Main definitions

* `ArrayLoops.upTo` — the integers that a loop counts through.
* `ArrayLoops.Writes` — a change that writes into some cells what belongs there, and leaves the
  others.

## Main results

* `ArrayLoops.foldl_upTo` — a loop that counts up and reads nothing that it has written.
* `ArrayLoops.foldl_reverse_upTo` — a loop that counts down and copies each entry to the next place.
* `ArrayLoops.Writes.foldl` — the cells that a loop of such changes writes.
-/

namespace ArrayLoops

variable {β : Type*}

/-! ## Loops that count -/

/-- The integers from `a` to `b`, in the order of a loop that counts up. -/
def upTo (a b : ℤ) : List ℤ := (List.range (b + 1 - a).toNat).map fun i : ℕ => a + i

theorem mem_upTo {a b i : ℤ} : i ∈ upTo a b ↔ a ≤ i ∧ i ≤ b := by
  rw [upTo, List.mem_map]
  constructor
  · rintro ⟨n, hn, rfl⟩
    rw [List.mem_range] at hn
    omega
  · rintro ⟨ha, hb⟩
    exact ⟨(i - a).toNat, List.mem_range.2 (by omega), by omega⟩

/-- **A loop that counts up** and writes into each entry what depends on it and on later ones. -/
theorem foldl_upTo {g : ℤ → (ℤ → β) → β} (hg : ∀ i f f', (∀ j, i ≤ j → f j = f' j) → g i f = g i f')
    (a b : ℤ) (f : ℤ → β) (i : ℤ) :
    (upTo a b).foldl (fun f i => Function.update f i (g i f)) f i =
      if a ≤ i ∧ i ≤ b then g i f else f i := by
  have hloop : ∀ (n : ℕ) (i : ℤ),
      ((List.range n).map fun j : ℕ => a + j).foldl (fun f i => Function.update f i (g i f)) f i =
        if a ≤ i ∧ i < a + n then g i f else f i := by
    intro n
    induction n with
    | zero =>
      intro i
      rw [if_neg (by omega)]
      rfl
    | succ n ih =>
      intro i
      rw [List.range_succ, List.map_append, List.foldl_append, List.map_singleton, List.foldl_cons,
        List.foldl_nil]
      by_cases hi : i = a + n
      · rw [hi, Function.update_self, if_pos (by omega)]
        refine hg _ _ _ fun j hj => ?_
        rw [ih, if_neg (by omega)]
      · rw [Function.update_of_ne hi, ih]
        exact if_congr (by omega) rfl rfl
  rw [upTo, hloop]
  exact if_congr (by omega) rfl rfl

/-- **A loop that counts down** and copies each entry to the next place. -/
theorem foldl_reverse_upTo {a b : ℤ} (hab : a ≤ b + 1) (f : ℤ → β) (i : ℤ) :
    (upTo a b).reverse.foldl (fun f i => Function.update f (i + 1) (f i)) f i =
      if a < i ∧ i ≤ b + 1 then f (i - 1) else f i := by
  have hloop : ∀ (n : ℕ) (f : ℤ → β) (i : ℤ),
      ((List.range n).map fun j : ℕ => a + j).reverse.foldl
        (fun f i => Function.update f (i + 1) (f i)) f i =
        if a < i ∧ i ≤ a + n then f (i - 1) else f i := by
    intro n
    induction n with
    | zero =>
      intro f i
      rw [if_neg (by omega)]
      rfl
    | succ n ih =>
      intro f i
      rw [List.range_succ, List.map_append, List.reverse_append, List.map_singleton,
        List.reverse_singleton, List.singleton_append, List.foldl_cons, ih]
      by_cases hi : i = a + n + 1
      · rw [if_neg (by omega), if_pos (by omega), hi, Function.update_self, add_sub_cancel_right]
      · by_cases hrange : a < i ∧ i ≤ a + n
        · rw [if_pos hrange, if_pos (by omega), Function.update_of_ne (by omega)]
        · rw [if_neg hrange, if_neg (by omega), Function.update_of_ne hi]
  rw [upTo, hloop]
  exact if_congr (by omega) rfl rfl

/-! ## Cells that are written -/

/-- A change that writes into the cells of `cells` what belongs there, and nothing else. -/
def Writes (cells : ℤ → ℤ → Prop) (value : ℤ → ℤ → β) (change : (ℤ → ℤ → β) → ℤ → ℤ → β) : Prop :=
  ∀ c y x, (cells y x → change c y x = value y x) ∧ (¬ cells y x → change c y x = c y x)

theorem Writes.foldl {ι : Type*} {cells : ι → ℤ → ℤ → Prop} {value : ℤ → ℤ → β}
    {change : ι → (ℤ → ℤ → β) → ℤ → ℤ → β} {l : List ι} (h : ∀ i ∈ l, Writes (cells i) value (change i)) :
    Writes (fun y x => ∃ i ∈ l, cells i y x) value fun c => l.foldl (fun c i => change i c) c := by
  induction l with
  | nil => exact fun c y x => ⟨fun hex => absurd hex (by simp), fun _ => rfl⟩
  | cons i l ih =>
    intro c y x
    have hfirst := h i List.mem_cons_self c y x
    have hrest := ih (fun j hj => h j (List.mem_cons_of_mem i hj)) (change i c) y x
    dsimp only at hrest ⊢
    rw [List.foldl_cons]
    by_cases hl : ∃ j ∈ l, cells j y x
    · obtain ⟨j, hj, hcell⟩ := hl
      exact ⟨fun _ => hrest.1 ⟨j, hj, hcell⟩,
        fun hnone => absurd ⟨j, List.mem_cons_of_mem i hj, hcell⟩ hnone⟩
    · refine ⟨fun hex => ?_, fun hnone => ?_⟩
      · obtain ⟨j, hj, hcell⟩ := hex
        rcases List.mem_cons.1 hj with rfl | hj
        · exact (hrest.2 hl).trans (hfirst.1 hcell)
        · exact absurd ⟨j, hj, hcell⟩ hl
      · exact (hrest.2 hl).trans (hfirst.2 fun hcell => hnone ⟨i, List.mem_cons_self, hcell⟩)

/-- The cells may be told in other words. -/
theorem Writes.congr {cells cells' : ℤ → ℤ → Prop} {value : ℤ → ℤ → β}
    {change : (ℤ → ℤ → β) → ℤ → ℤ → β} (h : Writes cells value change)
    (hcells : ∀ y x, cells y x ↔ cells' y x) : Writes cells' value change :=
  fun c y x => ⟨fun hcell => (h c y x).1 ((hcells y x).2 hcell),
    fun hcell => (h c y x).2 fun hold => hcell ((hcells y x).1 hold)⟩

end ArrayLoops
