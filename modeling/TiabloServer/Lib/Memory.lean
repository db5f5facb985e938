import Mathlib

/-!
# Stretches of memory

Memory is a function from addresses to values. Stretches of it are read and written as lists, and
changed in place block by block.

## Main definitions

* `Memory.mapBlocks` — changing a stretch block by block.
* `Memory.blocks` — the same for a list.

## Main results

* `Memory.slice_store_self`, `Memory.slice_store_of_disjoint` — what is read after a write.
* `Memory.slice_mapBlocks` — what is read after the blocks have been changed.
* `Memory.blocks_blocks` — blocks that are changed back.
-/

namespace Memory

variable {α : Type*} (mem : ℕ → α)

/-- The `n` values from the address `p` on. -/
def slice (p n : ℕ) : List α := (List.range n).map fun i => mem (p + i)

/-- Writes a list to the address `p`. -/
def store (p : ℕ) (l : List α) : ℕ → α :=
  fun k => if h : p ≤ k ∧ k < p + l.length then l.get ⟨k - p, by omega⟩ else mem k

@[simp]
theorem length_slice (p n : ℕ) : (slice mem p n).length = n := by
  simp [slice]

theorem store_apply_of_outside {p k : ℕ} {l : List α} (h : k < p ∨ p + l.length ≤ k) : store mem p l k = mem k := by
  rw [store, dif_neg (by omega)]

@[simp]
theorem store_nil (p : ℕ) : store mem p [] = mem := by
  funext k
  exact store_apply_of_outside mem (by simp; omega)

/-- What has been written is read. -/
theorem slice_store_self (p : ℕ) (l : List α) : slice (store mem p l) p l.length = l := by
  refine List.ext_getElem (by simp) fun i hi hi' => ?_
  simp only [slice, List.getElem_map, List.getElem_range, store]
  rw [dif_pos ⟨by omega, by omega⟩]
  simp

/-- What is written in two parts is written as a whole. -/
theorem store_store (p : ℕ) (a b : List α) : store (store mem p a) (p + a.length) b = store mem p (a ++ b) := by
  funext k
  have hlength : (a ++ b).length = a.length + b.length := List.length_append
  by_cases hk : p ≤ k ∧ k < p + a.length
  · rw [store_apply_of_outside _ (by omega), store, store, dif_pos hk, dif_pos (by omega)]
    simp only [List.get_eq_getElem]
    rw [List.getElem_append_left]
  · by_cases hk' : p + a.length ≤ k ∧ k < p + a.length + b.length
    · rw [store, dif_pos hk', store, dif_pos (by omega)]
      simp only [List.get_eq_getElem]
      rw [List.getElem_append_right (by omega)]
      simp only [Nat.sub_sub]
    · rw [store_apply_of_outside _ (by omega), store_apply_of_outside _ (by omega),
        store_apply_of_outside _ (by omega)]

/-- What lies elsewhere is read as before. -/
theorem slice_store_of_disjoint {p q n : ℕ} {l : List α} (h : q + n ≤ p ∨ p + l.length ≤ q) :
    slice (store mem p l) q n = slice mem q n := by
  refine List.map_congr_left fun i hi => store_apply_of_outside mem ?_
  have hlt := List.mem_range.1 hi
  omega

theorem slice_add (p m n : ℕ) : slice mem p (m + n) = slice mem p m ++ slice mem (p + m) n := by
  rw [slice, List.range_add, List.map_append, List.map_map]
  simp only [slice, Function.comp_def, Nat.add_assoc]

theorem slice_congr {mem' : ℕ → α} {p n : ℕ} (h : ∀ k, p ≤ k → k < p + n → mem' k = mem k) :
    slice mem' p n = slice mem p n := by
  refine List.map_congr_left fun i hi => h _ (by omega) ?_
  have hlt := List.mem_range.1 hi
  omega

/-! ## Blocks -/

variable (size : ℕ) (f g : List α → List α)

/-- Changes `n` blocks from the address `p` on, one after the other. -/
def mapBlocks : ℕ → ℕ → (ℕ → α) → ℕ → α
  | 0, _, mem => mem
  | n + 1, p, mem => mapBlocks n (p + size) (store mem p (f (slice mem p size)))

/-- Changes the first `n` blocks of a list. -/
def blocks : ℕ → List α → List α
  | 0, _ => []
  | n + 1, l => f (l.take size) ++ blocks n (l.drop size)

variable {size f g}

theorem length_blocks (hf : ∀ l, l.length = size → (f l).length = size) {n : ℕ} {l : List α}
    (hl : l.length = n * size) : (blocks size f n l).length = n * size := by
  induction n generalizing l with
  | zero => simp [blocks]
  | succ n ih =>
    rw [Nat.succ_mul] at hl ⊢
    rw [blocks, List.length_append, hf _ (by rw [List.length_take]; omega),
      ih (by rw [List.length_drop]; omega)]
    omega

/-- **Blocks are changed back**, each on its own. -/
theorem blocks_blocks (hf : ∀ l, l.length = size → (f l).length = size)
    (hg : ∀ l, l.length = size → g (f l) = l) {n : ℕ} {l : List α} (hl : l.length = n * size) :
    blocks size g n (blocks size f n l) = l := by
  induction n generalizing l with
  | zero =>
    rw [Nat.zero_mul] at hl
    rw [List.length_eq_zero_iff.1 hl]
    rfl
  | succ n ih =>
    rw [Nat.succ_mul] at hl
    have htake : (l.take size).length = size := by
      rw [List.length_take]
      omega
    have hfirst := hf _ htake
    rw [blocks, blocks, List.take_left' hfirst, List.drop_left' hfirst, hg _ htake,
      ih (by rw [List.length_drop]; omega), List.take_append_drop]

/-- Memory outside the blocks stays. -/
theorem mapBlocks_apply_of_outside (hf : ∀ l, l.length = size → (f l).length = size) {n p k : ℕ}
    (h : k < p ∨ p + n * size ≤ k) : mapBlocks size f n p mem k = mem k := by
  induction n generalizing p mem with
  | zero => rfl
  | succ n ih =>
    have hlength := hf (slice mem p size) (length_slice mem p size)
    rw [Nat.succ_mul] at h
    rw [mapBlocks, ih _ (by omega), store_apply_of_outside _ (by omega)]

/-- **What is read after blocks have been changed** are the changed blocks. -/
theorem slice_mapBlocks (hf : ∀ l, l.length = size → (f l).length = size) (n p : ℕ) :
    slice (mapBlocks size f n p mem) p (n * size) = blocks size f n (slice mem p (n * size)) := by
  induction n generalizing p mem with
  | zero => simp [slice, blocks]
  | succ n ih =>
    have hlength := hf (slice mem p size) (length_slice mem p size)
    have hrest : slice (store mem p (f (slice mem p size))) (p + size) (n * size) =
        slice mem (p + size) (n * size) :=
      slice_store_of_disjoint mem (Or.inr (by omega))
    have hfirst : slice (mapBlocks size f n (p + size) (store mem p (f (slice mem p size)))) p size =
        f (slice mem p size) := by
      rw [slice_congr (store mem p (f (slice mem p size)))
        fun k hk hk' => mapBlocks_apply_of_outside _ hf (by omega)]
      have hself := slice_store_self mem p (f (slice mem p size))
      rwa [hlength] at hself
    have hsplit : (n + 1) * size = size + n * size := by rw [Nat.succ_mul, Nat.add_comm]
    rw [hsplit, slice_add, slice_add, mapBlocks, hfirst, ih, hrest, blocks,
      List.take_left' (length_slice mem p size), List.drop_left' (length_slice mem p size)]

end Memory
