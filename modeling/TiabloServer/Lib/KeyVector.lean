import Mathlib.Data.List.Sigma

/-!
# Vectors of keys and values

A vector of pairs with one entry for each key, in no order. A value is set in place or appended, and
a removal moves the last entry to the place of the removed one. What such a vector answers to a
search from its front is a function of the keys, which the operations update.

## Main definitions

* `KeyVector.set`, `KeyVector.remove` — the operations.

## Main results

* `KeyVector.dlookup_set`, `KeyVector.dlookup_remove` — the operations are updates.
* `KeyVector.nodupKeys_set`, `KeyVector.nodupKeys_remove` — they keep the keys distinct.
-/

namespace KeyVector

open List

variable {κ : Type*} {β : κ → Type*} [DecidableEq κ]

/-- The value of the first entry of `k` is replaced, or a new entry appended. -/
def set (k : κ) (v : β k) : List (Sigma β) → List (Sigma β)
  | [] => [⟨k, v⟩]
  | e :: l => if e.1 = k then ⟨k, v⟩ :: l else e :: set k v l

/-- The last entry takes the place of the first one of `k`. -/
def remove (k : κ) : List (Sigma β) → List (Sigma β)
  | [] => []
  | e :: l =>
    if e.1 = k then
      match l.getLast? with
      | none => []
      | some last => last :: l.dropLast
    else e :: remove k l

/-! ## Setting -/

theorem dlookup_set (k : κ) (v : β k) (l : List (Sigma β)) :
    (fun j => dlookup j (set k v l)) = Function.update (fun j => dlookup j l) k (some v) := by
  funext j
  induction l with
  | nil =>
    by_cases hj : j = k
    · subst hj
      simp [set]
    · simp [set, hj]
  | cons e l ih =>
    unfold set
    by_cases hj : j = k
    · subst hj
      rw [Function.update_self] at ih ⊢
      by_cases he : e.1 = j
      · rw [if_pos he, dlookup_cons_eq]
      · rw [if_neg he, dlookup_cons_ne _ _ (Ne.symm he), ih]
    · rw [Function.update_of_ne hj] at ih ⊢
      by_cases he : e.1 = k
      · rw [if_pos he, dlookup_cons_ne _ _ hj, dlookup_cons_ne _ _ (he ▸ hj)]
      · rw [if_neg he]
        by_cases hje : j = e.1
        · obtain ⟨i, u⟩ := e
          subst hje
          simp
        · rw [dlookup_cons_ne _ _ hje, dlookup_cons_ne _ _ hje, ih]

theorem mem_keys_set {k j : κ} {v : β k} {l : List (Sigma β)} : j ∈ (set k v l).keys ↔ j = k ∨ j ∈ l.keys := by
  rw [← dlookup_isSome, ← dlookup_isSome, congrFun (dlookup_set k v l) j]
  by_cases hj : j = k
  · subst hj
    simp
  · simp [hj]

theorem nodupKeys_set (k : κ) (v : β k) {l : List (Sigma β)} (h : l.NodupKeys) : (set k v l).NodupKeys := by
  induction l with
  | nil => exact nodupKeys_singleton _
  | cons e l ih =>
    obtain ⟨hout, hl⟩ := nodupKeys_cons.1 h
    unfold set
    split_ifs with he
    · exact nodupKeys_cons.2 ⟨he ▸ hout, hl⟩
    · exact nodupKeys_cons.2 ⟨fun hin => (mem_keys_set.1 hin).elim he hout, ih hl⟩

/-! ## Removing -/

/-- A removal leaves the entries that an erasure in place leaves. -/
theorem remove_perm (k : κ) (l : List (Sigma β)) : remove k l ~ kerase k l := by
  induction l with
  | nil => rfl
  | cons e l ih =>
    unfold remove
    by_cases he : e.1 = k
    · rw [if_pos he, kerase_cons_eq he.symm]
      cases hlast : l.getLast? with
      | none => rw [getLast?_eq_none_iff.1 hlast]
      | some last =>
        have hl := dropLast_append_getLast? last hlast
        exact (perm_append_singleton last l.dropLast).symm.trans (Perm.of_eq hl)
    · rw [if_neg he, kerase_cons_ne (Ne.symm he)]
      exact ih.cons e

theorem nodupKeys_remove (k : κ) {l : List (Sigma β)} (h : l.NodupKeys) : (remove k l).NodupKeys :=
  (perm_nodupKeys (remove_perm k l)).2 (h.kerase k)

theorem dlookup_remove (k : κ) {l : List (Sigma β)} (h : l.NodupKeys) :
    (fun j => dlookup j (remove k l)) = Function.update (fun j => dlookup j l) k none := by
  funext j
  rw [perm_dlookup j (nodupKeys_remove k h) (remove_perm k l)]
  by_cases hj : j = k
  · subst hj
    rw [dlookup_kerase j h, Function.update_self]
  · rw [dlookup_kerase_ne hj, Function.update_of_ne hj]

end KeyVector
