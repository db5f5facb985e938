import Mathlib

/-!
# Association lists

A map as a list of keys and values. Putting a value replaces that of the key, if there is one, and
adds it at the end otherwise.

## Main definitions

* `Assoc.Distinct` — no key occurs twice.
* `Assoc.sum` — the sum of a function of the values.

## Main results

* `Assoc.get_put`, `Assoc.get_erase` — what a map has after an operation.
* `Assoc.get_eq_some_iff` — what a map without repeated keys has is what is in the list.
* `Assoc.sum_put`, `Assoc.sum_erase` — the sum after an operation.
-/

namespace Assoc

variable {κ β : Type*} [DecidableEq κ]

/-- The value of a key. -/
def get : List (κ × β) → κ → Option β
  | [], _ => none
  | (k, v) :: l, key => if k = key then some v else get l key

/-- Replaces the value of a key, or adds it. -/
def put : List (κ × β) → κ → β → List (κ × β)
  | [], key, value => [(key, value)]
  | (k, v) :: l, key, value => if k = key then (key, value) :: l else (k, v) :: put l key value

/-- Removes a key. -/
def erase (l : List (κ × β)) (key : κ) : List (κ × β) := l.filter fun p => p.1 ≠ key

/-- No key occurs twice. -/
def Distinct (l : List (κ × β)) : Prop := (l.map Prod.fst).Nodup

theorem get_put (l : List (κ × β)) (key : κ) (value : β) (k : κ) :
    get (put l key value) k = if k = key then some value else get l k := by
  induction l with
  | nil => simp [put, get, eq_comm]
  | cons p l ih =>
    obtain ⟨k', v⟩ := p
    rw [put]
    by_cases hkey : k' = key
    · rw [if_pos hkey, get, get]
      by_cases hk : k = key
      · rw [if_pos hk.symm, if_pos hk]
      · rw [if_neg (Ne.symm hk), if_neg hk, if_neg fun h => hk (h.symm.trans hkey)]
    · rw [if_neg hkey, get, get, ih]
      by_cases hk : k' = k
      · rw [if_pos hk, if_pos hk, if_neg fun h => hkey (hk.trans h)]
      · rw [if_neg hk, if_neg hk]

theorem get_erase (l : List (κ × β)) (key k : κ) :
    get (erase l key) k = if k = key then none else get l k := by
  induction l with
  | nil => simp [erase, get]
  | cons p l ih =>
    obtain ⟨k', v⟩ := p
    rw [erase] at ih
    by_cases hkey : k' = key
    · rw [erase, List.filter_cons_of_neg (by simpa using hkey), ih, get]
      by_cases hk : k = key
      · rw [if_pos hk, if_pos hk]
      · rw [if_neg hk, if_neg hk, if_neg fun h => hk (h.symm.trans hkey)]
    · rw [erase, List.filter_cons_of_pos (by simpa using hkey), get, ih, get]
      by_cases hk : k' = k
      · rw [if_pos hk, if_pos hk, if_neg fun h => hkey (hk.trans h)]
      · rw [if_neg hk, if_neg hk]

theorem mem_of_get {l : List (κ × β)} {key : κ} {value : β} (h : get l key = some value) : (key, value) ∈ l := by
  induction l with
  | nil => cases h
  | cons p l ih =>
    obtain ⟨k, v⟩ := p
    rw [get] at h
    split_ifs at h with hk
    · rw [← hk, Option.some.inj h]
      exact List.mem_cons_self
    · exact List.mem_cons_of_mem _ (ih h)

/-- Without repeated keys, what the list has is what the map has. -/
theorem get_eq_some_iff {l : List (κ × β)} (hl : Distinct l) {key : κ} {value : β} :
    get l key = some value ↔ (key, value) ∈ l := by
  refine ⟨mem_of_get, fun h => ?_⟩
  induction l with
  | nil => cases h
  | cons p l ih =>
    obtain ⟨k, v⟩ := p
    rw [Distinct, List.map_cons, List.nodup_cons] at hl
    rw [get]
    rcases List.mem_cons.1 h with heq | hmem
    · cases heq
      rw [if_pos rfl]
    · rw [if_neg, ih hl.2 hmem]
      rintro rfl
      exact hl.1 (List.mem_map.2 ⟨_, hmem, rfl⟩)

theorem mem_keys_put {l : List (κ × β)} {key k : κ} {value : β} :
    k ∈ (put l key value).map Prod.fst ↔ k = key ∨ k ∈ l.map Prod.fst := by
  induction l with
  | nil => simp [put]
  | cons p l ih =>
    obtain ⟨k', v⟩ := p
    rw [put]
    split_ifs with hkey
    · subst hkey
      simp only [List.map_cons, List.mem_cons]
      tauto
    · simp only [List.map_cons, List.mem_cons, ih]
      tauto

theorem Distinct.put {l : List (κ × β)} (hl : Distinct l) (key : κ) (value : β) :
    Distinct (Assoc.put l key value) := by
  induction l with
  | nil => exact List.nodup_singleton key
  | cons p l ih =>
    obtain ⟨k, v⟩ := p
    rw [Distinct, List.map_cons, List.nodup_cons] at hl
    rw [Assoc.put]
    split_ifs with hkey
    · rw [Distinct, List.map_cons, ← hkey, List.nodup_cons]
      exact hl
    · rw [Distinct, List.map_cons, List.nodup_cons]
      refine ⟨fun hmem => ?_, ih hl.2⟩
      rcases mem_keys_put.1 hmem with heq | hmem
      · exact hkey heq
      · exact hl.1 hmem

theorem Distinct.erase {l : List (κ × β)} (hl : Distinct l) (key : κ) : Distinct (Assoc.erase l key) :=
  List.Nodup.sublist (List.filter_sublist.map Prod.fst) hl

theorem mem_put {l : List (κ × β)} {key : κ} {value : β} {p : κ × β} (h : p ∈ put l key value) :
    p = (key, value) ∨ p ∈ l := by
  induction l with
  | nil => exact Or.inl (List.mem_singleton.1 h)
  | cons q l ih =>
    obtain ⟨k, v⟩ := q
    rw [put] at h
    split_ifs at h with hkey
    · exact (List.mem_cons.1 h).imp id (List.mem_cons_of_mem _)
    · rcases List.mem_cons.1 h with rfl | hmem
      · exact Or.inr List.mem_cons_self
      · exact (ih hmem).imp id (List.mem_cons_of_mem _)

theorem mem_erase {l : List (κ × β)} {key : κ} {p : κ × β} : p ∈ erase l key ↔ p ∈ l ∧ p.1 ≠ key := by
  rw [erase, List.mem_filter, decide_eq_true_eq]

/-- Without repeated keys, putting a value leaves the other keys. -/
theorem mem_put_iff {l : List (κ × β)} (hl : Distinct l) {key : κ} {value : β} {p : κ × β} :
    p ∈ put l key value ↔ p = (key, value) ∨ p ∈ erase l key := by
  obtain ⟨k, v⟩ := p
  rw [← get_eq_some_iff (hl.put key value), get_put, mem_erase, ← get_eq_some_iff hl]
  by_cases hk : k = key
  · simp [hk, eq_comm]
  · simp [hk]

/-- Without repeated keys, what the list has is the value of a key and the rest. -/
theorem mem_iff_of_get {l : List (κ × β)} (hl : Distinct l) {key : κ} {value : β}
    (h : get l key = some value) {p : κ × β} : p ∈ l ↔ p = (key, value) ∨ p ∈ erase l key := by
  obtain ⟨k, v⟩ := p
  rw [mem_erase, ← get_eq_some_iff hl]
  by_cases hk : k = key
  · subst hk
    simp [h, eq_comm]
  · simp [hk]

theorem erase_of_get_none {l : List (κ × β)} {key : κ} (h : get l key = none) : erase l key = l := by
  refine List.filter_eq_self.2 fun p hp => decide_eq_true ?_
  rintro rfl
  induction l with
  | nil => cases hp
  | cons q l ih =>
    rw [get] at h
    split_ifs at h with hq
    rcases List.mem_cons.1 hp with rfl | hp
    · exact hq rfl
    · exact ih hp h

theorem erase_eq_self {l : List (κ × β)} {key : κ} (h : key ∉ l.map Prod.fst) : erase l key = l := by
  refine List.filter_eq_self.2 fun p hp => ?_
  simp only [ne_eq, decide_not, Bool.not_eq_eq_eq_not, Bool.not_true, decide_eq_false_iff_not]
  rintro rfl
  exact h (List.mem_map.2 ⟨p, hp, rfl⟩)

/-! ## Sums -/

section Sum

variable {M : Type*} [AddCommMonoid M] (f : β → M)

/-- The sum of `f` over the values. -/
def sum (l : List (κ × β)) : M := (l.map fun p => f p.2).sum

omit [DecidableEq κ] in
@[simp]
theorem sum_nil : sum f ([] : List (κ × β)) = 0 := rfl

omit [DecidableEq κ] in
theorem sum_cons (p : κ × β) (l : List (κ × β)) : sum f (p :: l) = f p.2 + sum f l := by
  rw [sum, List.map_cons, List.sum_cons, sum]

/-- A value that is put takes the place of the key's old one in the sum. -/
theorem sum_put_add (l : List (κ × β)) (key : κ) (value : β) :
    sum f (put l key value) + (get l key).elim 0 f = sum f l + f value := by
  induction l with
  | nil => simp [put, get, sum]
  | cons p l ih =>
    obtain ⟨k, v⟩ := p
    rw [put, get]
    by_cases hkey : k = key
    · rw [if_pos hkey, if_pos hkey, sum_cons, sum_cons, Option.elim_some]
      abel
    · rw [if_neg hkey, if_neg hkey, sum_cons, sum_cons, add_assoc, ih]
      abel

/-- A key that is removed takes its value out of the sum. -/
theorem sum_erase_add {l : List (κ × β)} (hl : Distinct l) (key : κ) :
    sum f (erase l key) + (get l key).elim 0 f = sum f l := by
  induction l with
  | nil => simp [erase, get, sum]
  | cons p l ih =>
    obtain ⟨k, v⟩ := p
    rw [Distinct, List.map_cons, List.nodup_cons] at hl
    rw [get]
    by_cases hkey : k = key
    · subst hkey
      have herase : erase ((k, v) :: l) k = l := by
        rw [erase, List.filter_cons_of_neg (by simp)]
        exact erase_eq_self hl.1
      rw [if_pos rfl, herase, sum_cons, Option.elim_some]
      abel
    · have herase : erase ((k, v) :: l) key = (k, v) :: erase l key :=
        List.filter_cons_of_pos (by simpa using hkey)
      rw [if_neg hkey, herase, sum_cons, sum_cons, add_assoc, ih hl.2]

end Sum

section Difference

variable {M : Type*} [AddCommGroup M] (f : β → M)

theorem sum_put (l : List (κ × β)) (key : κ) (value : β) :
    sum f (put l key value) = sum f l - (get l key).elim 0 f + f value := by
  rw [sub_add_eq_add_sub, ← sum_put_add, add_sub_cancel_right]

theorem sum_erase {l : List (κ × β)} (hl : Distinct l) (key : κ) :
    sum f (erase l key) = sum f l - (get l key).elim 0 f := by
  rw [← sum_erase_add f hl key, add_sub_cancel_right]

/-- A value that is put adds to the sum of the other keys. -/
theorem sum_put_erase {l : List (κ × β)} (hl : Distinct l) (key : κ) (value : β) :
    sum f (put l key value) = sum f (erase l key) + f value := by
  rw [sum_put, sum_erase f hl]

end Difference

end Assoc
