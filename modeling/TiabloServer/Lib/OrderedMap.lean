import Mathlib

/-!
# Ordered maps

A map from numbers as a list of keys and values in ascending order of the keys, as an iterator of a
tree map goes through it.

## Main definitions

* `OrderedMap.insert`, `OrderedMap.find` — the operations.
* `OrderedMap.Ascending` — the keys ascend.

## Main results

* `OrderedMap.foldl_insert` — whatever the order in which the entries of an ascending list are
  inserted, the map is that list.
* `OrderedMap.find_eq_some_iff` — what is found is what is in the list.
-/

namespace OrderedMap

variable {β : Type*}

/-- Replaces the value of a key, or adds it at its place. -/
def insert : List (ℕ × β) → ℕ → β → List (ℕ × β)
  | [], key, value => [(key, value)]
  | (k, v) :: l, key, value =>
    if key < k then (key, value) :: (k, v) :: l
    else if key = k then (key, value) :: l
    else (k, v) :: insert l key value

/-- The value of a key. -/
def find : List (ℕ × β) → ℕ → Option β
  | [], _ => none
  | (k, v) :: l, key => if k = key then some v else find l key

/-- The keys ascend. -/
def Ascending (l : List (ℕ × β)) : Prop := l.Pairwise fun a b => a.1 < b.1

/-- A new key is added to the others. -/
theorem insert_perm {l : List (ℕ × β)} {key : ℕ} (h : ∀ p ∈ l, p.1 ≠ key) (value : β) :
    (insert l key value).Perm ((key, value) :: l) := by
  induction l with
  | nil => exact List.Perm.refl _
  | cons p l ih =>
    rw [insert]
    have hne := h p List.mem_cons_self
    split_ifs with hlt heq
    · exact List.Perm.refl _
    · exact absurd heq.symm hne
    · exact ((ih fun q hq => h q (List.mem_cons_of_mem _ hq)).cons p).trans (List.Perm.swap _ _ _)

/-- A new key is added at its place. -/
theorem Ascending.insert {l : List (ℕ × β)} (hl : Ascending l) {key : ℕ} (h : ∀ p ∈ l, p.1 ≠ key)
    (value : β) : Ascending (OrderedMap.insert l key value) := by
  induction l with
  | nil => exact List.pairwise_singleton _ _
  | cons p l ih =>
    obtain ⟨hp, hrest⟩ := List.pairwise_cons.1 hl
    have hne := h p List.mem_cons_self
    have hothers : ∀ q ∈ l, q.1 ≠ key := fun q hq => h q (List.mem_cons_of_mem _ hq)
    rw [OrderedMap.insert]
    split_ifs with hlt heq
    · refine List.pairwise_cons.2 ⟨fun q hq => ?_, hl⟩
      rcases List.mem_cons.1 hq with rfl | hq
      · exact hlt
      · exact hlt.trans (hp q hq)
    · exact absurd heq.symm hne
    · refine List.pairwise_cons.2 ⟨fun q hq => ?_, ih hrest hothers⟩
      rcases List.mem_cons.1 ((insert_perm hothers value).mem_iff.1 hq) with rfl | hq
      · change p.1 < key
        omega
      · exact hp q hq

/-- Two ascending lists with the same entries are the same. -/
theorem Ascending.eq_of_perm {l m : List (ℕ × β)} (hl : Ascending l) (hm : Ascending m) (h : l.Perm m) : l = m := by
  refine h.eq_of_pairwise (fun a b _ _ hab hba => ?_) hl hm
  exact absurd (lt_trans hab hba) (lt_irrefl _)

/-- The keys of an ascending list differ. -/
theorem Ascending.nodup {l : List (ℕ × β)} (hl : Ascending l) : (l.map Prod.fst).Nodup :=
  List.pairwise_map.2 (hl.imp fun h => h.ne)

/-- Entries with new keys are added, whatever their order. -/
theorem foldl_insert_perm {l m : List (ℕ × β)} (hm : Ascending m) (hnodup : ((m ++ l).map Prod.fst).Nodup) :
    Ascending (l.foldl (fun map p => insert map p.1 p.2) m) ∧
      (l.foldl (fun map p => insert map p.1 p.2) m).Perm (m ++ l) := by
  induction l generalizing m with
  | nil => exact ⟨hm, by simp⟩
  | cons p l ih =>
    have hnew : ∀ q ∈ m, q.1 ≠ p.1 := by
      intro q hq heq
      rw [List.map_append, List.nodup_append] at hnodup
      exact hnodup.2.2 q.1 (List.mem_map.2 ⟨q, hq, rfl⟩) p.1 (by simp) heq
    have hperm : ((insert m p.1 p.2) ++ l).Perm (m ++ p :: l) :=
      ((insert_perm hnew p.2).append_right l).trans List.perm_middle.symm
    obtain ⟨hascending, hall⟩ := ih (hm.insert hnew p.2) (((hperm.map _).nodup_iff).2 hnodup)
    exact ⟨hascending, hall.trans hperm⟩

/-- **Insertion in any order.** When the entries of an ascending list are inserted in any order, the
map is that list. -/
theorem foldl_insert {l m : List (ℕ × β)} (hl : Ascending l) (h : m.Perm l) :
    m.foldl (fun map p => insert map p.1 p.2) [] = l := by
  have hnodup : (([] ++ m).map Prod.fst).Nodup := ((h.map _).nodup_iff).2 hl.nodup
  obtain ⟨hascending, hperm⟩ := foldl_insert_perm (l := m) List.Pairwise.nil hnodup
  exact hascending.eq_of_perm hl (hperm.trans h)

/-- What is found is what is in an ascending list. -/
theorem find_eq_some_iff {l : List (ℕ × β)} (hl : Ascending l) {key : ℕ} {value : β} :
    find l key = some value ↔ (key, value) ∈ l := by
  induction l with
  | nil => simp [find]
  | cons p l ih =>
    obtain ⟨hp, hrest⟩ := List.pairwise_cons.1 hl
    rw [find, List.mem_cons]
    split_ifs with heq
    · constructor
      · intro h
        exact Or.inl (Prod.ext heq.symm (Option.some.inj h).symm)
      · rintro (h | h)
        · rw [← h]
        · exact absurd (hp _ h) (by simp [heq])
    · rw [ih hrest]
      exact ⟨Or.inr, fun h => h.resolve_left fun h => heq (by rw [← h])⟩

end OrderedMap
