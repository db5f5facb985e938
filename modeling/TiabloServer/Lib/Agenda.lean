import Mathlib

/-!
# Ordered maps of lists

A map from the keys of a linear order to lists of values, kept as a list in the order of the keys. A
key is there as long as it has values. What an operation does is said in terms of the entries, the
pairs of a key and one of its values.

## Main definitions

* `Agenda.entries` — the pairs of a key and one of its values.
* `Agenda.WF` — the keys increase, and each has values.

## Main results

* `Agenda.entries_push`, `Agenda.entries_drop`, `Agenda.entries_put` — the entries after an
  operation.
-/

namespace Agenda

variable {κ α : Type*} [LinearOrder κ] [DecidableEq α]

/-- Adds a value at the end of those of a key. -/
def push (t : κ) (a : α) : List (κ × List α) → List (κ × List α)
  | [] => [(t, [a])]
  | (k, v) :: m =>
    if t < k then (t, [a]) :: (k, v) :: m
    else if t = k then (k, v ++ [a]) :: m
    else (k, v) :: push t a m

/-- The values of a key. -/
def find (t : κ) : List (κ × List α) → Option (List α)
  | [] => none
  | (k, v) :: m => if k = t then some v else find t m

/-- Removes a key. -/
def drop (t : κ) : List (κ × List α) → List (κ × List α)
  | [] => []
  | (k, v) :: m => if k = t then m else (k, v) :: drop t m

/-- Replaces the values of a key. -/
def put (t : κ) (w : List α) : List (κ × List α) → List (κ × List α)
  | [] => []
  | (k, v) :: m => if k = t then (k, w) :: m else (k, v) :: put t w m

/-- Removes a value: the last one takes its place. -/
def swapRemove (a : α) : List α → List α
  | [] => []
  | b :: v => if b = a then (v.getLast?.toList ++ v.dropLast) else b :: swapRemove a v

/-- The pairs of a key and one of its values. -/
def entries (m : List (κ × List α)) : List (κ × α) :=
  m.flatMap fun kv => kv.2.map fun a => (kv.1, a)

/-- The keys increase, and each has values. -/
structure WF (m : List (κ × List α)) : Prop where
  sorted : m.Pairwise fun kv kv' => kv.1 < kv'.1
  nonempty : ∀ kv ∈ m, kv.2 ≠ []

/-! ## Entries -/

omit [LinearOrder κ] [DecidableEq α] in
@[simp] theorem entries_nil : entries ([] : List (κ × List α)) = [] := rfl

omit [LinearOrder κ] [DecidableEq α] in
@[simp] theorem entries_cons (k : κ) (v : List α) (m : List (κ × List α)) :
    entries ((k, v) :: m) = (v.map fun a => (k, a)) ++ entries m := rfl

omit [LinearOrder κ] [DecidableEq α] in
theorem entries_append (m m' : List (κ × List α)) : entries (m ++ m') = entries m ++ entries m' :=
  List.flatMap_append

omit [LinearOrder κ] [DecidableEq α] in
theorem mem_entries {t : κ} {a : α} {m : List (κ × List α)} : (t, a) ∈ entries m ↔ ∃ v, (t, v) ∈ m ∧ a ∈ v := by
  simp only [entries, List.mem_flatMap, List.mem_map, Prod.mk.injEq]
  constructor
  · rintro ⟨⟨k, v⟩, hmem, a', ha, hk, heq⟩
    subst hk heq
    exact ⟨v, hmem, ha⟩
  · rintro ⟨v, hmem, ha⟩
    exact ⟨(t, v), hmem, a, ha, rfl, rfl⟩

omit [LinearOrder κ] [DecidableEq α] in
/-- The values of the entries are those of the map. -/
theorem map_snd_entries (m : List (κ × List α)) : (entries m).map Prod.snd = m.flatMap Prod.snd := by
  induction m with
  | nil => rfl
  | cons kv m ih =>
    obtain ⟨k, v⟩ := kv
    rw [entries_cons, List.map_append, ih, List.flatMap_cons, List.map_map]
    exact congrArg (· ++ m.flatMap Prod.snd) (List.map_id v)

/-! ## The operations -/

omit [DecidableEq α] in
/-- **A value that is added** is one more entry. -/
theorem entries_push (t : κ) (a : α) (m : List (κ × List α)) :
    (entries (push t a m)).Perm ((t, a) :: entries m) := by
  induction m with
  | nil => exact .refl _
  | cons kv m ih =>
    obtain ⟨k, v⟩ := kv
    rw [push]
    split_ifs with hlt heq
    · exact .refl _
    · subst heq
      rw [entries_cons, entries_cons, List.map_append, List.append_assoc]
      exact List.perm_middle
    · rw [entries_cons, entries_cons]
      exact (ih.append_left _).trans List.perm_middle

omit [DecidableEq α] in
/-- The keys after a value is added. -/
theorem mem_keys_push {t k : κ} {a : α} {m : List (κ × List α)} {v : List α}
    (h : (k, v) ∈ push t a m) : k = t ∨ ∃ w, (k, w) ∈ m := by
  induction m with
  | nil =>
    rw [push, List.mem_singleton] at h
    exact Or.inl (congrArg Prod.fst h)
  | cons kv m ih =>
    obtain ⟨k', v'⟩ := kv
    rw [push] at h
    split_ifs at h with hlt heq
    · rcases List.mem_cons.1 h with h | h
      · exact Or.inl (congrArg Prod.fst h)
      · exact Or.inr ⟨v, h⟩
    · rcases List.mem_cons.1 h with h | h
      · exact Or.inl ((congrArg Prod.fst h).trans heq.symm)
      · exact Or.inr ⟨v, List.mem_cons_of_mem _ h⟩
    · rcases List.mem_cons.1 h with h | h
      · exact Or.inr ⟨v, h ▸ List.mem_cons_self⟩
      · rcases ih h with h | ⟨w, h⟩
        · exact Or.inl h
        · exact Or.inr ⟨w, List.mem_cons_of_mem _ h⟩

omit [DecidableEq α] in
theorem WF.push {m : List (κ × List α)} (hm : WF m) (t : κ) (a : α) : WF (push t a m) := by
  induction m with
  | nil => exact ⟨List.pairwise_singleton _ _, by simp [Agenda.push]⟩
  | cons kv m ih =>
    obtain ⟨k, v⟩ := kv
    have htail : WF m := ⟨(List.pairwise_cons.1 hm.sorted).2,
      fun kv hkv => hm.nonempty kv (List.mem_cons_of_mem _ hkv)⟩
    have hhead := (List.pairwise_cons.1 hm.sorted).1
    rw [Agenda.push]
    split_ifs with hlt heq
    · refine ⟨List.pairwise_cons.2 ⟨?_, hm.sorted⟩, ?_⟩
      · intro kv hkv
        rcases List.mem_cons.1 hkv with rfl | hkv
        · exact hlt
        · exact hlt.trans (hhead kv hkv)
      · intro kv hkv
        rcases List.mem_cons.1 hkv with rfl | hkv
        · simp
        · exact hm.nonempty kv hkv
    · refine ⟨List.pairwise_cons.2 ⟨hhead, htail.sorted⟩, ?_⟩
      intro kv hkv
      rcases List.mem_cons.1 hkv with rfl | hkv
      · simp
      · exact htail.nonempty kv hkv
    · refine ⟨List.pairwise_cons.2 ⟨?_, (ih htail).sorted⟩, ?_⟩
      · intro kv hkv
        rcases mem_keys_push hkv with h | ⟨w, h⟩
        · rw [h]
          exact lt_of_le_of_ne (not_lt.1 hlt) (Ne.symm heq)
        · exact hhead (kv.1, w) h
      · intro kv hkv
        rcases List.mem_cons.1 hkv with rfl | hkv
        · exact hm.nonempty _ List.mem_cons_self
        · exact (ih htail).nonempty kv hkv

theorem swapRemove_perm {a : α} {v : List α} (ha : a ∈ v) : v.Perm (a :: swapRemove a v) := by
  induction v with
  | nil => cases ha
  | cons b v ih =>
    rw [swapRemove]
    split_ifs with heq
    · subst heq
      refine List.Perm.cons _ ?_
      rcases List.eq_nil_or_concat v with rfl | ⟨w, c, rfl⟩
      · exact .refl _
      · simp
    · have ha' : a ∈ v := (List.mem_cons.1 ha).resolve_left (Ne.symm heq)
      exact ((ih ha').cons b).trans (List.Perm.swap _ _ _)

omit [DecidableEq α] in
/-- A key that is there stands between the keys before and after it. -/
theorem exists_split {t : κ} {v : List α} {m : List (κ × List α)} (h : find t m = some v) :
    ∃ m₁ m₂, m = m₁ ++ (t, v) :: m₂ ∧ drop t m = m₁ ++ m₂ ∧ ∀ w, put t w m = m₁ ++ (t, w) :: m₂ := by
  induction m with
  | nil => cases h
  | cons kv m ih =>
    obtain ⟨k, v'⟩ := kv
    rw [find] at h
    split_ifs at h with heq
    · subst heq
      cases h
      exact ⟨[], m, rfl, by simp [drop], fun w => by simp [put]⟩
    · obtain ⟨m₁, m₂, rfl, hdrop, hput⟩ := ih h
      exact ⟨(k, v') :: m₁, m₂, rfl, by rw [drop, if_neg heq, hdrop, List.cons_append],
        fun w => by rw [put, if_neg heq, hput, List.cons_append]⟩

omit [DecidableEq α] in
theorem mem_of_find {t : κ} {v : List α} {m : List (κ × List α)} (h : find t m = some v) : (t, v) ∈ m := by
  obtain ⟨m₁, m₂, rfl, -, -⟩ := exists_split h
  simp

omit [DecidableEq α] in
theorem WF.find_eq {m : List (κ × List α)} (hm : WF m) {t : κ} {v : List α} (h : (t, v) ∈ m) :
    find t m = some v := by
  induction m with
  | nil => cases h
  | cons kv m ih =>
    obtain ⟨k, v'⟩ := kv
    have htail : WF m := ⟨(List.pairwise_cons.1 hm.sorted).2,
      fun kv hkv => hm.nonempty kv (List.mem_cons_of_mem _ hkv)⟩
    rcases List.mem_cons.1 h with heq | hmem
    · cases heq
      rw [find, if_pos rfl]
    · have hlt : k < t := (List.pairwise_cons.1 hm.sorted).1 (t, v) hmem
      rw [find, if_neg hlt.ne, ih htail hmem]

omit [DecidableEq α] in
/-- **A key with one value** is removed with its entry. -/
theorem entries_drop {t : κ} {a : α} {m : List (κ × List α)} (h : find t m = some [a]) :
    (entries m).Perm ((t, a) :: entries (drop t m)) := by
  obtain ⟨m₁, m₂, rfl, hdrop, -⟩ := exists_split h
  rw [hdrop, entries_append, entries_append, entries_cons]
  exact List.perm_middle

/-- **A value that is removed** is one entry less. -/
theorem entries_put {t : κ} {a : α} {v : List α} {m : List (κ × List α)} (h : find t m = some v)
    (ha : a ∈ v) : (entries m).Perm ((t, a) :: entries (put t (swapRemove a v) m)) := by
  obtain ⟨m₁, m₂, rfl, -, hput⟩ := exists_split h
  rw [hput, entries_append, entries_append, entries_cons, entries_cons]
  have hv : (v.map fun a => (t, a)).Perm ((t, a) :: (swapRemove a v).map fun a => (t, a)) :=
    (swapRemove_perm ha).map _
  exact ((hv.append_right _).append_left _).trans List.perm_middle

omit [DecidableEq α] in
theorem WF.sublist {m m' : List (κ × List α)} (hm : WF m) (h : m'.Sublist m) : WF m' :=
  ⟨hm.sorted.sublist h, fun kv hkv => hm.nonempty kv (h.subset hkv)⟩

omit [DecidableEq α] in
theorem drop_sublist (t : κ) (m : List (κ × List α)) : (drop t m).Sublist m := by
  induction m with
  | nil => exact .refl _
  | cons kv m ih =>
    obtain ⟨k, v⟩ := kv
    rw [drop]
    split_ifs
    · exact List.sublist_cons_self _ _
    · exact ih.cons_cons _

omit [DecidableEq α] in
/-- The keys after the values of a key are replaced. -/
theorem mem_keys_put {t k : κ} {w : List α} {m : List (κ × List α)} {v : List α}
    (h : (k, v) ∈ put t w m) : (v = w ∨ (k, v) ∈ m) ∧ ∃ v', (k, v') ∈ m := by
  induction m with
  | nil => cases h
  | cons kv m ih =>
    obtain ⟨k', v'⟩ := kv
    rw [put] at h
    split_ifs at h with heq
    · rcases List.mem_cons.1 h with h | h
      · cases h
        exact ⟨Or.inl rfl, v', List.mem_cons_self⟩
      · exact ⟨Or.inr (List.mem_cons_of_mem _ h), v, List.mem_cons_of_mem _ h⟩
    · rcases List.mem_cons.1 h with h | h
      · cases h
        exact ⟨Or.inr List.mem_cons_self, v, List.mem_cons_self⟩
      · obtain ⟨hor, v'', hmem⟩ := ih h
        exact ⟨hor.imp_right (List.mem_cons_of_mem _), v'', List.mem_cons_of_mem _ hmem⟩

omit [DecidableEq α] in
theorem WF.put {m : List (κ × List α)} (hm : WF m) (t : κ) {w : List α} (hw : w ≠ []) : WF (put t w m) := by
  refine ⟨?_, ?_⟩
  · induction m with
    | nil => exact .nil
    | cons kv m ih =>
      obtain ⟨k, v⟩ := kv
      have hcons := List.pairwise_cons.1 hm.sorted
      have htail : WF m := ⟨hcons.2, fun kv hkv => hm.nonempty kv (List.mem_cons_of_mem _ hkv)⟩
      rw [Agenda.put]
      split_ifs
      · exact List.pairwise_cons.2 ⟨hcons.1, hcons.2⟩
      · refine List.pairwise_cons.2 ⟨?_, ih htail⟩
        intro kv hkv
        obtain ⟨-, v', hmem⟩ := mem_keys_put (k := kv.1) (v := kv.2) hkv
        exact hcons.1 (kv.1, v') hmem
  · intro kv hkv
    rcases (mem_keys_put (k := kv.1) (v := kv.2) hkv).1 with h | h
    · rw [h]
      exact hw
    · exact hm.nonempty kv h

end Agenda
