import TiabloServer.Lib.Runs

/-!
# Sorted vectors as sets

`stdext::vector_set` (`utils/vectorset.hpp`) keeps its elements in a vector that is sorted, and
whose repetitions are removed, when it is next read after an insertion. The algorithms of the
standard library are those of sorted lists, which all vectors are that they are called on.

## Main definitions

* `VectorSet.Op`, `VectorSet.apply` — the operations, each with what it returns.
* `VectorSet.Op.onSet` — what they do to a set.

## Main results

* `VectorSet.apply_onSet_iff` — an operation acts as on the set, but for `erase` below a greater
  element.
* `VectorSet.run_onSet_iff` — the runs in which all operations do.
-/

namespace TiabloServer

variable {T : Type*} [LinearOrder T]

/-! ## Sorted lists -/

/-- `std::ranges::unique`. -/
def unique : List T → List T
  | [] => []
  | [a] => [a]
  | a :: b :: l => if a = b then unique (b :: l) else a :: unique (b :: l)

/-- `std::ranges::lower_bound`, as an index. -/
def lowerBound (l : List T) (v : T) : ℕ := l.findIdx fun w => !decide (w < v)

/-- `std::ranges::binary_search`. -/
def binarySearch (l : List T) (v : T) : Bool := l[lowerBound l v]?.any fun w => !decide (v < w)

@[simp] theorem mem_unique {l : List T} {v : T} : v ∈ unique l ↔ v ∈ l := by
  induction l using unique.induct with
  | case1 => rfl
  | case2 a => rfl
  | case3 a l ih =>
    rw [unique, if_pos rfl, ih]
    simp
  | case4 a b l hne ih => rw [unique, if_neg hne, List.mem_cons, ih, List.mem_cons (b := a)]

theorem unique_ordered {l : List T} (h : l.Pairwise (· ≤ ·)) : (unique l).Pairwise (· < ·) := by
  induction l using unique.induct with
  | case1 => exact .nil
  | case2 a => exact List.pairwise_singleton ..
  | case3 a l ih =>
    rw [unique, if_pos rfl]
    exact ih h.of_cons
  | case4 a b l hne ih =>
    rw [unique, if_neg hne, List.pairwise_cons]
    refine ⟨fun w hw => ?_, ih h.of_cons⟩
    have hab : a < b := lt_of_le_of_ne (List.rel_of_pairwise_cons h List.mem_cons_self) hne
    rcases List.mem_cons.1 (mem_unique.1 hw) with rfl | hw
    · exact hab
    · exact hab.trans_le (List.rel_of_pairwise_cons h.of_cons hw)

theorem lowerBound_le_length (l : List T) (v : T) : lowerBound l v ≤ l.length := List.findIdx_le_length

theorem lowerBound_lt_iff {l : List T} {v : T} : lowerBound l v < l.length ↔ ∃ w ∈ l, v ≤ w := by
  simp [lowerBound]

theorem lowerBound_cons_of_lt {a v : T} (h : a < v) (l : List T) : lowerBound (a :: l) v = lowerBound l v + 1 := by
  simp [lowerBound, List.findIdx_cons, h]

theorem lowerBound_cons_of_le {a v : T} (h : v ≤ a) (l : List T) : lowerBound (a :: l) v = 0 := by
  simp [lowerBound, List.findIdx_cons, h.not_gt]

theorem eraseIdx_lowerBound {l : List T} (h : l.Pairwise (· < ·)) {v : T} (hv : v ∈ l) :
    l.eraseIdx (lowerBound l v) = l.erase v := by
  induction l with
  | nil => cases hv
  | cons a l ih =>
    rcases List.mem_cons.1 hv with rfl | hl
    · rw [lowerBound_cons_of_le le_rfl, List.eraseIdx_cons_zero, List.erase_cons_head]
    · have hlt : a < v := List.rel_of_pairwise_cons h hl
      rw [lowerBound_cons_of_lt hlt, List.eraseIdx_cons_succ, ih h.of_cons hl]
      exact (List.erase_cons_tail (by simpa using hlt.ne)).symm

theorem binarySearch_iff {l : List T} (h : l.Pairwise (· < ·)) {v : T} : binarySearch l v = true ↔ v ∈ l := by
  induction l with
  | nil => simp [binarySearch]
  | cons a l ih =>
    rcases lt_or_ge a v with hlt | hle
    · rw [binarySearch, lowerBound_cons_of_lt hlt, List.getElem?_cons_succ, ← binarySearch, ih h.of_cons]
      simp [hlt.ne']
    · rw [binarySearch, lowerBound_cons_of_le hle]
      constructor
      · intro hv
        obtain rfl : v = a := le_antisymm hle (by simpa using hv)
        exact List.mem_cons_self
      · intro hv
        rcases List.mem_cons.1 hv with rfl | hl
        · simp
        · exact absurd (List.rel_of_pairwise_cons h hl) hle.not_gt

/-! ## The functions of the source -/

/-- `stdext::vector_set`. -/
structure VectorSet (T : Type*) [LinearOrder T] where
  container : List T
  needUpdate : Bool
  ordered : needUpdate = false → container.Pairwise (· < ·)

namespace VectorSet

variable (s : VectorSet T)

/-- A new set. -/
def new : VectorSet T := ⟨[], false, fun _ => .nil⟩

def update : VectorSet T :=
  if s.needUpdate then
    ⟨unique (s.container.mergeSort (· ≤ ·)), false, fun _ =>
      unique_ordered (by simpa using List.pairwise_mergeSort' (α := T) (· ≤ ·) s.container)⟩
  else s

def contains (v : T) : Bool × VectorSet T := (binarySearch s.update.container v, s.update)

def erase (v : T) : Bool × VectorSet T :=
  let s := s.update
  let it := lowerBound s.container v
  if it = s.container.length then (false, s)
  else (true, { s with
    container := s.container.eraseIdx it
    ordered := fun h => (s.ordered h).sublist (List.eraseIdx_sublist ..) })

def erase_if (fnc : T → Bool) : Bool × VectorSet T :=
  let s := s.update
  (s.container.any fnc, { s with
    container := s.container.filter fun v => !fnc v
    ordered := fun h => (s.ordered h).sublist List.filter_sublist })

/-- `insert` before the element at an index, and `insert` of the elements between two iterators
there. -/
def insertRange (i : ℕ) (list : List T) : VectorSet T where
  container := s.container.take i ++ list ++ s.container.drop i
  needUpdate := true
  ordered := nofun

/-- `insertAll`: the elements come at the end. -/
def insertAll (list : List T) : VectorSet T := s.insertRange s.container.length list

/-- `insert` and `emplace` of one value. -/
def insert (v : T) : VectorSet T := s.insertAll [v]

def empty : Bool := s.container.isEmpty

def size : ℕ × VectorSet T := (s.update.container.length, s.update)

def clear : VectorSet T where
  container := []
  needUpdate := s.needUpdate
  ordered := fun _ => .nil

/-- `data`, and the elements from `begin` to `end`, of which `begin` is read first. -/
def data : List T × VectorSet T := (s.update.container, s.update)

/-- `operator[]`, on an index of an element. -/
def get (i : ℕ) : Option T × VectorSet T := (s.update.container[i]?, s.update)

/-! ## What they do to a set -/

/-- The elements. -/
def contents : Finset T := s.container.toFinset

@[simp] theorem mem_contents {v : T} : v ∈ s.contents ↔ v ∈ s.container := List.mem_toFinset

theorem update_ordered : s.update.container.Pairwise (· < ·) := by
  unfold update
  split_ifs with h
  · exact unique_ordered (by simpa using List.pairwise_mergeSort' (α := T) (· ≤ ·) s.container)
  · exact s.ordered (Bool.eq_false_of_not_eq_true h)

@[simp] theorem mem_update {v : T} : v ∈ s.update.container ↔ v ∈ s.container := by
  unfold update
  split_ifs with h
  · simp
  · rfl

@[simp] theorem contents_update : s.update.contents = s.contents := by
  ext v
  simp

theorem update_container : s.update.container = s.contents.sort (· ≤ ·) := by
  rw [← contents_update]
  exact ((List.toFinset_sort (· ≤ ·) (s.update_ordered.imp ne_of_lt)).2 (s.update_ordered.imp le_of_lt)).symm

@[simp] theorem contents_insertRange (i : ℕ) (list : List T) :
    (s.insertRange i list).contents = s.contents ∪ list.toFinset := by
  ext v
  have hsplit : v ∈ s.container ↔ v ∈ s.container.take i ∨ v ∈ s.container.drop i := by
    rw [← List.mem_append, List.take_append_drop]
  simp only [mem_contents, insertRange, List.mem_append, Finset.mem_union, List.mem_toFinset, hsplit]
  tauto

theorem contains_eq (v : T) : (s.contains v).1 = decide (v ∈ s.contents) := by
  rw [← contents_update, Bool.eq_iff_iff, decide_eq_true_iff, mem_contents]
  exact binarySearch_iff s.update_ordered

theorem erase_eq_true_iff (v : T) : (s.erase v).1 = true ↔ ∃ w ∈ s.contents, v ≤ w := by
  rw [← contents_update]
  simp only [mem_contents, ← lowerBound_lt_iff, erase]
  split_ifs with h
  · simp [h]
  · exact iff_of_true rfl (lt_of_le_of_ne (lowerBound_le_length ..) h)

theorem contents_erase_of_mem {v : T} (hv : v ∈ s.contents) : (s.erase v).2.contents = s.contents.erase v := by
  rw [← contents_update, mem_contents] at hv
  have hlt : lowerBound s.update.container v < s.update.container.length := lowerBound_lt_iff.2 ⟨v, hv, le_rfl⟩
  ext w
  rw [erase, if_neg hlt.ne, ← contents_update s, Finset.mem_erase, mem_contents, mem_contents]
  change w ∈ s.update.container.eraseIdx _ ↔ _
  rw [eraseIdx_lowerBound s.update_ordered hv, List.Nodup.mem_erase_iff (s.update_ordered.imp ne_of_lt)]

theorem contents_erase_of_lt {v : T} (hv : ∀ w ∈ s.contents, w < v) : (s.erase v).2.contents = s.contents := by
  have hnot : ¬ lowerBound s.update.container v < s.update.container.length := by
    rw [lowerBound_lt_iff]
    rintro ⟨w, hw, hle⟩
    rw [← mem_contents, contents_update] at hw
    exact (hv w hw).not_ge hle
  rw [erase, if_pos (le_antisymm (lowerBound_le_length ..) (not_lt.1 hnot)), contents_update]

theorem erase_if_eq (fnc : T → Bool) : (s.erase_if fnc).1 = decide (∃ v ∈ s.contents, fnc v = true) := by
  rw [Bool.eq_iff_iff, decide_eq_true_iff]
  simp [erase_if]

@[simp] theorem contents_erase_if (fnc : T → Bool) :
    (s.erase_if fnc).2.contents = s.contents.filter fun v => fnc v = false := by
  ext v
  simp [erase_if]

theorem empty_eq : s.empty = decide (s.contents = ∅) := by
  rw [Bool.eq_iff_iff, decide_eq_true_iff, contents, List.toFinset_eq_empty_iff, empty, List.isEmpty_iff]

/-! ## Sequences of operations -/

/-- The operations. -/
inductive Op (T : Type*)
  | insert (v : T)
  | insertRange (i : ℕ) (list : List T)
  | insertAll (list : List T)
  | erase (v : T)
  | erase_if (fnc : T → Bool)
  | contains (v : T)
  | empty
  | size
  | clear
  | data
  | get (i : ℕ)

/-- What an operation returns. -/
inductive Result (T : Type*)
  | void
  | bool (b : Bool)
  | size (n : ℕ)
  | elements (l : List T)
  | element (v : Option T)

def apply : Op T → Result T × VectorSet T
  | .insert v => (.void, s.insert v)
  | .insertRange i list => (.void, s.insertRange i list)
  | .insertAll list => (.void, s.insertAll list)
  | .erase v => ((s.erase v).map .bool id)
  | .erase_if fnc => ((s.erase_if fnc).map .bool id)
  | .contains v => ((s.contains v).map .bool id)
  | .empty => (.bool s.empty, s)
  | .size => (s.size.map .size id)
  | .clear => (.void, s.clear)
  | .data => (s.data.map .elements id)
  | .get i => ((s.get i).map .element id)

/-- The operation on a finite set, whose elements are listed in order. -/
def Op.onSet (f : Finset T) : Op T → Result T × Finset T
  | .insert v => (.void, f ∪ {v})
  | .insertRange _ list => (.void, f ∪ list.toFinset)
  | .insertAll list => (.void, f ∪ list.toFinset)
  | .erase v => (.bool (decide (v ∈ f)), f.erase v)
  | .erase_if fnc => (.bool (decide (∃ v ∈ f, fnc v = true)), f.filter fun v => fnc v = false)
  | .contains v => (.bool (decide (v ∈ f)), f)
  | .empty => (.bool (decide (f = ∅)), f)
  | .size => (.size f.card, f)
  | .clear => (.void, ∅)
  | .data => (.elements (f.sort (· ≤ ·)), f)
  | .get i => (.element (f.sort (· ≤ ·))[i]?, f)

/-- An `erase` finds its value, or there is no greater element. -/
def Op.Finds (f : Finset T) : Op T → Prop
  | .erase v => v ∈ f ∨ ∀ w ∈ f, w < v
  | _ => True

/-- **One operation** acts as on the set exactly when an `erase` finds its value or no greater
element. -/
theorem apply_onSet_iff (op : Op T) :
    ((s.apply op).2.contents = (op.onSet s.contents).2 ∧ (s.apply op).1 = (op.onSet s.contents).1) ↔
      op.Finds s.contents := by
  cases op with
  | erase v =>
    constructor
    · rintro ⟨-, hresult⟩
      have hbool : (s.erase v).1 = decide (v ∈ s.contents) := Result.bool.inj hresult
      by_cases hv : v ∈ s.contents
      · exact .inl hv
      · refine .inr fun w hw => lt_of_not_ge fun hle => ?_
        rw [(s.erase_eq_true_iff v).2 ⟨w, hw, hle⟩] at hbool
        exact hv (of_decide_eq_true hbool.symm)
    · rintro (hv | hlt)
      · have htrue := (s.erase_eq_true_iff v).2 ⟨v, hv, le_rfl⟩
        refine ⟨s.contents_erase_of_mem hv, ?_⟩
        show Result.bool (s.erase v).1 = Result.bool (decide (v ∈ s.contents))
        rw [htrue, decide_eq_true hv]
      · have hfalse : (s.erase v).1 = false := by
          rw [Bool.eq_false_iff, Ne, erase_eq_true_iff]
          rintro ⟨w, hw, hle⟩
          exact (hlt w hw).not_ge hle
        have hnot : v ∉ s.contents := fun hv => lt_irrefl v (hlt v hv)
        refine ⟨?_, ?_⟩
        · show (s.erase v).2.contents = s.contents.erase v
          rw [s.contents_erase_of_lt hlt, Finset.erase_eq_of_notMem hnot]
        · show Result.bool (s.erase v).1 = Result.bool (decide (v ∈ s.contents))
          rw [hfalse, decide_eq_false hnot]
  | insert v => exact iff_of_true ⟨s.contents_insertRange _ [v], rfl⟩ trivial
  | insertRange i list => exact iff_of_true ⟨s.contents_insertRange i list, rfl⟩ trivial
  | insertAll list => exact iff_of_true ⟨s.contents_insertRange _ list, rfl⟩ trivial
  | erase_if fnc => exact iff_of_true ⟨s.contents_erase_if fnc, congrArg Result.bool (s.erase_if_eq fnc)⟩ trivial
  | contains v => exact iff_of_true ⟨s.contents_update, congrArg Result.bool (s.contains_eq v)⟩ trivial
  | empty => exact iff_of_true ⟨rfl, congrArg Result.bool s.empty_eq⟩ trivial
  | size =>
    refine iff_of_true ⟨s.contents_update, congrArg Result.size ?_⟩ trivial
    show s.update.container.length = s.contents.card
    rw [update_container, Finset.length_sort]
  | clear => exact iff_of_true ⟨rfl, rfl⟩ trivial
  | data => exact iff_of_true ⟨s.contents_update, congrArg Result.elements s.update_container⟩ trivial
  | get i =>
    refine iff_of_true ⟨s.contents_update, congrArg Result.element ?_⟩ trivial
    show s.update.container[i]? = (s.contents.sort (· ≤ ·))[i]?
    rw [update_container]

/-- The vector and the set after an operation on both. -/
def step (p : VectorSet T × Finset T) (op : Op T) : VectorSet T × Finset T := ((p.1.apply op).2, (op.onSet p.2).2)

/-- From the empty set, the vector has the elements of the set all the time, and each operation
returns what it returns of the set. -/
def ActsAsSet (ops : List (Op T)) : Prop :=
  (∀ m, m <+: ops → (Runs.run step (new, ∅) m).1.contents = (Runs.run step (new, ∅) m).2) ∧
    ∀ m op, m ++ [op] <+: ops →
      ((Runs.run step (new, ∅) m).1.apply op).1 = (op.onSet (Runs.run step (new, ∅) m).2).1

/-- **Sequences of operations** act as on the set exactly when each `erase` finds its value or no
greater element. -/
theorem run_onSet_iff (ops : List (Op T)) :
    ActsAsSet ops ↔ Runs.Meets step (fun p op => op.Finds p.2) (new, (∅ : Finset T)) ops := by
  refine Runs.forall_steps_iff step (P := fun p => p.1.contents = p.2)
    (Q := fun p op => (p.1.apply op).1 = (op.onSet p.2).1) ?_ rfl
  rintro ⟨s, f⟩ op hcontents
  obtain rfl : s.contents = f := hcontents
  exact s.apply_onSet_iff op

/-- 1 is not in the set of 2, and erasing it erases 2. -/
theorem not_run_onSet : ¬ ActsAsSet [Op.insert 2, Op.erase 1] := by
  intro h
  obtain ⟨hstates, hresults⟩ := h
  have hfinds : (Op.erase 1).Finds ((new : VectorSet ℕ).insert 2).contents := by
    refine (apply_onSet_iff _ (.erase 1)).1 ⟨?_, hresults [.insert 2] (.erase 1) (by simp)⟩
    exact hstates [.insert 2, .erase 1] (by simp)
  have hcontents : ((new : VectorSet ℕ).insert 2).contents = {2} := hstates [.insert 2] (by simp)
  rw [hcontents] at hfinds
  revert hfinds
  simp [Op.Finds]

end VectorSet

end TiabloServer
