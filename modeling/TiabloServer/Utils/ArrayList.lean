import TiabloServer.Lib.Runs

/-!
# Lists with two vectors

`stdext::arraylist` (`utils/arraylist.hpp`) keeps the elements that are pushed to the front in a
second vector, in the order in which they came, until the list is next read. Indices are those of
elements, and an element is taken from a list that has one.

## Main definitions

* `ArrayList.Op`, `ArrayList.apply` — the operations, each with what it returns.
* `ArrayList.Op.onList` — what they do to a list.

## Main results

* `ArrayList.apply_onList_iff` — an operation acts as on the list, but for an assignment while
  elements wait.
* `ArrayList.run_onList_iff` — the runs in which all operations do.
-/

namespace TiabloServer

/-- `stdext::arraylist`. -/
structure ArrayList (T : Type*) where
  backContainer : List T
  frontContainer : List T
  needUpdate : Bool
  merged : needUpdate = false → frontContainer = []

namespace ArrayList

variable {T : Type*} (s : ArrayList T)

/-! ## The functions of the source -/

/-- The constructor from an initializer list. -/
def ofList (list : List T) : ArrayList T := ⟨list, [], false, fun _ => rfl⟩

def update : ArrayList T :=
  if s.needUpdate then ⟨s.frontContainer.reverse ++ s.backContainer, [], false, fun _ => rfl⟩ else s

/-- `assign` and `operator=`. -/
def assign (list : List T) : ArrayList T := { s with backContainer := list }

/-- `push_front` and `emplace_front`. -/
def push_front (v : T) : ArrayList T := ⟨s.backContainer, s.frontContainer ++ [v], true, nofun⟩

/-- `push_back` and `emplace_back`. -/
def push_back (v : T) : ArrayList T := { s with backContainer := s.backContainer ++ [v] }

def pop_back : ArrayList T := { s.update with backContainer := s.update.backContainer.dropLast }

def clear : ArrayList T := ⟨[], [], s.needUpdate, fun _ => rfl⟩

def size : ℕ := s.backContainer.length + s.frontContainer.length

def empty : Bool := s.backContainer.isEmpty && s.frontContainer.isEmpty

def eraseRange (b e : ℕ) : Bool × ArrayList T :=
  let s := s.update
  if b > s.size ∨ e > s.size then (false, s)
  else (true, { s with backContainer := s.backContainer.take b ++ s.backContainer.drop e })

def erase_if (fnc : T → Bool) : Bool × ArrayList T :=
  let s := s.update
  (s.backContainer.any fnc, { s with backContainer := s.backContainer.filter fun v => !fnc v })

def front : Option T × ArrayList T := (s.update.backContainer.head?, s.update)

def back : Option T × ArrayList T := (s.update.backContainer.getLast?, s.update)

/-- `data`, and the elements from `begin` to `end`, of which `begin` is read first. -/
def data : List T × ArrayList T := (s.update.backContainer, s.update)

/-- `operator[]`. -/
def get (i : ℕ) : Option T × ArrayList T := (s.update.backContainer[i]?, s.update)

section

variable [DecidableEq T]

def contains (v : T) : Bool × ArrayList T := (decide (v ∈ s.update.backContainer), s.update)

def erase (v : T) : Bool × ArrayList T :=
  let s := s.update
  if v ∈ s.backContainer then (true, { s with backContainer := s.backContainer.erase v }) else (false, s)

end

/-! ## The list -/

/-- The elements in order. -/
def contents : List T := s.frontContainer.reverse ++ s.backContainer

@[simp] theorem contents_ofList (list : List T) : (ofList list).contents = list := rfl

@[simp] theorem frontContainer_update : s.update.frontContainer = [] := by
  unfold update
  split_ifs with h
  · rfl
  · exact s.merged (Bool.eq_false_of_not_eq_true h)

@[simp] theorem backContainer_update : s.update.backContainer = s.contents := by
  unfold update
  split_ifs with h
  · rfl
  · simp [contents, s.merged (Bool.eq_false_of_not_eq_true h)]

@[simp] theorem contents_update : s.update.contents = s.contents := by
  rw [contents, frontContainer_update, backContainer_update, List.reverse_nil, List.nil_append]

@[simp] theorem contents_mk_nil (list : List T) (needUpdate : Bool) (h : needUpdate = false → [] = []) :
    (⟨list, [], needUpdate, h⟩ : ArrayList T).contents = list := rfl

@[simp] theorem contents_push_front (v : T) : (s.push_front v).contents = v :: s.contents := by
  simp [contents, push_front]

@[simp] theorem contents_push_back (v : T) : (s.push_back v).contents = s.contents ++ [v] := by
  simp [contents, push_back]

theorem contents_assign_iff (list : List T) : (s.assign list).contents = list ↔ s.frontContainer = [] := by
  simp [contents, assign]

theorem size_eq : s.size = s.contents.length := by
  simp only [size, contents, List.length_append, List.length_reverse]
  omega

theorem empty_eq : s.empty = s.contents.isEmpty := by
  rw [Bool.eq_iff_iff]
  simp only [empty, contents, Bool.and_eq_true, List.isEmpty_iff, List.append_eq_nil_iff, List.reverse_eq_nil_iff]
  tauto

/-! ## Sequences of operations -/

/-- The operations. -/
inductive Op (T : Type*)
  | push_front (v : T)
  | push_back (v : T)
  | assign (list : List T)
  | erase (v : T)
  | eraseRange (b e : ℕ) (h : b ≤ e)
  | erase_if (fnc : T → Bool)
  | pop_back
  | clear
  | front
  | back
  | size
  | empty
  | contains (v : T)
  | get (i : ℕ)
  | data

/-- What an operation returns. -/
inductive Result (T : Type*)
  | void
  | bool (b : Bool)
  | size (n : ℕ)
  | element (v : Option T)
  | elements (l : List T)

variable [DecidableEq T]

def apply : Op T → Result T × ArrayList T
  | .push_front v => (.void, s.push_front v)
  | .push_back v => (.void, s.push_back v)
  | .assign list => (.void, s.assign list)
  | .erase v => (s.erase v).map .bool id
  | .eraseRange b e _ => (s.eraseRange b e).map .bool id
  | .erase_if fnc => (s.erase_if fnc).map .bool id
  | .pop_back => (.void, s.pop_back)
  | .clear => (.void, s.clear)
  | .front => s.front.map .element id
  | .back => s.back.map .element id
  | .size => (.size s.size, s)
  | .empty => (.bool s.empty, s)
  | .contains v => (s.contains v).map .bool id
  | .get i => (s.get i).map .element id
  | .data => s.data.map .elements id

/-- The operation on a list. -/
def Op.onList (l : List T) : Op T → Result T × List T
  | .push_front v => (.void, v :: l)
  | .push_back v => (.void, l ++ [v])
  | .assign list => (.void, list)
  | .erase v => (.bool (decide (v ∈ l)), l.erase v)
  | .eraseRange b e _ =>
    if b ≤ l.length ∧ e ≤ l.length then (.bool true, l.take b ++ l.drop e) else (.bool false, l)
  | .erase_if fnc => (.bool (l.any fnc), l.filter fun v => !fnc v)
  | .pop_back => (.void, l.dropLast)
  | .clear => (.void, [])
  | .front => (.element l.head?, l)
  | .back => (.element l.getLast?, l)
  | .size => (.size l.length, l)
  | .empty => (.bool l.isEmpty, l)
  | .contains v => (.bool (decide (v ∈ l)), l)
  | .get i => (.element l[i]?, l)
  | .data => (.elements l, l)

/-- An assignment comes while no elements wait in the front vector. -/
def Op.Timely (s : ArrayList T) : Op T → Prop
  | .assign _ => s.frontContainer = []
  | _ => True

/-- **One operation** acts as on the list, but for an assignment while elements wait in the front
vector. -/
theorem apply_onList_iff (op : Op T) :
    ((s.apply op).2.contents = (op.onList s.contents).2 ∧ (s.apply op).1 = (op.onList s.contents).1) ↔
      op.Timely s := by
  cases op with
  | assign list => exact (and_iff_left rfl).trans (s.contents_assign_iff list)
  | push_front v => exact iff_of_true ⟨s.contents_push_front v, rfl⟩ trivial
  | push_back v => exact iff_of_true ⟨s.contents_push_back v, rfl⟩ trivial
  | erase v =>
    refine iff_of_true ?_ trivial
    by_cases hv : v ∈ s.contents
    · simp [apply, erase, Op.onList, hv]
    · simp [apply, erase, Op.onList, hv, List.erase_of_not_mem hv]
  | eraseRange b e h =>
    refine iff_of_true ?_ trivial
    by_cases hin : b ≤ s.contents.length ∧ e ≤ s.contents.length
    · simp [apply, eraseRange, size_eq, Op.onList, hin, hin.1.not_gt, hin.2.not_gt]
    · have hout : b > s.contents.length ∨ e > s.contents.length := by omega
      simp [apply, eraseRange, size_eq, Op.onList, hin, hout]
  | erase_if fnc => exact iff_of_true (by simp [apply, erase_if, Op.onList]) trivial
  | pop_back => exact iff_of_true (by simp [apply, pop_back, Op.onList]) trivial
  | clear => exact iff_of_true ⟨rfl, rfl⟩ trivial
  | front => exact iff_of_true (by simp [apply, front, Op.onList]) trivial
  | back => exact iff_of_true (by simp [apply, back, Op.onList]) trivial
  | size => exact iff_of_true ⟨rfl, congrArg Result.size s.size_eq⟩ trivial
  | empty => exact iff_of_true ⟨rfl, congrArg Result.bool s.empty_eq⟩ trivial
  | contains v => exact iff_of_true (by simp [apply, contains, Op.onList]) trivial
  | get i => exact iff_of_true (by simp [apply, get, Op.onList]) trivial
  | data => exact iff_of_true (by simp [apply, data, Op.onList]) trivial

/-- The vectors and the list after an operation on both. -/
def step (p : ArrayList T × List T) (op : Op T) : ArrayList T × List T := ((p.1.apply op).2, (op.onList p.2).2)

/-- From a list, the vectors have its elements all the time, and each operation returns what it
returns of the list. -/
def ActsAsList (list : List T) (ops : List (Op T)) : Prop :=
  (∀ m, m <+: ops → (Runs.run step (ofList list, list) m).1.contents = (Runs.run step (ofList list, list) m).2) ∧
    ∀ m op, m ++ [op] <+: ops →
      ((Runs.run step (ofList list, list) m).1.apply op).1 = (op.onList (Runs.run step (ofList list, list) m).2).1

/-- **Sequences of operations** act as on the list exactly when no assignment comes while elements
wait in the front vector. -/
theorem run_onList_iff (list : List T) (ops : List (Op T)) :
    ActsAsList list ops ↔ Runs.Meets step (fun p op => op.Timely p.1) (ofList list, list) ops := by
  refine Runs.forall_steps_iff step (P := fun p => p.1.contents = p.2)
    (Q := fun p op => (p.1.apply op).1 = (op.onList p.2).1) ?_ rfl
  rintro ⟨s, l⟩ op hcontents
  obtain rfl : s.contents = l := hcontents
  exact s.apply_onList_iff op

/-- An element that waits in the front vector is still there after an assignment. -/
theorem not_run_onList : ¬ ActsAsList [] [Op.push_front 1, Op.assign [2]] := by
  intro h
  have hstate := h.1 [.push_front 1, .assign [2]] (by simp)
  exact absurd hstate (by decide)

end ArrayList

end TiabloServer
