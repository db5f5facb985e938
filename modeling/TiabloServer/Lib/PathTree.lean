import Mathlib

/-!
# Trees that are searched along paths

A tree whose nodes have a child for each direction and whose leaves have values. A path leads from
the root to at most one leaf. In a tree of uniform depth all leaves lie at the end of paths of one
length.

## Main definitions

* `PathTree.get`, `PathTree.insert` — the leaf at the end of a path.
* `PathTree.Depth` — trees of uniform depth.

## Main results

* `PathTree.get_insert_self`, `PathTree.get_insert_of_ne` — the leaves after an insertion.
* `PathTree.depth_insert` — insertion keeps the depth.
-/

/-- A tree with a child for each direction and values at the leaves. -/
inductive PathTree (ι α : Type*) where
  | null
  | leaf (a : α)
  | node (child : ι → PathTree ι α)

namespace PathTree

variable {ι α : Type*}

/-- The value of the leaf that a path leads to. -/
def get : PathTree ι α → List ι → Option α
  | null, _ => none
  | leaf a, _ => some a
  | node _, [] => none
  | node child, i :: p => (child i).get p

/-- All leaves lie at the end of paths of a length. -/
def Depth : PathTree ι α → ℕ → Prop
  | null, _ => True
  | leaf _, n => n = 0
  | node _, 0 => False
  | node child, n + 1 => ∀ i, (child i).Depth n

/-- The children of a node, and no children of null or a leaf. -/
def children : PathTree ι α → ι → PathTree ι α
  | node child => child
  | _ => fun _ => null

theorem Depth.children {t : PathTree ι α} {n : ℕ} (h : t.Depth (n + 1)) (i : ι) : (t.children i).Depth n := by
  cases t with
  | null => trivial
  | leaf a => exact absurd h (Nat.succ_ne_zero n)
  | node child => exact h i

theorem get_children {t : PathTree ι α} {n : ℕ} (h : t.Depth (n + 1)) (i : ι) (p : List ι) :
    (t.children i).get p = t.get (i :: p) := by
  cases t with
  | null => rfl
  | leaf a => exact absurd h (Nat.succ_ne_zero n)
  | node child => rfl

variable [DecidableEq ι]

/-- Puts a leaf at the end of a path. -/
def insert (a : α) : List ι → PathTree ι α → PathTree ι α
  | [], _ => leaf a
  | i :: p, t => node (Function.update t.children i (insert a p (t.children i)))

theorem get_insert_self (a : α) (p : List ι) (t : PathTree ι α) : (insert a p t).get p = some a := by
  induction p generalizing t with
  | nil => rfl
  | cons i p ih => rw [insert, get, Function.update_self, ih]

theorem depth_insert (a : α) {p : List ι} {t : PathTree ι α} (h : t.Depth p.length) :
    (insert a p t).Depth p.length := by
  induction p generalizing t with
  | nil => rfl
  | cons i p ih =>
    intro j
    rcases eq_or_ne j i with rfl | hne
    · rw [Function.update_self]
      exact ih (h.children j)
    · rw [Function.update_of_ne hne]
      exact h.children j

/-- Other paths of the same length lead to the same leaves as before. -/
theorem get_insert_of_ne (a : α) {p q : List ι} {t : PathTree ι α} (h : t.Depth p.length)
    (hlength : q.length = p.length) (hne : q ≠ p) : (insert a p t).get q = t.get q := by
  induction p generalizing t q with
  | nil => exact absurd (List.length_eq_zero_iff.1 hlength) hne
  | cons i p ih =>
    obtain ⟨j, q, rfl⟩ := List.exists_cons_of_length_eq_add_one hlength
    have hlength' : q.length = p.length := Nat.succ.inj hlength
    rw [insert, get, ← get_children h]
    rcases eq_or_ne j i with rfl | hji
    · rw [Function.update_self]
      exact ih (h.children j) hlength' fun heq => hne (by rw [heq])
    · rw [Function.update_of_ne hji]

end PathTree
