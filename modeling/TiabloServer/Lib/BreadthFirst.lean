import Mathlib

/-!
# Breadth-first order

Trees are given by the children of a node and a size that counts the nodes of a tree. A queue of
nodes is worked off from its front, and the children of a node go to its end: this visits all nodes,
level by level.

## Main definitions

* `BreadthFirst.Branching.order` — the nodes in the order in which a queue is worked off.
* `BreadthFirst.Branching.level` — the nodes at some depth.

## Main results

* `BreadthFirst.Branching.order_append` — the front of the queue comes first, then what it has left
  behind.
* `BreadthFirst.Branching.order_eq_levels` — the order is that of the levels.
* `BreadthFirst.Branching.sum_order` — a sum over the order is the sum of what a recursion adds up.
-/

namespace BreadthFirst

/-- Children of nodes, and the numbers of nodes of their trees. -/
structure Branching (T : Type*) where
  children : T → List T
  size : T → ℕ
  size_eq : ∀ x, size x = 1 + ((children x).map size).sum

namespace Branching

variable {T : Type*} (B : Branching T)

/-- The number of nodes of some trees. -/
def total (l : List T) : ℕ := (l.map B.size).sum

/-- At most `fuel` nodes of a queue that is worked off. -/
def walk : ℕ → List T → List T
  | 0, _ => []
  | _ + 1, [] => []
  | fuel + 1, x :: l => x :: walk fuel (l ++ B.children x)

/-- The nodes of a queue in the order in which it is worked off. -/
def order (l : List T) : List T := B.walk (B.total l) l

/-- The nodes at a depth. -/
def level (l : List T) : ℕ → List T
  | 0 => l
  | n + 1 => (level l n).flatMap B.children

@[simp] theorem total_nil : B.total [] = 0 := rfl

@[simp] theorem total_append (l m : List T) : B.total (l ++ m) = B.total l + B.total m := by
  simp [total]

theorem total_cons (x : T) (l : List T) : B.total (x :: l) = 1 + B.total (l ++ B.children x) := by
  simp only [total, List.map_cons, List.sum_cons, List.map_append, List.sum_append, B.size_eq x]
  omega

@[simp] theorem order_nil : B.order [] = [] := rfl

theorem order_cons (x : T) (l : List T) : B.order (x :: l) = x :: B.order (l ++ B.children x) := by
  rw [order, total_cons, Nat.add_comm, walk, order]

/-- **Induction along a queue** that is worked off. -/
theorem queue_induction {P : List T → Prop} (nil : P [])
    (cons : ∀ x l, P (l ++ B.children x) → P (x :: l)) (l : List T) : P l := by
  obtain ⟨n, hn⟩ : ∃ n, B.total l = n := ⟨_, rfl⟩
  induction n using Nat.strong_induction_on generalizing l with
  | _ n ih =>
    cases l with
    | nil => exact nil
    | cons x l =>
      rw [total_cons] at hn
      exact cons x l (ih _ (by omega) _ rfl)

/-- The front of a queue comes first, and leaves its children behind. -/
theorem order_append (l m : List T) : B.order (l ++ m) = l ++ B.order (m ++ l.flatMap B.children) := by
  induction l generalizing m with
  | nil => simp
  | cons x l ih =>
    rw [List.cons_append, order_cons, List.append_assoc, ih]
    simp

theorem order_eq_append (l : List T) : B.order l = l ++ B.order (l.flatMap B.children) := by
  simpa using B.order_append l []

theorem level_flatMap (l : List T) (n : ℕ) : B.level (l.flatMap B.children) n = B.level l (n + 1) := by
  induction n with
  | zero => rfl
  | succ n ih =>
    show (B.level (l.flatMap B.children) n).flatMap B.children = (B.level l (n + 1)).flatMap B.children
    rw [ih]

theorem total_flatMap (l : List T) : B.total l = l.length + B.total (l.flatMap B.children) := by
  induction l with
  | nil => rfl
  | cons x l ih =>
    rw [total_cons, total_append, ih, List.flatMap_cons, total_append, List.length_cons]
    omega

/-- **The order is that of the levels**, of as many as there can be. -/
theorem order_eq_levels (l : List T) {n : ℕ} (hn : B.total l ≤ n) :
    B.order l = (List.range n).flatMap (B.level l) := by
  induction n generalizing l with
  | zero =>
    cases l with
    | nil => rfl
    | cons x l =>
      rw [total_cons] at hn
      omega
  | succ n ih =>
    have hnext : B.total (l.flatMap B.children) ≤ n := by
      have htotal := B.total_flatMap l
      cases l with
      | nil => exact Nat.zero_le n
      | cons x l =>
        rw [List.length_cons] at htotal
        omega
    rw [order_eq_append, ih _ hnext, List.range_succ_eq_map, List.flatMap_cons, List.flatMap_map]
    exact congrArg (l ++ ·) (congrArg (List.range n).flatMap (funext (B.level_flatMap l)))

/-- **Sums over the order** are what a recursion over the trees adds up. -/
theorem sum_order {M : Type*} [AddCommMonoid M] (own all : T → M)
    (hall : ∀ x, all x = own x + ((B.children x).map all).sum) (l : List T) :
    ((B.order l).map own).sum = (l.map all).sum := by
  induction l using B.queue_induction with
  | nil => rfl
  | cons x l ih =>
    rw [order_cons, List.map_cons, List.sum_cons, ih, List.map_append, List.sum_append, List.map_cons,
      List.sum_cons, hall x]
    abel

/-- Membership in the order, by a recursion over the trees. -/
theorem exists_mem_order (own all : T → Prop) (hall : ∀ x, all x ↔ own x ∨ ∃ c ∈ B.children x, all c)
    (l : List T) : (∃ x ∈ B.order l, own x) ↔ ∃ x ∈ l, all x := by
  induction l using B.queue_induction with
  | nil => simp
  | cons x l ih =>
    rw [order_cons, List.exists_mem_cons_iff, ih, List.exists_mem_cons_iff, hall x]
    simp only [List.mem_append, or_and_right, exists_or]
    exact ⟨fun h => h.elim (fun h => .inl (.inl h)) fun h => h.elim .inr fun h => .inl (.inr h),
      fun h => h.elim (fun h => h.elim .inl fun h => .inr (.inr h)) fun h => .inr (.inl h)⟩

end Branching

end BreadthFirst
