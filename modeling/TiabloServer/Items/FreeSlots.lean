import TiabloServer.Items.ContainerTree

/-!
# Free slots

`Container::getFreeSlots` adds up 16-bit differences of capacities and sizes. A container with pages
can hold more items than its capacity: the difference is then taken modulo 2^16 before it is
compared with 0.

## Main definitions

* `Containers.freeSlots`, `Containers.overfull` — the slots that are free, and the items over a
  capacity.
* `Containers.CountsFree` — the function counts the free slots.

## Main results

* `Containers.countsFree_iff` — it does if and only if the items over a capacity are a multiple of
  2^16.
-/

namespace TiabloServer.Containers

/-! ## The function of the source -/

mutual

/-- `Container::getFreeSlots`. -/
def getFreeSlots : Item → UInt16
  | .item _ => 0
  | .container _ maxSize itemlist =>
    max 0 (UInt16.ofInt (maxSize.toNat - itemlist.length)) + getFreeSlotsIn itemlist

/-- The loop of `getFreeSlots` over the items. -/
def getFreeSlotsIn : List Item → UInt16
  | [] => 0
  | x :: l => (if x.isContainer then max 0 (getFreeSlots x) else 0) + getFreeSlotsIn l

end

/-! ## Free slots of a tree -/

mutual

/-- The capacities and sizes of a container and of all containers in it. -/
def containers : Item → List (ℕ × ℕ)
  | .item _ => []
  | .container _ maxSize itemlist => (maxSize.toNat, itemlist.length) :: containersIn itemlist

/-- The capacities and sizes of all containers in a list of items. -/
def containersIn : List Item → List (ℕ × ℕ)
  | [] => []
  | x :: l => containers x ++ containersIn l

end

/-- The slots that are free in a container and all containers in it. -/
def freeSlots (c : Item) : ℕ := ((containers c).map fun k => k.1 - k.2).sum

/-- The items that are in the containers of a tree over their capacities. -/
def overfull (c : Item) : ℕ := ((containers c).map fun k => k.2 - k.1).sum

/-- `getFreeSlots` is the number of free slots, and so 0 exactly when no container has room. -/
structure CountsFree (c : Item) : Prop where
  toNat_eq : (getFreeSlots c).toNat = freeSlots c
  eq_zero_iff : getFreeSlots c = 0 ↔ ∀ k ∈ containers c, k.1 ≤ k.2

theorem max_zero (x : UInt16) : max 0 x = x := if_pos UInt16.zero_le

theorem toNat_ofInt (z : ℤ) : ((UInt16.ofInt z).toNat : ℤ) = z % 2 ^ 16 := by
  simp only [UInt16.ofInt, UInt16.toNat_ofNat']
  omega

theorem toNat_add_emod (x y : UInt16) (a b : ℤ) (hx : (x.toNat : ℤ) = a % 2 ^ 16)
    (hy : (y.toNat : ℤ) = b % 2 ^ 16) : ((x + y).toNat : ℤ) = (a + b) % 2 ^ 16 := by
  rw [UInt16.toNat_add]
  omega

/-- The sum of the differences of some capacities and sizes. -/
def difference (l : List (ℕ × ℕ)) : ℤ := (l.map fun k => (k.1 : ℤ) - k.2).sum

mutual

/-- `getFreeSlots` is the sum of all differences modulo 2^16. -/
theorem toNat_getFreeSlots : (x : Item) → ((getFreeSlots x).toNat : ℤ) = difference (containers x) % 2 ^ 16
  | .item _ => by simp [getFreeSlots, containers, difference]
  | .container _ maxSize itemlist => by
    rw [getFreeSlots, max_zero, containers, difference, List.map_cons, List.sum_cons]
    exact toNat_add_emod _ _ _ _ (toNat_ofInt _) (toNat_getFreeSlotsIn itemlist)

theorem toNat_getFreeSlotsIn : (l : List Item) →
    ((getFreeSlotsIn l).toNat : ℤ) = difference (containersIn l) % 2 ^ 16
  | [] => by simp [getFreeSlotsIn, containersIn, difference]
  | x :: l => by
    rw [getFreeSlotsIn, max_zero, containersIn, difference, List.map_append, List.sum_append]
    refine toNat_add_emod _ _ _ _ ?_ (toNat_getFreeSlotsIn l)
    cases x with
    | item body => simp [Item.isContainer, containers]
    | container body maxSize itemlist =>
      rw [Item.isContainer, if_pos rfl]
      exact toNat_getFreeSlots _

end

theorem difference_containers (c : Item) : difference (containers c) = freeSlots c - overfull c := by
  unfold difference freeSlots overfull
  induction containers c with
  | nil => rfl
  | cons k l ih =>
    simp only [List.map_cons, List.sum_cons, ih]
    push_cast
    omega

theorem freeSlots_eq_zero_iff (c : Item) : freeSlots c = 0 ↔ ∀ k ∈ containers c, k.1 ≤ k.2 := by
  simp only [freeSlots, List.sum_eq_zero_iff, List.forall_mem_map, Nat.sub_eq_zero_iff_le]

/-- **`getFreeSlots` counts the free slots**, where there are fewer than 2^16, if and only if the
items over a capacity are a multiple of 2^16: none, as a rule. -/
theorem countsFree_iff (c : Item) (h : freeSlots c < 2 ^ 16) : CountsFree c ↔ 2 ^ 16 ∣ overfull c := by
  have hvalue := toNat_getFreeSlots c
  rw [difference_containers] at hvalue
  refine ⟨fun hcounts => ?_, fun hdvd => ?_⟩
  · have heq := hcounts.toNat_eq
    omega
  · have heq : (getFreeSlots c).toNat = freeSlots c := by omega
    refine ⟨heq, ?_⟩
    rw [← freeSlots_eq_zero_iff, ← heq, ← UInt16.toNat_inj]
    rfl

/-- A backpack with a bag in it. -/
def backpack (bag : List Item) : Item := .container ⟨1, 2854, 1, 0⟩ 20 [.container ⟨2, 2853, 1, 0⟩ 8 bag]

/-- A backpack with nineteen slots and a bag with seven. -/
theorem countsFree_backpack :
    freeSlots (backpack [.item ⟨3, 3031, 100, 0⟩]) = 26 ∧ CountsFree (backpack [.item ⟨3, 3031, 100, 0⟩]) :=
  ⟨by decide, (countsFree_iff (backpack [.item ⟨3, 3031, 100, 0⟩]) (by decide)).2 (by decide)⟩

/-- A container with pages, with room for one item and two items in it, has 65535 free slots. -/
theorem not_countsFree_pages : ¬ ∀ c : Item, freeSlots c < 2 ^ 16 → CountsFree c := by
  intro h
  have hpages := h (.container ⟨1, 23396, 1, 0⟩ 1 [.item ⟨2, 3031, 100, 0⟩, .item ⟨3, 3031, 100, 0⟩]) (by decide)
  exact absurd hpages.toNat_eq (by decide)

end TiabloServer.Containers
