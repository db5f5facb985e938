import TiabloServer.Items.Money

/-!
# What a player carries

The items of a player as `Player::getAllInventoryItems` lists them, and the functions of `Player`
and `Game` that take items, counted items and money from him: `Game::internalRemoveItem`,
`Player::removeItemCountById`, `Game::removeMoney`. What is put into the inventory finds its place
by `Game::internalAddItem`; this file is generic in that function, of which it assumes that what is
accepted arrives whole.

## Main definitions

* `Forge.Purse` — the inventory with the stash, the bank balance and what was dropped.
* `Forge.removeItemCountById`, `Forge.removeMoney` — the functions of the source.

## Main results

* `Forge.removeItemCountById_spec` — a counted removal takes exactly what it is to, or nothing.
* `Forge.removeMoney_spec` — so does a payment.
-/

namespace TiabloServer.Forge

open Items (worthOf ITEM_GOLD_COIN ITEM_PLATINUM_COIN ITEM_CRYSTAL_COIN coinStacks changedCount)

/-! ## Items -/

def ITEM_FORGE_SLIVER : ℕ := 37109
def ITEM_FORGE_CORE : ℕ := 37110
def ITEM_EXALTATION_CHEST : ℕ := 37561

/-- The ids that are paid with: coins, slivers and cores. They stack and may always be removed. -/
def isCurrency (id : ℕ) : Bool := worthOf id ≠ 0 ∨ id = ITEM_FORGE_SLIVER ∨ id = ITEM_FORGE_CORE

/-- An item apart from its place: `removable` says that neither `Item::canRemove` nor the check for
decaying items of the map keeps it where it is. -/
structure Body where
  id : ℕ
  count : ℕ
  tier : Option UInt8
  hasImbuements : Bool
  removable : Bool
deriving DecidableEq

/-- An item of an inventory: the object, and the containers in which it lies. -/
structure Item extends Body where
  uid : ℕ
  holders : List ℕ
deriving DecidableEq

/-- `Item::getWorth`. -/
def Body.getWorth (x : Body) : ℕ := x.count * worthOf x.id

/-- The items of a player, in the order of `getAllInventoryItems`. -/
structure Inventory where
  items : List Item
  nodup : (items.map (·.uid)).Nodup
  count_pos : ∀ x ∈ items, 0 < x.count
  holds_none : ∀ x ∈ items, isCurrency x.id → ∀ y ∈ items, x.uid ∉ y.holders
  removable : ∀ x ∈ items, isCurrency x.id → x.removable = true

/-- What the items count for, when one of an id counts for `f id`. -/
def bodiesTotal (f : ℕ → ℕ) (l : List Body) : ℕ := (l.map fun x => x.count * f x.id).sum

namespace Inventory

/-- What the items of an inventory count for. -/
def total (inv : Inventory) (f : ℕ → ℕ) : ℕ := (inv.items.map fun x => x.count * f x.id).sum

/-- The number of items of an id. -/
def units (inv : Inventory) (id : ℕ) : ℕ := inv.total fun i => if i = id then 1 else 0

/-- The items without one of them and without what it holds. -/
def without (inv : Inventory) (x : Item) : Inventory where
  items := inv.items.filter fun y => y.uid ≠ x.uid ∧ x.uid ∉ y.holders
  nodup := inv.nodup.sublist (List.filter_sublist.map _)
  count_pos y hy := inv.count_pos y (List.mem_of_mem_filter hy)
  holds_none y hy hcur z hz :=
    inv.holds_none y (List.mem_of_mem_filter hy) hcur z (List.mem_of_mem_filter hz)
  removable y hy := inv.removable y (List.mem_of_mem_filter hy)

/-- `Item::setItemCount`. -/
def setItemCount (inv : Inventory) (x : Item) (n : ℕ) (hn : 0 < n) : Inventory where
  items := inv.items.map fun y => { y with count := if y = x then n else y.count }
  nodup := by simpa [Function.comp_def] using inv.nodup
  count_pos y hy := by
    obtain ⟨z, hz, rfl⟩ := List.mem_map.1 hy
    by_cases h : z = x
    · simpa [h] using hn
    · simpa [h] using inv.count_pos z hz
  holds_none y hy hcur z hz := by
    obtain ⟨u, hu, rfl⟩ := List.mem_map.1 hy
    obtain ⟨v, hv, rfl⟩ := List.mem_map.1 hz
    exact inv.holds_none u hu hcur v hv
  removable y hy hcur := by
    obtain ⟨u, hu, rfl⟩ := List.mem_map.1 hy
    exact inv.removable u hu hcur

/-- `Game::internalRemoveItem`; nothing when it is refused. -/
def internalRemoveItem (types : Items.ItemTypes) (inv : Inventory) (x : Item) (count : ℕ) :
    Option Inventory :=
  if x ∉ inv.items then none
  else if count = 0 ∨ ((types x.id).stackable ∧ x.count < count) ∨ ¬ x.removable then none
  else if h : (types x.id).stackable ∧ count < x.count then
    some (inv.setItemCount x (x.count - count) (Nat.sub_pos_of_lt h.2))
  else some (inv.without x)

/-! ### What a removal takes -/

theorem eq_of_uid (inv : Inventory) {x y : Item} (hx : x ∈ inv.items) (hy : y ∈ inv.items)
    (h : x.uid = y.uid) : x = y :=
  List.inj_on_of_nodup_map inv.nodup hx hy h

theorem items_nodup (inv : Inventory) : inv.items.Nodup := inv.nodup.of_map

theorem total_eq_erase (inv : Inventory) {x : Item} (hx : x ∈ inv.items) (f : ℕ → ℕ) :
    inv.total f = x.count * f x.id + ((inv.items.erase x).map fun y => y.count * f y.id).sum :=
  (List.sum_map_erase (fun y : Item => y.count * f y.id) hx).symm

theorem total_setItemCount (inv : Inventory) {x : Item} (hx : x ∈ inv.items) {n : ℕ} (hn : 0 < n) (f : ℕ → ℕ) :
    (inv.setItemCount x n hn).total f + x.count * f x.id = inv.total f + n * f x.id := by
  have hperm := (List.perm_cons_erase hx).map fun y : Item =>
    ({ y with count := if y = x then n else y.count } : Item)
  have hrest : (inv.items.erase x).map (fun y : Item =>
      ({ y with count := if y = x then n else y.count } : Item)) = inv.items.erase x := by
    refine (List.map_congr_left fun y hy => ?_).trans (List.map_id _)
    rw [inv.items_nodup.mem_erase_iff] at hy
    simp [hy.1]
  have hsum : (inv.setItemCount x n hn).total f =
      n * f x.id + ((inv.items.erase x).map fun y => y.count * f y.id).sum := by
    have := (hperm.map fun y : Item => y.count * f y.id).sum_eq
    simpa [total, setItemCount, hrest] using this
  rw [hsum, inv.total_eq_erase hx f]
  omega

theorem items_without_sublist (inv : Inventory) (x : Item) : (inv.without x).items.Sublist (inv.items.erase x) := by
  have h := (List.filter_sublist (l := inv.items)
    (p := fun y => decide (y.uid ≠ x.uid ∧ x.uid ∉ y.holders))).erase x
  rwa [List.erase_of_not_mem (by simp)] at h

theorem total_without_le (inv : Inventory) {x : Item} (hx : x ∈ inv.items) (f : ℕ → ℕ) :
    (inv.without x).total f + x.count * f x.id ≤ inv.total f := by
  have h := ((inv.items_without_sublist x).map fun y : Item => y.count * f y.id).sum_le_sum
    fun _ _ => Nat.zero_le _
  rw [inv.total_eq_erase hx f]
  have : (inv.without x).total f ≤ ((inv.items.erase x).map fun y => y.count * f y.id).sum := h
  omega

/-- Nothing lies in a currency. -/
theorem items_without (inv : Inventory) {x : Item} (hx : x ∈ inv.items) (hcur : isCurrency x.id) :
    (inv.without x).items = inv.items.erase x := by
  rw [inv.items_nodup.erase_eq_filter]
  refine List.filter_congr fun y hy => ?_
  have hholds := inv.holds_none x hx hcur y hy
  by_cases h : y = x
  · simp [h]
  · have huid : y.uid ≠ x.uid := fun he => h (inv.eq_of_uid hy hx he)
    simp [h, hholds, huid]

theorem total_without (inv : Inventory) {x : Item} (hx : x ∈ inv.items) (hcur : isCurrency x.id)
    (f : ℕ → ℕ) : (inv.without x).total f + x.count * f x.id = inv.total f := by
  rw [inv.total_eq_erase hx f, total, inv.items_without hx hcur]
  exact Nat.add_comm _ _

variable {types : Items.ItemTypes} {inv inv' : Inventory} {x : Item} {count : ℕ}

/-- What is removed is there, and it is part of a stack or all of the item. -/
theorem internalRemoveItem_eq_some (h : inv.internalRemoveItem types x count = some inv') :
    x ∈ inv.items ∧ 0 < count ∧
      ((∃ hlt : count < x.count, inv' = inv.setItemCount x (x.count - count) (Nat.sub_pos_of_lt hlt)) ∨
        inv' = inv.without x ∧ ((types x.id).stackable = true → count = x.count)) := by
  unfold internalRemoveItem at h
  split_ifs at h with hmem hrefuse hpart
  · obtain rfl := Option.some.inj h
    exact ⟨hmem, by omega, Or.inl ⟨hpart.2, rfl⟩⟩
  · obtain rfl := Option.some.inj h
    refine ⟨hmem, by omega, Or.inr ⟨rfl, fun hstack => ?_⟩⟩
    simp only [not_or, not_and, not_lt] at hrefuse hpart
    exact le_antisymm (hrefuse.2.1 hstack) (hpart hstack)

/-- A removal takes at least one of the item, and adds nothing. -/
theorem total_internalRemoveItem_le (h : inv.internalRemoveItem types x count = some inv')
    (f : ℕ → ℕ) : inv'.total f + f x.id ≤ inv.total f := by
  obtain ⟨hx, hcount, ⟨hlt, rfl⟩ | ⟨rfl, -⟩⟩ := internalRemoveItem_eq_some h
  · have hset := inv.total_setItemCount hx (Nat.sub_pos_of_lt hlt) f
    have hsplit : x.count * f x.id = (x.count - count) * f x.id + count * f x.id := by
      rw [← Nat.add_mul, Nat.sub_add_cancel hlt.le]
    have : f x.id ≤ count * f x.id := Nat.le_mul_of_pos_left _ hcount
    omega
  · have hle := inv.total_without_le hx f
    have : f x.id ≤ x.count * f x.id := Nat.le_mul_of_pos_left _ (inv.count_pos x hx)
    omega

/-- The other items stay when a currency is removed. -/
theorem mem_internalRemoveItem (h : inv.internalRemoveItem types x count = some inv')
    (hcur : isCurrency x.id) {y : Item} (hy : y ∈ inv.items) (hne : y ≠ x) : y ∈ inv'.items := by
  obtain ⟨hx, -, ⟨hlt, rfl⟩ | ⟨rfl, -⟩⟩ := internalRemoveItem_eq_some h
  · exact List.mem_map.2 ⟨y, hy, by simp [hne]⟩
  · rw [inv.items_without hx hcur]
    exact (List.mem_erase_of_ne hne).2 hy

/-- A stack of a currency gives up what is asked of it. -/
theorem exists_internalRemoveItem (hstack : ∀ id, isCurrency id → (types id).stackable = true)
    (hx : x ∈ inv.items) (hcur : isCurrency x.id) (hpos : 0 < count) (hle : count ≤ x.count) :
    ∃ inv', inv.internalRemoveItem types x count = some inv' ∧
      ∀ f, inv'.total f + count * f x.id = inv.total f := by
  have hstackable := hstack x.id hcur
  have hremovable := inv.removable x hx hcur
  have hkept : ¬ (count = 0 ∨ ((types x.id).stackable = true ∧ x.count < count) ∨ ¬ x.removable = true) := by
    simp only [hremovable, not_true_eq_false, or_false, not_or, not_and, not_lt]
    exact ⟨hpos.ne', fun _ => hle⟩
  unfold internalRemoveItem
  rw [if_neg (not_not.2 hx), if_neg hkept]
  by_cases hlt : count < x.count
  · rw [dif_pos ⟨hstackable, hlt⟩]
    refine ⟨_, rfl, fun f => ?_⟩
    have hset := inv.total_setItemCount hx (Nat.sub_pos_of_lt hlt) f
    have hsplit : x.count * f x.id = (x.count - count) * f x.id + count * f x.id := by
      rw [← Nat.add_mul, Nat.sub_add_cancel hle]
    omega
  · rw [dif_neg fun h => hlt h.2]
    obtain rfl : count = x.count := by omega
    exact ⟨_, rfl, inv.total_without hx hcur⟩

end Inventory

/-! ## Counted removals -/

/-- What is taken when the player pays: his inventory, his stash (the count of each id), his bank
account, and what has been dropped at his feet for want of room. -/
structure Purse where
  inventory : Inventory
  stash : ℕ → ℕ
  ground : List Body
  bankBalance : ℕ

/-- `Player::hasItemCountById`; the count is a 32-bit value. -/
def hasItemCountById (s : Purse) (itemId itemAmount : ℕ) : Bool :=
  itemAmount ≤ (s.inventory.units itemId + s.stash itemId) % 2 ^ 32

/-- The loop of `removeItemCountById` over the items of the id: the inventory and, when it comes to
its end, what is left to remove. -/
def removeStacks (types : Items.ItemTypes) : Inventory → List Item → ℕ → Inventory × Option ℕ
  | inv, [], amountToRemove => (inv, some amountToRemove)
  | inv, x :: l, amountToRemove =>
    if amountToRemove ≤ x.count then
      ((inv.internalRemoveItem types x amountToRemove).getD inv, none)
    else
      removeStacks types ((inv.internalRemoveItem types x x.count).getD inv) l (amountToRemove - x.count)

/-- `Player::removeItemCountById`: whether it succeeds, and what is left. -/
def removeItemCountById (types : Items.ItemTypes) (s : Purse) (itemId itemAmount : ℕ) : Bool × Purse :=
  if hasItemCountById s itemId itemAmount then
    match removeStacks types s.inventory (s.inventory.items.filter (·.id = itemId)) itemAmount with
    | (inv, none) => (true, { s with inventory := inv })
    | (inv, some rest) =>
      if 0 < rest ∧ rest ≤ s.stash itemId then
        (true, { s with
          inventory := inv
          stash := Function.update s.stash itemId (s.stash itemId - rest) })
      else (false, { s with inventory := inv })
  else (false, s)

/-- A counted removal took `amount` of an id, and left the rest as it was. -/
structure TakesUnits (id amount : ℕ) (s s' : Purse) : Prop where
  total : ∀ f : ℕ → ℕ, s'.inventory.total f + s'.stash id * f id + amount * f id =
    s.inventory.total f + s.stash id * f id
  stash : ∀ k, k ≠ id → s'.stash k = s.stash k
  ground : s'.ground = s.ground
  bankBalance : s'.bankBalance = s.bankBalance

theorem units_eq_sum (inv : Inventory) (id : ℕ) :
    inv.units id = ((inv.items.filter (·.id = id)).map (·.count)).sum := by
  unfold Inventory.units Inventory.total
  induction inv.items with
  | nil => rfl
  | cons x l ih =>
    rw [List.map_cons, List.sum_cons, ih]
    by_cases h : x.id = id <;> simp [h]

section Counted

variable {types : Items.ItemTypes} (hstack : ∀ id, isCurrency id → (types id).stackable = true)
include hstack

/-- The loop takes what it is to or all there is, and then something is left to remove. -/
theorem removeStacks_spec {id : ℕ} (hcur : isCurrency id) {inv : Inventory} {l : List Item}
    (hl : ∀ x ∈ l, x ∈ inv.items ∧ x.id = id) (hnodup : l.Nodup) (amount : ℕ) :
    (∀ f, (removeStacks types inv l amount).1.total f +
        (amount - (removeStacks types inv l amount).2.getD 0) * f id = inv.total f) ∧
      ∀ rest, (removeStacks types inv l amount).2 = some rest →
        rest + (l.map (·.count)).sum = amount ∧ (0 < amount → 0 < rest) := by
  induction l generalizing inv amount with
  | nil => exact ⟨fun f => by simp [removeStacks], by rintro rest ⟨⟩; simp⟩
  | cons x l ih =>
    obtain ⟨hx, hid⟩ := hl x List.mem_cons_self
    have hxcur : isCurrency x.id := hid ▸ hcur
    rw [removeStacks]
    by_cases hle : amount ≤ x.count
    · rw [if_pos hle]
      refine ⟨fun f => ?_, by simp⟩
      rcases Nat.eq_zero_or_pos amount with rfl | hpos
      · simp [Inventory.internalRemoveItem]
      · obtain ⟨inv', hremove, htotal⟩ := inv.exists_internalRemoveItem hstack hx hxcur hpos hle
        simpa [hremove, hid] using htotal f
    · rw [if_neg hle]
      obtain ⟨inv', hremove, htotal⟩ :=
        inv.exists_internalRemoveItem hstack hx hxcur (inv.count_pos x hx) le_rfl
      rw [hremove, Option.getD_some]
      have hnot : x ∉ l := (List.nodup_cons.1 hnodup).1
      have hrest : ∀ y ∈ l, y ∈ inv'.items ∧ y.id = id := fun y hy =>
        ⟨inv.mem_internalRemoveItem hremove hxcur (hl y (List.mem_cons_of_mem x hy)).1
          (ne_of_mem_of_not_mem hy hnot), (hl y (List.mem_cons_of_mem x hy)).2⟩
      obtain ⟨hsum, hleft⟩ := ih hrest (List.nodup_cons.1 hnodup).2 (amount - x.count)
      have hleftover : (removeStacks types inv' l (amount - x.count)).2.getD 0 ≤ amount - x.count := by
        cases hr : (removeStacks types inv' l (amount - x.count)).2 with
        | none => simp
        | some rest => exact (Nat.le_add_right _ _).trans (hleft rest hr).1.le
      constructor
      · intro f
        rw [← htotal f, ← hsum f, hid, Nat.add_assoc, ← Nat.add_mul]
        congr 2
        omega
      · intro rest hr
        obtain ⟨hcount, hpos⟩ := hleft rest hr
        rw [List.map_cons, List.sum_cons]
        exact ⟨by omega, fun _ => hpos (by omega)⟩

/-- **Counted removals.** `removeItemCountById` takes exactly the amount, from the items and then
from the stash, or nothing. It succeeds when there are enough, but an amount of 0 needs an item of
the id. -/
theorem removeItemCountById_spec {id : ℕ} (hcur : isCurrency id) (s : Purse) (amount : ℕ) :
    if hasItemCountById s id amount ∧ (0 < amount ∨ 0 < s.inventory.units id) then
      (removeItemCountById types s id amount).1 = true ∧
        TakesUnits id amount s (removeItemCountById types s id amount).2
    else removeItemCountById types s id amount = (false, s) := by
  have hl : ∀ x ∈ s.inventory.items.filter (·.id = id), x ∈ s.inventory.items ∧ x.id = id := by simp
  obtain ⟨htotal, hleft⟩ := removeStacks_spec hstack hcur hl (s.inventory.items_nodup.filter _) amount
  rw [← units_eq_sum] at hleft
  by_cases hhas : hasItemCountById s id amount
  · have henough : amount ≤ s.inventory.units id + s.stash id :=
      (of_decide_eq_true hhas).trans (Nat.mod_le _ _)
    cases hr : removeStacks types s.inventory (s.inventory.items.filter (·.id = id)) amount with
    | mk inv r =>
    simp only [hr] at htotal hleft
    cases r with
    | none =>
      -- a stack was worth the rest of the amount, so there was a stack
      have hsome : 0 < amount ∨ 0 < s.inventory.units id := by
        by_contra hnone
        obtain ⟨rfl, hunits⟩ : amount = 0 ∧ s.inventory.units id = 0 := by omega
        rw [units_eq_sum] at hunits
        cases hl : s.inventory.items.filter (·.id = id) with
        | nil => simp [hl, removeStacks] at hr
        | cons x l =>
          have hx : x ∈ s.inventory.items := List.mem_of_mem_filter (hl ▸ List.mem_cons_self)
          have := s.inventory.count_pos x hx
          simp [hl] at hunits
          omega
      rw [if_pos ⟨hhas, hsome⟩]
      simp only [removeItemCountById, if_pos hhas, hr]
      refine ⟨trivial, fun f => ?_, fun _ _ => rfl, rfl, rfl⟩
      have := htotal f
      simp only [Option.getD_none, Nat.sub_zero] at this
      show inv.total f + s.stash id * f id + amount * f id = _
      omega
    | some rest =>
      obtain ⟨hcount, hpos⟩ := hleft rest rfl
      simp only [Option.getD_some] at htotal
      by_cases hrest : 0 < rest
      · have hstash : rest ≤ s.stash id := by omega
        rw [if_pos ⟨hhas, Or.inl (by omega)⟩]
        have hwithdraw : 0 < rest ∧ rest ≤ s.stash id := ⟨hrest, hstash⟩
        simp only [removeItemCountById, if_pos hhas, hr, if_pos hwithdraw]
        refine ⟨trivial, fun f => ?_, fun k hk => Function.update_of_ne hk _ _, rfl, rfl⟩
        have hsplit : s.stash id * f id = (s.stash id - rest) * f id + rest * f id := by
          rw [← Nat.add_mul, Nat.sub_add_cancel hstash]
        have hsplit' : amount * f id = (amount - rest) * f id + rest * f id := by
          rw [← Nat.add_mul, Nat.sub_add_cancel (by omega)]
        have := htotal f
        simp only [Function.update_self]
        omega
      · obtain ⟨rfl, hzero⟩ : rest = 0 ∧ amount = 0 := by
          constructor
          · omega
          · by_contra hne
            exact hrest (hpos (Nat.pos_of_ne_zero hne))
        subst hzero
        rw [if_neg (by omega)]
        simp only [removeItemCountById, if_pos hhas, hr, lt_irrefl, false_and, if_false]
        have hunits : s.inventory.units id = 0 := by omega
        rw [units_eq_sum] at hunits
        cases hl : s.inventory.items.filter (·.id = id) with
        | nil =>
          simp only [hl, removeStacks, Prod.mk.injEq] at hr
          rw [← hr.1]
        | cons x l =>
          have hx : x ∈ s.inventory.items := List.mem_of_mem_filter (hl ▸ List.mem_cons_self)
          have := s.inventory.count_pos x hx
          simp [hl] at hunits
          omega
  · rw [if_neg fun h => hhas h.1, removeItemCountById, if_neg hhas]

end Counted

/-! ## Money -/

/-- A new stack of coins. -/
def coins (e : ℕ × ℕ) : Body where
  id := e.1
  count := e.2
  tier := none
  hasImbuements := false
  removable := true

/-- `Game::internalAddItem` of new items to a player: his inventory with them, nothing when it
refuses them. All that is relied on is that coins which are accepted arrive whole, and that items of
other ids stay as they are then. -/
structure Placing where
  place : Inventory → List Body → Option Inventory
  total_place : ∀ {inv e inv'}, worthOf e.1 ≠ 0 → place inv [coins e] = some inv' →
    ∀ f, inv'.total f = inv.total f + bodiesTotal f [coins e]
  mem_place : ∀ {inv e inv'}, worthOf e.1 ≠ 0 → place inv [coins e] = some inv' →
    ∀ x ∈ inv.items, x.id ≠ e.1 → x ∈ inv'.items

/-- The stacks of coins that `removeMoney` finds, as its map has them: those of less worth first,
and of the same worth those on the slots first, then level by level those in the containers. -/
def moneyMap (inv : Inventory) : List Item :=
  ((inv.items.insertionSort fun x y => x.holders.length ≤ y.holders.length).filter
    fun x => x.getWorth ≠ 0).insertionSort fun x y => x.getWorth ≤ y.getWorth

section Money

variable (types : Items.ItemTypes) (P : Placing)

/-- A stack of coins goes to the inventory or, when that refuses it, to the ground. -/
def addCoins (s : Purse) (e : ℕ × ℕ) : Purse :=
  match P.place s.inventory [coins e] with
  | some inv => { s with inventory := inv }
  | none => { s with ground := coins e :: s.ground }

/-- `Game::addMoney`. -/
def addMoney (s : Purse) (money : ℕ) : Purse := (coinStacks money).foldl (addCoins P) s

/-- `Game::internalRemoveItem` for coins, whose answer `removeMoney` does not look at. -/
def Purse.removeCoin (s : Purse) (x : Item) (count : ℕ) : Purse :=
  { s with inventory := (s.inventory.internalRemoveItem types x count).getD s.inventory }

/-- The loop of `removeMoney` over `moneyMap`: what is left and, when it comes to its end, what is
left to pay. -/
def removeCoins : Purse → ℕ → List Item → Purse × Option ℕ
  | s, money, [] => (s, some money)
  | s, money, x :: map =>
    if x.getWorth < money then
      removeCoins (s.removeCoin types x x.count) (money - x.getWorth) map
    else if money < x.getWorth then
      let worth := x.getWorth / x.count
      let removeCount := changedCount money worth
      ((addMoney P s (worth * removeCount - money)).removeCoin types x removeCount, none)
    else (s.removeCoin types x x.count, none)

/-- `Game::removeMoney` with the use of the bank balance: whether it succeeds, and what is left. -/
def removeMoney (s : Purse) (money : ℕ) : Bool × Purse :=
  if money = 0 then (true, s)
  else
    let moneyCount := ((moneyMap s.inventory).map (·.getWorth)).sum % 2 ^ 64
    if (moneyCount + s.bankBalance) % 2 ^ 64 < money then (false, s)
    else
      match removeCoins types P s money (moneyMap s.inventory) with
      | (s, none) => (true, s)
      | (s, some rest) =>
        (true, if rest ≤ s.bankBalance then { s with bankBalance := s.bankBalance - rest } else s)

end Money

/-- The money that is carried, that was dropped and that is in the bank. -/
def Purse.funds (s : Purse) : ℕ :=
  s.inventory.total worthOf + bodiesTotal worthOf s.ground + s.bankBalance

/-- Only money has changed. -/
structure OnlyMoney (s s' : Purse) : Prop where
  total : ∀ f : ℕ → ℕ, (∀ id, worthOf id ≠ 0 → f id = 0) → s'.inventory.total f = s.inventory.total f
  stash : s'.stash = s.stash

theorem OnlyMoney.refl (s : Purse) : OnlyMoney s s := ⟨fun _ _ => rfl, rfl⟩

theorem OnlyMoney.trans {s₁ s₂ s₃ : Purse} (h : OnlyMoney s₁ s₂) (h' : OnlyMoney s₂ s₃) : OnlyMoney s₁ s₃ :=
  ⟨fun f hf => (h'.total f hf).trans (h.total f hf), h'.stash.trans h.stash⟩

section Paying

variable {types : Items.ItemTypes} {P : Placing}

/-- Coins that are put in add what they are worth. -/
theorem addCoins_spec (s : Purse) {e : ℕ × ℕ} (he : worthOf e.1 ≠ 0) :
    OnlyMoney s (addCoins P s e) ∧ (addCoins P s e).funds = s.funds + worthOf e.1 * e.2 ∧
      (addCoins P s e).bankBalance = s.bankBalance ∧
      ∀ x ∈ s.inventory.items, x.id ≠ e.1 → x ∈ (addCoins P s e).inventory.items := by
  have hworth : bodiesTotal worthOf [coins e] = worthOf e.1 * e.2 := by
    simp [bodiesTotal, coins, Nat.mul_comm]
  unfold addCoins
  cases hplace : P.place s.inventory [coins e] with
  | none =>
    refine ⟨⟨fun _ _ => rfl, rfl⟩, ?_, rfl, fun x hx _ => hx⟩
    simp only [Purse.funds]
    have : bodiesTotal worthOf (coins e :: s.ground) =
        bodiesTotal worthOf [coins e] + bodiesTotal worthOf s.ground := by simp [bodiesTotal]
    omega
  | some inv =>
    have htotal := P.total_place he hplace
    refine ⟨⟨fun f hf => ?_, rfl⟩, ?_, rfl, fun x hx hne => ?_⟩
    · simp [htotal f, bodiesTotal, coins, hf e.1 he]
    · simp only [Purse.funds, htotal]
      omega
    · exact P.mem_place he hplace x hx hne

theorem addAll_spec {l : List (ℕ × ℕ)} (hl : ∀ e ∈ l, worthOf e.1 ≠ 0) (s : Purse) :
    OnlyMoney s (l.foldl (addCoins P) s) ∧
      (l.foldl (addCoins P) s).funds = s.funds + (l.map fun e => worthOf e.1 * e.2).sum ∧
      (l.foldl (addCoins P) s).bankBalance = s.bankBalance ∧ ∀ x ∈ s.inventory.items, (∀ e ∈ l, x.id ≠ e.1) →
        x ∈ (l.foldl (addCoins P) s).inventory.items := by
  induction l generalizing s with
  | nil => exact ⟨OnlyMoney.refl s, by simp, rfl, fun x hx _ => hx⟩
  | cons e l ih =>
    obtain ⟨honly, hfunds, hbank, hmem⟩ := addCoins_spec (P := P) s (hl e List.mem_cons_self)
    obtain ⟨honly', hfunds', hbank', hmem'⟩ :=
      ih (fun b hb => hl b (List.mem_cons_of_mem e hb)) (addCoins P s e)
    refine ⟨honly.trans honly', ?_, hbank'.trans hbank, fun x hx hne => ?_⟩
    · rw [List.foldl_cons, hfunds', hfunds, List.map_cons, List.sum_cons]
      omega
    · exact hmem' x (hmem x hx (hne e List.mem_cons_self))
        fun b hb => hne b (List.mem_cons_of_mem e hb)

/-- `addMoney` adds the amount, and no coin that is worth more changes. -/
theorem addMoney_spec (s : Purse) {money : ℕ} (hmoney : money < 10000) :
    OnlyMoney s (addMoney P s money) ∧ (addMoney P s money).funds = s.funds + money ∧
      (addMoney P s money).bankBalance = s.bankBalance ∧
      ∀ x ∈ s.inventory.items, money < worthOf x.id → x ∈ (addMoney P s money).inventory.items := by
  obtain ⟨hcoins, hsum⟩ := Items.coinStacks_spec (hmoney.trans (by decide))
  obtain ⟨honly, hfunds, hbank, hmem⟩ := addAll_spec (P := P) (fun e he => (hcoins e he).1) s
  refine ⟨honly, by rw [addMoney, hfunds, hsum], hbank, fun x hx hlt => hmem x hx fun e he heq => ?_⟩
  have := (hcoins e he).2.1
  rw [heq] at hlt
  omega

/-- The number of coins that cover an amount that the stack is worth more than. -/
theorem changedCount_spec {money worth n : ℕ} (hmoney : 0 < money) (hlt : money < n * worth) :
    0 < changedCount money worth ∧ changedCount money worth ≤ n ∧
      money ≤ worth * changedCount money worth ∧ worth * changedCount money worth < money + worth := by
  have hworth : 0 < worth := Nat.pos_of_ne_zero fun h => by simp [h] at hlt
  have hdiv := Nat.div_add_mod (money + worth - 1) worth
  have hmod := Nat.mod_lt (money + worth - 1) hworth
  refine ⟨Nat.div_pos (by omega) hworth, ?_, by unfold changedCount; omega, by unfold changedCount; omega⟩
  refine Nat.lt_succ_iff.1 ((Nat.div_lt_iff_lt_mul hworth).2 ?_)
  rw [Nat.succ_mul]
  omega

/-- A stack of coins gives up some of them. -/
theorem removeCoin_spec (hstack : ∀ id, isCurrency id → (types id).stackable = true) {s : Purse}
    {x : Item} (hx : x ∈ s.inventory.items) (hcoin : worthOf x.id ≠ 0) {count : ℕ} (hpos : 0 < count)
    (hle : count ≤ x.count) : OnlyMoney s (s.removeCoin types x count) ∧
      (s.removeCoin types x count).funds + count * worthOf x.id = s.funds ∧
      ∀ y ∈ s.inventory.items, y ≠ x → y ∈ (s.removeCoin types x count).inventory.items := by
  have hcur : isCurrency x.id := by simp [isCurrency, hcoin]
  obtain ⟨inv, hremove, htotal⟩ := s.inventory.exists_internalRemoveItem hstack hx hcur hpos hle
  simp only [Purse.removeCoin, hremove, Option.getD_some, Purse.funds]
  refine ⟨⟨fun f hf => ?_, rfl⟩, ?_, fun y hy hne => ?_⟩
  · have := htotal f
    simpa [hf x.id hcoin] using this
  · have := htotal worthOf
    omega
  · exact s.inventory.mem_internalRemoveItem hremove hcur hy hne

/-- The loop pays the amount, or all the coins are worth, and then something is left to pay. -/
theorem removeCoins_spec (hstack : ∀ id, isCurrency id → (types id).stackable = true) {s : Purse}
    {map : List Item} (hmap : ∀ x ∈ map, x ∈ s.inventory.items ∧ worthOf x.id ≠ 0) (hnodup : map.Nodup)
    {money : ℕ} (hmoney : 0 < money) : OnlyMoney s (removeCoins types P s money map).1 ∧
      (removeCoins types P s money map).1.funds + money = s.funds + (removeCoins types P s money map).2.getD 0 ∧
      (removeCoins types P s money map).1.bankBalance = s.bankBalance ∧
      ∀ rest, (removeCoins types P s money map).2 = some rest → rest + (map.map (·.getWorth)).sum = money := by
  induction map generalizing s money with
  | nil => exact ⟨OnlyMoney.refl s, by simp [removeCoins], rfl, by rintro rest ⟨⟩; simp⟩
  | cons x map ih =>
    obtain ⟨hx, hcoin⟩ := hmap x List.mem_cons_self
    have hcount := s.inventory.count_pos x hx
    have hworth : x.getWorth = x.count * worthOf x.id := rfl
    rw [removeCoins]
    by_cases hlt : x.getWorth < money
    · rw [if_pos hlt]
      obtain ⟨honly, hfunds, hmem⟩ := removeCoin_spec hstack hx hcoin hcount le_rfl
      have hrest : ∀ y ∈ map, y ∈ (s.removeCoin types x x.count).inventory.items ∧ worthOf y.id ≠ 0 :=
        fun y hy => ⟨hmem y (hmap y (List.mem_cons_of_mem x hy)).1
          (ne_of_mem_of_not_mem hy (List.nodup_cons.1 hnodup).1), (hmap y (List.mem_cons_of_mem x hy)).2⟩
      obtain ⟨honly', hfunds', hbank', hleft⟩ :=
        ih hrest (List.nodup_cons.1 hnodup).2 (Nat.sub_pos_of_lt hlt)
      refine ⟨honly.trans honly', by omega, hbank', fun rest hr => ?_⟩
      have := hleft rest hr
      rw [List.map_cons, List.sum_cons]
      omega
    · rw [if_neg hlt]
      by_cases hgt : money < x.getWorth
      · -- the stack is worth more: change is given, of coins that are worth less
        rw [if_pos hgt]
        have hdiv : x.getWorth / x.count = worthOf x.id := by rw [hworth, Nat.mul_div_cancel_left _ hcount]
        rw [hworth] at hgt
        obtain ⟨hpos, hle, hcover, hchange⟩ := changedCount_spec hmoney hgt
        have hsmall : worthOf x.id ≤ 10000 := by
          rcases Items.worthOf_cases hcoin with h | h | h <;> rw [h] <;> decide
        simp only [hdiv]
        have hchanged : worthOf x.id * changedCount money (worthOf x.id) - money < 10000 := by omega
        obtain ⟨honly, hfunds, hbank, hmem⟩ := addMoney_spec (P := P) s hchanged
        obtain ⟨honly', hfunds', -⟩ :=
          removeCoin_spec hstack (hmem x hx (by omega)) hcoin hpos hle
        refine ⟨honly.trans honly', ?_, hbank, by simp⟩
        have hcomm := Nat.mul_comm (changedCount money (worthOf x.id)) (worthOf x.id)
        simp only [Option.getD_none]
        omega
      · rw [if_neg hgt]
        obtain ⟨honly, hfunds, -⟩ := removeCoin_spec hstack hx hcoin hcount le_rfl
        exact ⟨honly, by simp only [Option.getD_none]; omega, rfl, by simp⟩

theorem moneyMap_spec (inv : Inventory) :
    (∀ x ∈ moneyMap inv, x ∈ inv.items ∧ worthOf x.id ≠ 0) ∧ (moneyMap inv).Nodup := by
  have hperm := List.perm_insertionSort (fun x y : Item => x.holders.length ≤ y.holders.length) inv.items
  refine ⟨fun x hx => ?_, ?_⟩
  · rw [moneyMap, List.mem_insertionSort, List.mem_filter, hperm.mem_iff] at hx
    refine ⟨hx.1, fun h => ?_⟩
    simp [Body.getWorth, h] at hx
  · rw [moneyMap, (List.perm_insertionSort _ _).nodup_iff]
    exact ((hperm.nodup_iff).2 inv.items_nodup).filter _

/-- **Payments.** `removeMoney` takes exactly the amount, and changes nothing but money, or it takes
nothing; it succeeds when the coins and the balance are, as a 64-bit sum, no less than the
amount. -/
theorem removeMoney_spec (hstack : ∀ id, isCurrency id → (types id).stackable = true) (s : Purse)
    (money : ℕ) :
    if money ≤ (((moneyMap s.inventory).map (·.getWorth)).sum + s.bankBalance) % 2 ^ 64 then
      (removeMoney types P s money).1 = true ∧
        OnlyMoney s (removeMoney types P s money).2 ∧
        (removeMoney types P s money).2.funds + money = s.funds
    else removeMoney types P s money = (false, s) := by
  unfold removeMoney
  rcases Nat.eq_zero_or_pos money with rfl | hmoney
  · simp [OnlyMoney.refl]
  · obtain ⟨hmap, hnodup⟩ := moneyMap_spec s.inventory
    obtain ⟨honly, hfunds, hbank, hleft⟩ := removeCoins_spec (P := P) hstack hmap hnodup hmoney
    rw [if_neg hmoney.ne']
    simp only [Nat.mod_add_mod]
    by_cases henough : money ≤ (((moneyMap s.inventory).map (·.getWorth)).sum + s.bankBalance) % 2 ^ 64
    · rw [if_pos henough, if_neg (not_lt.2 henough)]
      have hsum := henough.trans (Nat.mod_le _ _)
      cases hr : removeCoins types P s money (moneyMap s.inventory) with
      | mk s' r =>
      simp only [hr] at honly hfunds hbank hleft
      cases r with
      | none => exact ⟨rfl, honly, by simpa using hfunds⟩
      | some rest =>
        have hrest := hleft rest rfl
        have hle : rest ≤ s'.bankBalance := by omega
        simp only [Option.getD_some] at hfunds
        simp only [if_pos hle]
        refine ⟨trivial, ⟨honly.total, honly.stash⟩, ?_⟩
        simp only [Purse.funds] at hfunds ⊢
        omega
    · rw [if_neg henough, if_pos (not_le.1 henough)]

end Paying

end TiabloServer.Forge
