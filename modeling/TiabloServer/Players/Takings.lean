import TiabloServer.Items.ContainerTree
import TiabloServer.Items.Stash

/-!
# Takings of items by count

`Player::removeItemCountById` and `Player::removeItemOfType` (`creatures/players/player.cpp`) count
the units of an id in the items of the player and then take the items one by one, whole, and a part
of the last one if it is a stack. An item that is taken whole takes along what lies in it.

## Main definitions

* `Taking.removeItemCountById`, `Taking.removeItemOfType` — the functions of the source.
* `Taking.Splits` — the amount can be taken without more coming along.

## Main results

* `Taking.takesExactly_iff` — the functions take the amount or leave everything if and only if their
  counters of 32 bits come to it and it splits.
-/

namespace TiabloServer.Taking

open Containers

/-! ## The items of a player -/

/-- An item, and the objects that it lies in. -/
structure Held where
  body : Body
  within : List ℕ

/-- `getItemCount`. -/
def Held.count (h : Held) : ℕ := h.body.count.toNat

/-- Items and what lies in them, with the objects around them. -/
def nested : BreadthFirst.Branching (Item × List ℕ) where
  children x := x.1.itemlist.map fun y => (y, x.1.body.object :: x.2)
  size x := x.1.size
  size_eq x := by
    rw [List.map_map]
    exact tree.size_eq x.1

/-- The item of a slot. -/
def equipped (x : Item) : Held := ⟨x.body, []⟩

/-- What lies in the item of a slot, in the order of its iterator. -/
def contents (x : Item) : List Held :=
  (nested.order (nested.children (x, []))).map fun y => ⟨y.1.body, y.2⟩

/-- `Player::getAllInventoryItems`, of the items of the slots. -/
def getAllInventoryItems (inventory : List Item) : List Held :=
  inventory.flatMap fun x => equipped x :: contents x

/-- What a player has: the items of his slots and all that lies in them, and his stash. -/
structure Holdings where
  items : List Held
  stashItems : List (ℕ × ℕ)

/-! ## The functions of the source -/

/-- `Game::internalRemoveItem`, of `n` units of an item that can be removed. An item that is removed
takes along what lies in it. -/
def internalRemoveItem (stackable : Bool) (h : Held) (n : ℕ) (items : List Held) : List Held :=
  if n = 0 ∨ stackable = true ∧ h.count < n then items
  else if stackable = true ∧ n ≠ h.count then
    items.map fun y => if y.body.object = h.body.object then
      { y with body := { y.body with count := UInt8.ofNat (h.count - n) } } else y
  else items.filter fun y => ¬ (h.body.object = y.body.object ∨ h.body.object ∈ y.within)

/-- `Item::countByType`. -/
def countByType (h : Held) (subType : ℤ) : ℕ :=
  if subType = -1 ∨ subType = h.body.subType then h.count else 0

/-- `Player::hasItemCountById`, with a counter of 32 bits. -/
def hasItemCountById (s : Holdings) (itemId itemAmount : ℕ) (checkStash : Bool) : Bool :=
  let newCount := ((s.items.filter (·.body.id = itemId)).map Held.count).sum % 2 ^ 32
  let newCount := if checkStash then (newCount + (Assoc.get s.stashItems itemId).getD 0) % 2 ^ 32 else newCount
  itemAmount ≤ newCount

/-- The loop of `removeItemCountById`: what is still to be taken, if it comes to its end, and the
items. -/
def takeById (stackable : Bool) : List Held → ℕ → List Held → Option ℕ × List Held
  | [], amountToRemove, items => (some amountToRemove, items)
  | h :: l, amountToRemove, items =>
    if amountToRemove ≤ h.count then (none, internalRemoveItem stackable h amountToRemove items)
    else takeById stackable l (amountToRemove - h.count) (internalRemoveItem stackable h h.count items)

/-- `Player::removeItemCountById`. -/
def removeItemCountById (stackable : ℕ → Bool) (s : Holdings) (itemId itemAmount : ℕ) (removeFromStash : Bool) :
    Bool × Holdings :=
  if hasItemCountById s itemId itemAmount removeFromStash then
    match takeById (stackable itemId) (s.items.filter (·.body.id = itemId)) itemAmount s.items with
    | (none, items) => (true, { s with items := items })
    | (some amountToRemove, items) =>
      match if removeFromStash ∧ 0 < amountToRemove then Items.withdrawItem s.stashItems itemId amountToRemove
        else none with
      | some stashItems => (true, ⟨items, stashItems⟩)
      | none => (false, { s with items := items })
  else (false, s)

/-- The items that `removeItemOfType` searches: the item of a slot, and what lies in it if it is not
of the id. -/
def searched (inventory : List Item) (itemId : ℕ) (subType : ℤ) (ignoreEquipped : Bool) : List Held :=
  inventory.flatMap fun x =>
    if ¬ ignoreEquipped ∧ x.body.id = itemId then [equipped x].filter fun h => countByType h subType ≠ 0
    else (contents x).filter fun h => h.body.id = itemId ∧ countByType h subType ≠ 0

/-- `Game::internalRemoveItems`, of stacks. -/
def removeStacks : List Held → ℕ → List Held → List Held
  | [], _, items => items
  | h :: l, amount, items =>
    if amount < h.count then internalRemoveItem true h amount items
    else removeStacks l (amount - h.count) (internalRemoveItem true h h.count items)

/-- `Game::internalRemoveItems`. -/
def internalRemoveItems (stackable : Bool) (l : List Held) (amount : ℕ) (items : List Held) : List Held :=
  if stackable then removeStacks l amount items
  else l.foldl (fun items h => internalRemoveItem false h h.count items) items

/-- The loop of `removeItemOfType` with its list and its counter of 32 bits: the items that come to
the amount. -/
def collectOfType (subType : ℤ) (amount : ℕ) : List Held → List Held → ℕ → Option (List Held)
  | [], _, _ => none
  | h :: l, itemList, count =>
    let itemList := itemList ++ [h]
    let count := (count + countByType h subType) % 2 ^ 32
    if amount ≤ count then some itemList else collectOfType subType amount l itemList count

/-- `Player::removeItemOfType`. -/
def removeItemOfType (stackable : ℕ → Bool) (inventory : List Item) (s : Holdings) (itemId amount : ℕ)
    (subType : ℤ) (ignoreEquipped : Bool) : Bool × Holdings :=
  if amount = 0 then (true, s)
  else
    match collectOfType subType amount (searched inventory itemId subType ignoreEquipped) [] 0 with
    | some itemList => (true, { s with items := internalRemoveItems (stackable itemId) itemList amount s.items })
    | none => (false, s)

/-! ## Units -/

/-- The units of an id. -/
def units (id : ℕ) (l : List Held) : ℕ := (l.map fun y => if y.body.id = id then y.count else 0).sum

/-- The items that are taken whole for an amount. -/
def wholes : ℕ → List Held → List Held
  | _, [] => []
  | n, h :: l => if h.count ≤ n then h :: wholes (n - h.count) l else []

/-- An item goes when some items are removed: it is one of them or lies in one. -/
def Goes (l : List Held) (y : Held) : Prop :=
  ∃ h ∈ l, h.body.object = y.body.object ∨ h.body.object ∈ y.within

instance (l : List Held) (y : Held) : Decidable (Goes l y) := List.decidableBEx _ _

/-- The sum of the counts of some items. -/
def sum (l : List Held) : ℕ := (l.map Held.count).sum

/-- The amount can be taken from the items `l`: what is left of it after the items that are taken
whole comes from a stack, and nothing of the id goes with those. -/
def Splits (stackable : Bool) (id n : ℕ) (l items : List Held) : Prop :=
  (stackable = true ∨ sum (wholes n l) = n ∨ sum l < n) ∧
    ∀ y ∈ items, y.body.id = id → 0 < y.count → Goes (wholes n l) y →
      ∃ h ∈ wholes n l, h.body.object = y.body.object

/-! ## Items that are removed -/

variable {stackable : Bool} {id n : ℕ} {l items : List Held}

theorem units_filter_add (id : ℕ) (p : Held → Prop) [DecidablePred p] (items : List Held) :
    units id (items.filter fun y => ¬ p y) + units id (items.filter fun y => p y) = units id items := by
  induction items with
  | nil => rfl
  | cons y items ih =>
    by_cases hy : p y
    · rw [List.filter_cons_of_neg (by simpa using hy), List.filter_cons_of_pos (by simpa using hy)]
      simp only [units, List.map_cons, List.sum_cons] at ih ⊢
      omega
    · rw [List.filter_cons_of_pos (by simpa using hy), List.filter_cons_of_neg (by simpa using hy)]
      simp only [units, List.map_cons, List.sum_cons] at ih ⊢
      omega

/-- The units that go, of items that are removed and of those that lie in them. -/
theorem units_goes (hitems : (items.map fun y => y.body.object).Nodup) (hl : l.Sublist items)
    (hid : ∀ h ∈ l, h.body.id = id) : units id (items.filter fun y => ¬ Goes l y) + sum l +
      units id (items.filter fun y => Goes l y ∧ ¬ ∃ h ∈ l, h.body.object = y.body.object) = units id items := by
  have hown : units id (items.filter fun y => ∃ h ∈ l, h.body.object = y.body.object) = sum l := by
    have hfilter : (items.filter fun y => ∃ h ∈ l, h.body.object = y.body.object) = l := by
      induction hl with
      | slnil => rfl
      | @cons l items a hl ih =>
        rw [List.map_cons, List.nodup_cons] at hitems
        rw [List.filter_cons_of_neg, ih hitems.2 hid]
        simp only [decide_eq_true_eq]
        rintro ⟨h, hh, heq⟩
        exact hitems.1 (heq ▸ List.mem_map_of_mem (hl.subset hh))
      | @cons_cons l items a hl ih =>
        rw [List.map_cons, List.nodup_cons] at hitems
        rw [List.filter_cons_of_pos (by simp)]
        congr 1
        rw [← ih hitems.2 fun h hh => hid h (List.mem_cons_of_mem _ hh)]
        refine List.filter_congr fun y hy => ?_
        have hne : a.body.object ≠ y.body.object := fun h => hitems.1 (h ▸ List.mem_map_of_mem hy)
        rw [ih hitems.2 fun h hh => hid h (List.mem_cons_of_mem _ hh)]
        simp [hne]
    rw [hfilter, units, sum]
    congr 1
    exact List.map_congr_left fun h hh => if_pos (hid h hh)
  have hgoes := units_filter_add id (Goes l) items
  have hsplit := units_filter_add id (fun y => ∃ h ∈ l, h.body.object = y.body.object)
    (items.filter fun y => Goes l y)
  rw [List.filter_filter, List.filter_filter] at hsplit
  have hboth : (items.filter fun y => decide (∃ h ∈ l, h.body.object = y.body.object) && decide (Goes l y)) =
      items.filter fun y => ∃ h ∈ l, h.body.object = y.body.object := by
    refine List.filter_congr fun y _ => ?_
    by_cases hy : ∃ h ∈ l, h.body.object = y.body.object
    · obtain ⟨h, hh, heq⟩ := hy
      have hg : Goes l y := ⟨h, hh, .inl heq⟩
      simp [hg]
    · simp [hy]
  have hcongr : (items.filter fun y => decide (¬ ∃ h ∈ l, h.body.object = y.body.object) && decide (Goes l y)) =
      items.filter fun y => Goes l y ∧ ¬ ∃ h ∈ l, h.body.object = y.body.object := by
    refine List.filter_congr fun y _ => ?_
    rw [Bool.and_comm, Bool.decide_and]
  rw [hboth, hown, hcongr] at hsplit
  omega

theorem internalRemoveItem_whole {h : Held} (hpos : 0 < h.count) (items : List Held) :
    internalRemoveItem stackable h h.count items = items.filter fun y => ¬ Goes [h] y := by
  rw [internalRemoveItem, if_neg (by omega), if_neg fun h => h.2 rfl]
  refine List.filter_congr fun y _ => ?_
  simp [Goes]

theorem internalRemoveItem_single {h : Held} (hn : 0 < n) (items : List Held) :
    internalRemoveItem false h n items = items.filter fun y => ¬ Goes [h] y := by
  rw [internalRemoveItem, if_neg (by simp; omega), if_neg (by simp)]
  refine List.filter_congr fun y _ => ?_
  simp [Goes]

theorem goes_append {l l' : List Held} {y : Held} : Goes (l ++ l') y ↔ Goes l y ∨ Goes l' y := by
  simp only [Goes, List.mem_append, or_and_right, exists_or]

theorem filter_goes_append (l l' items : List Held) :
    ((items.filter fun y => ¬ Goes l y).filter fun y => ¬ Goes l' y) = items.filter fun y => ¬ Goes (l ++ l') y := by
  rw [List.filter_filter]
  refine List.filter_congr fun y _ => ?_
  rw [← Bool.decide_and]
  exact decide_eq_decide.2 ((and_comm.trans not_or.symm).trans (not_congr goes_append.symm))

/-- The units of a stack that some are taken from. -/
theorem units_split (hitems : (items.map fun y => y.body.object).Nodup) {h : Held} (hh : h ∈ items)
    (hid : h.body.id = id) (hn : 0 < n) (hlt : n < h.count) :
    units id (internalRemoveItem true h n items) + n = units id items := by
  have hcount : (UInt8.ofNat (h.body.count.toNat - n)).toNat = h.body.count.toNat - n := by
    have hsmall := h.body.count.toNat_lt
    rw [UInt8.toNat_ofNat', Nat.mod_eq_of_lt (by omega)]
  rw [internalRemoveItem, if_neg (by omega), if_pos ⟨rfl, by omega⟩]
  induction items with
  | nil => cases hh
  | cons y items ih =>
    rw [List.map_cons, List.nodup_cons] at hitems
    rcases List.mem_cons.1 hh with rfl | hh
    · have hrest : (items.map fun y => if y.body.object = h.body.object then
          { y with body := { y.body with count := UInt8.ofNat (h.count - n) } } else y) = items := by
        refine (List.map_congr_left fun y hy => ?_).trans (List.map_id items)
        have hne : y.body.object ≠ h.body.object := fun heq => hitems.1 (heq ▸ List.mem_map_of_mem hy)
        rw [if_neg hne]
        rfl
      rw [List.map_cons, hrest, if_pos rfl]
      simp only [units, List.map_cons, List.sum_cons, if_pos hid, Held.count, hcount]
      simp only [Held.count] at hlt
      omega
    · have hne : y.body.object ≠ h.body.object := fun heq => hitems.1 (heq ▸ List.mem_map_of_mem hh)
      have hrest := ih hitems.2 hh
      rw [List.map_cons, if_neg hne]
      simp only [units, List.map_cons, List.sum_cons] at hrest ⊢
      omega

/-- Where a stack is gone already, nothing is taken from it. -/
theorem internalRemoveItem_gone {h : Held} (hh : ∀ y ∈ items, y.body.object ≠ h.body.object) (hn : n < h.count) :
    internalRemoveItem true h n items = items := by
  rw [internalRemoveItem]
  by_cases hzero : n = 0
  · rw [if_pos (.inl hzero)]
  · rw [if_neg (by omega), if_pos ⟨rfl, by omega⟩]
    refine (List.map_congr_left fun y hy => ?_).trans (List.map_id items)
    rw [if_neg (hh y hy)]
    rfl

/-! ## The items that are taken whole -/

theorem wholes_begins (n : ℕ) (l : List Held) : wholes n l <+: l := by
  induction l generalizing n with
  | nil => exact List.prefix_rfl
  | cons h l ih =>
    rw [wholes]
    split_ifs
    · exact List.prefix_cons_inj h |>.2 (ih _)
    · exact List.nil_prefix

/-- Items without units are passed over. -/
theorem takeById_filter (hn : 0 < n) (l items : List Held) :
    takeById stackable l n items = takeById stackable (l.filter fun h => 0 < h.count) n items := by
  induction l generalizing n items with
  | nil => rfl
  | cons h l ih =>
    by_cases hpos : 0 < h.count
    · rw [List.filter_cons_of_pos (by simpa using hpos), takeById, takeById]
      split_ifs with hle
      · rfl
      · exact ih (by omega) _
    · have hzero : h.count = 0 := by omega
      have hsame : internalRemoveItem stackable h 0 items = items := if_pos (.inl rfl)
      rw [List.filter_cons_of_neg (by simpa using hpos), takeById, if_neg (by omega), hzero, Nat.sub_zero, hsame]
      exact ih hn _

/-- What the loop over items with units does: it takes items whole, and what is left of the amount
from the next. -/
theorem takeById_cases (stackable : Bool) (hn : 0 < n) (hpos : ∀ h ∈ l, 0 < h.count) (items : List Held) :
    (sum l < n ∧ wholes n l = l ∧
      takeById stackable l n items = (some (n - sum l), items.filter fun y => ¬ Goes (wholes n l) y)) ∨
    (sum (wholes n l) = n ∧ takeById stackable l n items = (none, items.filter fun y => ¬ Goes (wholes n l) y)) ∨
    ∃ h rest, l = wholes n l ++ h :: rest ∧ sum (wholes n l) < n ∧ n - sum (wholes n l) < h.count ∧
      takeById stackable l n items = (none, internalRemoveItem stackable h (n - sum (wholes n l))
        (items.filter fun y => ¬ Goes (wholes n l) y)) := by
  have hnil (items : List Held) : (items.filter fun y => ¬ Goes [] y) = items :=
    List.filter_eq_self.2 fun y _ => by simp [Goes]
  induction l generalizing n items with
  | nil => exact .inl ⟨hn, rfl, by rw [takeById, wholes, hnil]; rfl⟩
  | cons h l ih =>
    have hh : 0 < h.count := hpos h List.mem_cons_self
    have hl : ∀ h ∈ l, 0 < h.count := fun h hh => hpos h (List.mem_cons_of_mem _ hh)
    have hsum (l : List Held) : sum (h :: l) = h.count + sum l := by rw [sum, List.map_cons, List.sum_cons, sum]
    rcases lt_trichotomy n h.count with hlt | heq | hgt
    · refine .inr (.inr ⟨h, l, ?_, ?_, ?_, ?_⟩) <;> rw [wholes, if_neg (by omega)]
      · rfl
      · exact hn
      · exact hlt
      · rw [takeById, if_pos hlt.le, hnil]
        rfl
    · have hwholes : wholes n (h :: l) = [h] := by
        rw [wholes, if_pos heq.ge, heq, Nat.sub_self]
        cases l with
        | nil => rfl
        | cons h' l => rw [wholes, if_neg (by have := hl h' List.mem_cons_self; omega)]
      refine .inr (.inl ⟨?_, ?_⟩)
      · rw [hwholes, heq]
        exact Nat.add_zero _
      · rw [hwholes, takeById, if_pos heq.le, heq, internalRemoveItem_whole hh]
    · have hwholes : wholes n (h :: l) = h :: wholes (n - h.count) l := by rw [wholes, if_pos hgt.le]
      have htake : takeById stackable (h :: l) n items =
          takeById stackable l (n - h.count) (items.filter fun y => ¬ Goes [h] y) := by
        rw [takeById, if_neg (by omega), internalRemoveItem_whole hh]
      have hfilter := filter_goes_append [h] (wholes (n - h.count) l) items
      rw [List.singleton_append] at hfilter
      rw [hwholes, htake, hsum, hsum, ← hfilter]
      rcases ih (n := n - h.count) (by omega) hl (items.filter fun y => ¬ Goes [h] y) with
        ⟨hlt, hall, hr⟩ | ⟨hfull, hr⟩ | ⟨h', rest, hsplit, hlt, hpart, hr⟩
      · exact .inl ⟨by omega, by rw [hall], by rw [hr, Nat.sub_sub]⟩
      · exact .inr (.inl ⟨by omega, hr⟩)
      · refine .inr (.inr ⟨h', rest, ?_, by omega, by omega, ?_⟩)
        · rw [List.cons_append, ← hsplit]
        · rw [hr, Nat.sub_sub]

/-! ## Takings from the items -/

/-- What the proofs share about items: they are different objects, and those that are searched are
among them, in their order, have the id and are not empty. -/
structure Searches (id : ℕ) (l items : List Held) : Prop where
  nodup : (items.map fun y => y.body.object).Nodup
  sublist : l.Sublist items
  id_eq : ∀ h ∈ l, h.body.id = id
  pos : ∀ h ∈ l, 0 < h.count

theorem Searches.of_sublist {m : List Held} (h : Searches id l items) (hl : m.Sublist l) : Searches id m items where
  nodup := h.nodup
  sublist := hl.trans h.sublist
  id_eq y hy := h.id_eq y (hl.subset hy)
  pos y hy := h.pos y (hl.subset hy)

/-- Items that are taken whole take their own units, and others unless none of the id lie in
them. -/
theorem Searches.units_wholes {l' : List Held} (h : Searches id l' items) :
    units id (items.filter fun y => ¬ Goes l' y) + sum l' ≤ units id items ∧
    (units id (items.filter fun y => ¬ Goes l' y) + sum l' = units id items ↔
      ∀ y ∈ items, y.body.id = id → 0 < y.count → Goes l' y → ∃ h ∈ l', h.body.object = y.body.object) := by
  have hgoes := units_goes h.nodup h.sublist h.id_eq
  refine ⟨by omega, ?_⟩
  have hzero : units id (items.filter fun y => ¬ Goes l' y) + sum l' = units id items ↔
      units id (items.filter fun y => Goes l' y ∧ ¬ ∃ h ∈ l', h.body.object = y.body.object) = 0 := by omega
  rw [hzero, units, List.sum_eq_zero_iff]
  constructor
  · intro hy y hmem hid hpos hg
    by_contra hnot
    have hmem' : y ∈ items.filter fun y => Goes l' y ∧ ¬ ∃ h ∈ l', h.body.object = y.body.object := by
      rw [List.mem_filter, decide_eq_true_eq]
      exact ⟨hmem, hg, hnot⟩
    have hcount := hy _ (List.mem_map_of_mem hmem')
    rw [if_pos hid] at hcount
    omega
  · intro hy m hm
    obtain ⟨y, hmem, rfl⟩ := List.mem_map.1 hm
    rw [List.mem_filter, decide_eq_true_eq] at hmem
    by_contra hcount
    have hid : y.body.id = id := by
      by_contra hid
      exact hcount (if_neg hid)
    rw [if_pos hid] at hcount
    exact hmem.2.2 (hy y hmem.1 hid (by omega) hmem.2.1)

/-- An item of the id that goes with others is lost. -/
theorem Searches.units_lost {l' : List Held} (h : Searches id l' items) {r : Held} (hr : r ∈ items)
    (hid : r.body.id = id) (hg : Goes l' r) (hnot : ¬ ∃ h ∈ l', h.body.object = r.body.object) :
    units id (items.filter fun y => ¬ Goes l' y) + sum l' + r.count ≤ units id items := by
  have hgoes := units_goes h.nodup h.sublist h.id_eq
  have hmem : r ∈ items.filter fun y => Goes l' y ∧ ¬ ∃ h ∈ l', h.body.object = y.body.object := by
    rw [List.mem_filter, decide_eq_true_eq]
    exact ⟨hr, hg, hnot⟩
  have hle := List.le_sum_of_mem (List.mem_map_of_mem (f := fun y => if y.body.id = id then y.count else 0) hmem)
  rw [if_pos hid] at hle
  rw [units, units] at hgoes
  simp only [units] at hgoes ⊢
  omega

/-- A part of a stack that is next after some items: it is taken where no other item of the id goes
with those, and where the stack itself has gone with them, that is more than the part. -/
theorem Searches.part_iff {w rest : List Held} {r : Held} (h : Searches id l items) (hsplit : l = w ++ r :: rest)
    (hn : 0 < n) (hpart : n < r.count) :
    units id (internalRemoveItem true r n (items.filter fun y => ¬ Goes w y)) + (sum w + n) = units id items ↔
      ∀ y ∈ items, y.body.id = id → 0 < y.count → Goes w y → ∃ h ∈ w, h.body.object = y.body.object := by
  have hsearch : Searches id w items := h.of_sublist (hsplit ▸ List.sublist_append_left _ _)
  have hrl : r ∈ l := by rw [hsplit]; simp
  have hritems : r ∈ items := h.sublist.subset hrl
  rw [← hsearch.units_wholes.2]
  by_cases hgone : Goes w r
  · have hother : ¬ ∃ y ∈ w, y.body.object = r.body.object := by
      rintro ⟨y, hy, heq⟩
      have hlnodup := h.nodup.sublist (h.sublist.map fun y => y.body.object)
      rw [hsplit, List.map_append, List.nodup_append] at hlnodup
      exact hlnodup.2.2 _ (List.mem_map_of_mem hy) _ (List.mem_map_of_mem List.mem_cons_self) heq
    have habsent : ∀ y ∈ items.filter fun y => ¬ Goes w y, y.body.object ≠ r.body.object := by
      intro y hy heq
      rw [List.mem_filter, decide_eq_true_eq] at hy
      obtain rfl := List.inj_on_of_nodup_map h.nodup hy.1 hritems heq
      exact hy.2 hgone
    have hlost := hsearch.units_lost hritems (h.id_eq r hrl) hgone hother
    rw [internalRemoveItem_gone habsent hpart]
    omega
  · have hnodup : ((items.filter fun y => ¬ Goes w y).map fun y => y.body.object).Nodup :=
      h.nodup.sublist (List.filter_sublist.map _)
    have hmem : r ∈ items.filter fun y => ¬ Goes w y := by
      rw [List.mem_filter, decide_eq_true_eq]
      exact ⟨hritems, hgone⟩
    have hunits := units_split hnodup hmem (h.id_eq r hrl) hn hpart
    omega

/-- An item that is no stack is taken whole, which is more than a part. -/
theorem Searches.part_lt {w rest : List Held} {r : Held} (h : Searches id l items) (hsplit : l = w ++ r :: rest)
    (hn : 0 < n) (hpart : n < r.count) :
    units id (internalRemoveItem false r n (items.filter fun y => ¬ Goes w y)) + (sum w + n) < units id items := by
  have hlast : (w ++ [r]).Sublist l := by
    rw [hsplit]
    exact List.Sublist.append_left (List.singleton_sublist.2 List.mem_cons_self) _
  have hboth := (h.of_sublist hlast).units_wholes.1
  have hsum : sum (w ++ [r]) = sum w + r.count := by simp [sum]
  rw [internalRemoveItem_single hn, filter_goes_append]
  omega

/-- **A taking from the items** takes exactly the amount if and only if it splits. -/
theorem Searches.take_iff (stackable : Bool) (h : Searches id l items) (hn : 0 < n) (hle : n ≤ sum l) :
    (takeById stackable l n items).1 = none ∧
    (units id (takeById stackable l n items).2 + n = units id items ↔ Splits stackable id n l items) := by
  rcases takeById_cases stackable hn h.pos items with ⟨hlt, -, -⟩ | ⟨hfull, hr⟩ |
    ⟨r, rest, hsplit, hlt, hpart, hr⟩
  · omega
  · have hwholes := (h.of_sublist (wholes_begins n l).sublist).units_wholes
    rw [hr]
    refine ⟨rfl, ?_⟩
    rw [hfull] at hwholes
    rw [Splits, hfull, and_iff_right (.inr (.inl rfl))]
    exact hwholes.2
  · rw [hr]
    refine ⟨rfl, ?_⟩
    have hamount : sum (wholes n l) + (n - sum (wholes n l)) = n := by omega
    cases stackable with
    | true =>
      have hiff := h.part_iff hsplit (by omega) hpart
      rw [hamount] at hiff
      rw [Splits, and_iff_right (.inl rfl)]
      exact hiff
    | false =>
      have hmore := h.part_lt hsplit (by omega) hpart
      rw [hamount] at hmore
      refine iff_of_false hmore.ne ?_
      rintro ⟨hfalse | heq | hlt', -⟩
      · cases hfalse
      · omega
      · omega

/-! ## `removeItemCountById` -/

/-- The units that `removeItemCountById` counts. -/
def total (s : Holdings) (itemId : ℕ) (withStash : Bool) : ℕ :=
  units itemId s.items + if withStash then (Assoc.get s.stashItems itemId).getD 0 else 0

/-- `removeItemCountById` succeeds if there are enough units, then takes the amount, and else leaves
all. -/
structure TakesCount (stackable : ℕ → Bool) (s : Holdings) (itemId itemAmount : ℕ) (removeFromStash : Bool) :
    Prop where
  succeeds : (removeItemCountById stackable s itemId itemAmount removeFromStash).1 = true ↔
    itemAmount ≤ total s itemId removeFromStash
  takes : (removeItemCountById stackable s itemId itemAmount removeFromStash).1 = true →
    total (removeItemCountById stackable s itemId itemAmount removeFromStash).2 itemId removeFromStash + itemAmount =
      total s itemId removeFromStash
  leaves : (removeItemCountById stackable s itemId itemAmount removeFromStash).1 = false →
    (removeItemCountById stackable s itemId itemAmount removeFromStash).2 = s

/-- The items of an id that are not empty. -/
def ofId (itemId : ℕ) (items : List Held) : List Held :=
  (items.filter (·.body.id = itemId)).filter fun h => 0 < h.count

theorem sum_ofId (itemId : ℕ) (items : List Held) : sum (ofId itemId items) = units itemId items := by
  induction items with
  | nil => rfl
  | cons y items ih =>
    simp only [ofId, sum, units, List.map_cons, List.sum_cons] at ih ⊢
    by_cases hid : y.body.id = itemId
    · rw [List.filter_cons_of_pos (by simpa using hid), if_pos hid]
      by_cases hpos : 0 < y.count
      · rw [List.filter_cons_of_pos (by simpa using hpos), List.map_cons, List.sum_cons, ih]
      · rw [List.filter_cons_of_neg (by simpa using hpos), ih]
        omega
    · rw [List.filter_cons_of_neg (by simpa using hid), if_neg hid, ih, Nat.zero_add]

theorem sum_filter_id (itemId : ℕ) (items : List Held) :
    ((items.filter (·.body.id = itemId)).map Held.count).sum = units itemId items := by
  induction items with
  | nil => rfl
  | cons y items ih =>
    simp only [units, List.map_cons, List.sum_cons] at ih ⊢
    by_cases hid : y.body.id = itemId
    · rw [List.filter_cons_of_pos (by simpa using hid), if_pos hid, List.map_cons, List.sum_cons, ih]
    · rw [List.filter_cons_of_neg (by simpa using hid), if_neg hid, ih, Nat.zero_add]

theorem searches_ofId (itemId : ℕ) (hitems : (items.map fun y => y.body.object).Nodup) :
    Searches itemId (ofId itemId items) items where
  nodup := hitems
  sublist := List.filter_sublist.trans List.filter_sublist
  id_eq h hh := by simpa using (List.mem_filter.1 (List.mem_filter.1 hh).1).2
  pos h hh := by simpa using (List.mem_filter.1 hh).2

/-- The counter of `hasItemCountById`. -/
theorem hasItemCountById_iff (s : Holdings) (itemId itemAmount : ℕ) (checkStash : Bool) :
    hasItemCountById s itemId itemAmount checkStash = true ↔ itemAmount ≤ total s itemId checkStash % 2 ^ 32 := by
  rw [hasItemCountById, sum_filter_id, total]
  cases checkStash with
  | true => simp
  | false => simp

theorem withdrawItem_of_le {stashItems : List (ℕ × ℕ)} {itemId amount : ℕ} (hpos : 0 < amount)
    (hle : amount ≤ (Assoc.get stashItems itemId).getD 0) :
    ∃ stashItems', Items.withdrawItem stashItems itemId amount = some stashItems' ∧
      (Assoc.get stashItems' itemId).getD 0 + amount = (Assoc.get stashItems itemId).getD 0 := by
  cases hget : Assoc.get stashItems itemId with
  | none =>
    rw [hget, Option.getD_none] at hle
    omega
  | some v =>
    rw [hget, Option.getD_some] at hle
    rw [Items.withdrawItem, hget]
    by_cases hlt : v > amount
    · refine ⟨_, if_pos hlt, ?_⟩
      rw [Assoc.get_put, if_pos rfl, Option.getD_some, Option.getD_some]
      omega
    · refine ⟨_, (if_neg hlt).trans (if_pos (by omega)), ?_⟩
      rw [Assoc.get_erase, if_pos rfl, Option.getD_none, Option.getD_some]
      omega

/-- What decides it where the function succeeds. -/
theorem takesCount_of_true {stackable : ℕ → Bool} {s s' : Holdings} {itemId itemAmount : ℕ} {removeFromStash : Bool}
    (hr : removeItemCountById stackable s itemId itemAmount removeFromStash = (true, s'))
    (hle : itemAmount ≤ total s itemId removeFromStash) : TakesCount stackable s itemId itemAmount removeFromStash ↔
      total s' itemId removeFromStash + itemAmount = total s itemId removeFromStash := by
  refine ⟨fun h => ?_, fun h => ⟨?_, ?_, ?_⟩⟩
  · have htakes := h.takes (by rw [hr])
    rwa [hr] at htakes
  · rw [hr]
    exact iff_of_true rfl hle
  · rw [hr]
    exact fun _ => h
  · rw [hr]
    intro hfalse
    cases hfalse

/-- What decides it where the function fails and leaves everything. -/
theorem takesCount_of_false {stackable : ℕ → Bool} {s : Holdings} {itemId itemAmount : ℕ} {removeFromStash : Bool}
    (hr : removeItemCountById stackable s itemId itemAmount removeFromStash = (false, s)) :
    TakesCount stackable s itemId itemAmount removeFromStash ↔ total s itemId removeFromStash < itemAmount := by
  refine ⟨fun h => ?_, fun h => ⟨?_, ?_, ?_⟩⟩
  · have hsucceeds := h.succeeds
    rw [hr] at hsucceeds
    by_contra hle
    cases hsucceeds.2 (by omega)
  · rw [hr]
    exact iff_of_false Bool.false_ne_true (by omega)
  · rw [hr]
    intro htrue
    cases htrue
  · rw [hr]
    exact fun _ => rfl

/-- Where the items have less than the amount, they are all taken whole. -/
theorem takeById_of_lt (stackable : Bool) (hn : 0 < n) (hpos : ∀ h ∈ l, 0 < h.count) (hlt : sum l < n)
    (items : List Held) :
    wholes n l = l ∧ takeById stackable l n items = (some (n - sum l), items.filter fun y => ¬ Goes l y) := by
  have hsum : sum (wholes n l) ≤ sum l :=
    ((wholes_begins n l).sublist.map Held.count).sum_le_sum fun _ _ => Nat.zero_le _
  rcases takeById_cases stackable hn hpos items with ⟨-, hall, hr⟩ | ⟨hfull, -⟩ | ⟨r, rest, hsplit, -, hpart, -⟩
  · exact ⟨hall, by rw [hr, hall]⟩
  · omega
  · have hparts : sum l = sum (wholes n l) + (r.count + sum rest) := by
      conv_lhs => rw [hsplit]
      simp [sum]
    omega

/-- What the function comes to when it has found enough: the items have the amount, or the stash has
the rest. -/
theorem removeItemCountById_found (stackable : ℕ → Bool) {s : Holdings} {itemId itemAmount : ℕ}
    {removeFromStash : Bool} (hitems : (s.items.map fun y => y.body.object).Nodup) (hpos : 0 < itemAmount)
    (hhas : itemAmount ≤ total s itemId removeFromStash % 2 ^ 32) :
    ∃ s', removeItemCountById stackable s itemId itemAmount removeFromStash = (true, s') ∧
      (total s' itemId removeFromStash + itemAmount = total s itemId removeFromStash ↔
        Splits (stackable itemId) itemId itemAmount (ofId itemId s.items) s.items) := by
  have hsearch := searches_ofId itemId hitems
  have hmod : total s itemId removeFromStash % 2 ^ 32 ≤ total s itemId removeFromStash := Nat.mod_le _ _
  rw [removeItemCountById, if_pos ((hasItemCountById_iff s itemId itemAmount removeFromStash).2 hhas),
    takeById_filter hpos, ← ofId]
  by_cases hle : itemAmount ≤ sum (ofId itemId s.items)
  · obtain ⟨hnone, htake⟩ := hsearch.take_iff (stackable itemId) hpos hle
    obtain ⟨o, items, hr⟩ : ∃ o items, takeById (stackable itemId) (ofId itemId s.items) itemAmount s.items =
        (o, items) := ⟨_, _, rfl⟩
    rw [hr] at hnone htake ⊢
    dsimp only at hnone htake
    subst hnone
    refine ⟨_, rfl, ?_⟩
    rw [← htake, total, total]
    dsimp only
    omega
  · have hlt : sum (ofId itemId s.items) < itemAmount := not_le.1 hle
    have hunits := sum_ofId itemId s.items
    obtain ⟨hall, hr⟩ := takeById_of_lt (stackable itemId) hpos hsearch.pos hlt s.items
    rw [hr]
    cases removeFromStash with
    | false =>
      simp only [total, Bool.false_eq_true, if_false, Nat.add_zero] at hhas hmod
      omega
    | true =>
      simp only [total, if_true] at hhas hmod ⊢
      obtain ⟨stashItems', hwithdraw, hstash⟩ := withdrawItem_of_le
        (show 0 < itemAmount - sum (ofId itemId s.items) by omega)
        (show itemAmount - sum (ofId itemId s.items) ≤ (Assoc.get s.stashItems itemId).getD 0 by omega)
      have hleg : (if (True ∧ 0 < itemAmount - sum (ofId itemId s.items)) then
          Items.withdrawItem s.stashItems itemId (itemAmount - sum (ofId itemId s.items)) else none) =
            some stashItems' := (if_pos ⟨trivial, by omega⟩).trans hwithdraw
      simp only [hleg]
      refine ⟨_, rfl, ?_⟩
      rw [Splits, and_iff_right (.inr (.inr hlt)), hall, ← hsearch.units_wholes.2]
      dsimp only
      omega

theorem takesCount_iff (stackable : ℕ → Bool) (s : Holdings) (hitems : (s.items.map fun y => y.body.object).Nodup)
    {itemId itemAmount : ℕ} (hpos : 0 < itemAmount) (removeFromStash : Bool) :
    TakesCount stackable s itemId itemAmount removeFromStash ↔
      total s itemId removeFromStash < itemAmount ∨ (itemAmount ≤ total s itemId removeFromStash % 2 ^ 32 ∧
        Splits (stackable itemId) itemId itemAmount (ofId itemId s.items) s.items) := by
  have hmod : total s itemId removeFromStash % 2 ^ 32 ≤ total s itemId removeFromStash := Nat.mod_le _ _
  by_cases hhas : itemAmount ≤ total s itemId removeFromStash % 2 ^ 32
  · obtain ⟨s', hr, hs'⟩ := removeItemCountById_found stackable hitems hpos hhas
    rw [or_iff_right (by omega), and_iff_right hhas, ← hs']
    exact takesCount_of_true hr (by omega)
  · have hhas' : hasItemCountById s itemId itemAmount removeFromStash = false := by
      rw [Bool.eq_false_iff, ne_eq, hasItemCountById_iff]
      exact hhas
    have hr : removeItemCountById stackable s itemId itemAmount removeFromStash = (false, s) := by
      rw [removeItemCountById, hhas']
      rfl
    rw [or_iff_left fun h => hhas h.1]
    exact takesCount_of_false hr

/-! ## `removeItemOfType` -/

theorem sum_cons (h : Held) (l : List Held) : sum (h :: l) = h.count + sum l := by
  rw [sum, List.map_cons, List.sum_cons, sum]

theorem sum_append (l m : List Held) : sum (l ++ m) = sum l + sum m := by
  rw [sum, List.map_append, List.sum_append, sum, sum]

/-- Stacks are removed as the other function takes them. -/
theorem removeStacks_eq (hn : 0 < n) (hpos : ∀ h ∈ l, 0 < h.count) (items : List Held) :
    removeStacks l n items = (takeById true l n items).2 := by
  induction l generalizing n items with
  | nil => rfl
  | cons h l ih =>
    have hl : ∀ h ∈ l, 0 < h.count := fun h hh => hpos h (List.mem_cons_of_mem _ hh)
    rw [removeStacks, takeById]
    rcases lt_trichotomy n h.count with hlt | heq | hgt
    · rw [if_pos hlt, if_pos hlt.le]
    · subst heq
      rw [if_neg (lt_irrefl _), if_pos le_rfl, Nat.sub_self]
      cases l with
      | nil => rfl
      | cons h' l =>
        rw [removeStacks, if_pos (hl h' List.mem_cons_self)]
        exact if_pos (.inl rfl)
    · rw [if_neg (by omega), if_neg (by omega)]
      exact ih (by omega) hl _

/-- Items behind those that the amount is taken from do not matter. -/
theorem takeById_append {m : List Held} (hle : n ≤ sum l) (hn : 0 < n) (items : List Held) :
    takeById stackable (l ++ m) n items = takeById stackable l n items := by
  induction l generalizing n items with
  | nil => exact absurd hle (by simp [sum]; omega)
  | cons h l ih =>
    rw [sum_cons] at hle
    rw [List.cons_append, takeById, takeById]
    split_ifs with hlast
    · rfl
    · exact ih (by omega) (by omega) _

/-- Items that come to the amount are all taken whole. -/
theorem wholes_append {m : List Held} (hpos : ∀ h ∈ l ++ m, 0 < h.count) (hn : sum l = n) :
    wholes n (l ++ m) = l := by
  induction l generalizing n with
  | nil =>
    cases m with
    | nil => rfl
    | cons h m =>
      have hh := hpos h List.mem_cons_self
      rw [List.nil_append, wholes, if_neg (by rw [← hn]; exact not_le.2 hh)]
  | cons h l ih =>
    rw [sum_cons] at hn
    rw [List.cons_append, wholes, if_pos (by omega)]
    congr 1
    exact ih (fun h' hh' => hpos h' (List.mem_cons_of_mem _ hh')) (by omega)

/-- Other items are removed whole. -/
theorem foldl_internalRemoveItem (hpos : ∀ h ∈ l, 0 < h.count) (items : List Held) :
    l.foldl (fun items h => internalRemoveItem false h h.count items) items = items.filter fun y => ¬ Goes l y := by
  induction l generalizing items with
  | nil => exact (List.filter_eq_self.2 fun y _ => by simp [Goes]).symm
  | cons h l ih =>
    have hfilter := filter_goes_append [h] l items
    rw [List.singleton_append] at hfilter
    rw [List.foldl_cons, internalRemoveItem_whole (hpos h List.mem_cons_self),
      ih fun h hh => hpos h (List.mem_cons_of_mem _ hh), hfilter]

theorem countByType_any (h : Held) : countByType h (-1) = h.count := if_pos (.inl rfl)

/-- The list of `removeItemOfType` ends where its counter comes to the amount for the first time. -/
theorem collectOfType_cases (n : ℕ) (l itemList : List Held) (count : ℕ) :
    (∃ k, 0 < k ∧ k ≤ l.length ∧ n ≤ (count + sum (l.take k)) % 2 ^ 32 ∧
      (∀ j, 0 < j → j < k → (count + sum (l.take j)) % 2 ^ 32 < n) ∧
      collectOfType (-1) n l itemList count = some (itemList ++ l.take k)) ∨
    ((∀ k, 0 < k → k ≤ l.length → (count + sum (l.take k)) % 2 ^ 32 < n) ∧
      collectOfType (-1) n l itemList count = none) := by
  induction l generalizing itemList count with
  | nil => exact .inr ⟨fun k hk hk' => absurd hk' (by simp; omega), rfl⟩
  | cons h l ih =>
    have hone : sum ((h :: l).take 1) = h.count := by simp [sum]
    have hsucc (k : ℕ) : (count + sum ((h :: l).take (k + 1))) % 2 ^ 32 =
        ((count + h.count) % 2 ^ 32 + sum (l.take k)) % 2 ^ 32 := by
      rw [List.take_succ_cons, sum_cons, Nat.mod_add_mod, Nat.add_assoc]
    simp only [collectOfType, countByType_any]
    by_cases hle : n ≤ (count + h.count) % 2 ^ 32
    · refine .inl ⟨1, Nat.one_pos, by simp, by rw [hone]; exact hle, fun j hj hj' => by omega, ?_⟩
      rw [if_pos hle]
      rfl
    · rw [if_neg hle]
      rcases ih (itemList ++ [h]) ((count + h.count) % 2 ^ 32) with ⟨k, hk, hk', hge, hfirst, hr⟩ | ⟨hall, hr⟩
      · refine .inl ⟨k + 1, by omega, by simpa using hk', by rw [hsucc]; exact hge, fun j hj hj' => ?_, ?_⟩
        · obtain ⟨j, rfl⟩ : ∃ i, j = i + 1 := ⟨j - 1, by omega⟩
          rcases Nat.eq_zero_or_pos j with rfl | hj
          · rw [hone]
            omega
          · rw [hsucc]
            exact hfirst j hj (by omega)
        · rw [hr, List.append_assoc]
          rfl
      · refine .inr ⟨fun k hk hk' => ?_, hr⟩
        obtain ⟨k, rfl⟩ : ∃ i, k = i + 1 := ⟨k - 1, by omega⟩
        rcases Nat.eq_zero_or_pos k with rfl | hk
        · rw [hone]
          omega
        · rw [hsucc]
          exact hall k hk (by simpa using hk')

theorem searched_sublist (inventory : List Item) (itemId : ℕ) (ignoreEquipped : Bool) :
    (searched inventory itemId (-1) ignoreEquipped).Sublist (getAllInventoryItems inventory) := by
  induction inventory with
  | nil => exact List.Sublist.refl _
  | cons x inventory ih =>
    rw [searched, getAllInventoryItems, List.flatMap_cons, List.flatMap_cons]
    refine List.Sublist.append ?_ ih
    split_ifs
    · exact List.filter_sublist.trans (List.singleton_sublist.2 List.mem_cons_self)
    · exact List.filter_sublist.trans (List.sublist_cons_self _ _)

theorem searches_searched {inventory : List Item} (itemId : ℕ) (ignoreEquipped : Bool)
    (hitems : ((getAllInventoryItems inventory).map fun y => y.body.object).Nodup) :
    Searches itemId (searched inventory itemId (-1) ignoreEquipped) (getAllInventoryItems inventory) := by
  have hmem : ∀ h ∈ searched inventory itemId (-1) ignoreEquipped, h.body.id = itemId ∧ 0 < h.count := by
    intro h hh
    obtain ⟨x, -, hx⟩ := List.mem_flatMap.1 hh
    split_ifs at hx with hslot
    · rw [List.mem_filter, List.mem_singleton] at hx
      obtain ⟨rfl, hcount⟩ := hx
      rw [decide_eq_true_eq, countByType_any] at hcount
      exact ⟨hslot.2, Nat.pos_of_ne_zero hcount⟩
    · rw [List.mem_filter, decide_eq_true_eq, countByType_any] at hx
      exact ⟨hx.2.1, Nat.pos_of_ne_zero hx.2.2⟩
  exact ⟨hitems, searched_sublist _ _ _, fun h hh => (hmem h hh).1, fun h hh => (hmem h hh).2⟩

/-- `removeItemOfType` succeeds if there are enough units in the items that it searches, then takes
the amount, and else leaves all. -/
structure TakesOfType (stackable : ℕ → Bool) (inventory : List Item) (s : Holdings) (itemId amount : ℕ)
    (ignoreEquipped : Bool) : Prop where
  succeeds : (removeItemOfType stackable inventory s itemId amount (-1) ignoreEquipped).1 = true ↔
    amount ≤ sum (searched inventory itemId (-1) ignoreEquipped)
  takes : (removeItemOfType stackable inventory s itemId amount (-1) ignoreEquipped).1 = true →
    units itemId (removeItemOfType stackable inventory s itemId amount (-1) ignoreEquipped).2.items + amount =
      units itemId s.items
  stash : (removeItemOfType stackable inventory s itemId amount (-1) ignoreEquipped).2.stashItems = s.stashItems
  leaves : (removeItemOfType stackable inventory s itemId amount (-1) ignoreEquipped).1 = false →
    (removeItemOfType stackable inventory s itemId amount (-1) ignoreEquipped).2 = s

/-- The items of a list up to one with which the counter comes to the amount lose exactly the amount
if and only if it splits. -/
theorem Searches.removeItems_iff (stackable : Bool) (h : Searches id l items) (hn : 0 < n) (hlt : n < 2 ^ 32) {k : ℕ}
    (hge : n ≤ (0 + sum (l.take k)) % 2 ^ 32) (hfirst : ∀ j, 0 < j → j < k → (0 + sum (l.take j)) % 2 ^ 32 < n) :
    units id (internalRemoveItems stackable (l.take k) n items) + n = units id items ↔
      Splits stackable id n l items := by
  rw [Nat.zero_add] at hge
  have hsum : n ≤ sum (l.take k) := hge.trans (Nat.mod_le _ _)
  have happend : l.take k ++ l.drop k = l := List.take_append_drop k l
  have hall : sum l = sum (l.take k) + sum (l.drop k) := by rw [← sum_append, happend]
  have htaken := h.of_sublist (List.take_sublist k l)
  cases stackable with
  | true =>
    rw [internalRemoveItems, if_pos rfl, removeStacks_eq hn htaken.pos, ← (h.take_iff true hn (by omega)).2,
      ← takeById_append (m := l.drop k) hsum hn, happend]
  | false =>
    have hwhole := htaken.units_wholes
    rw [internalRemoveItems, if_neg Bool.false_ne_true, foldl_internalRemoveItem htaken.pos]
    by_cases heq : sum (l.take k) = n
    · have hwholes : wholes n l = l.take k := by
        have hsplit := wholes_append (l := l.take k) (m := l.drop k) (by rw [happend]; exact h.pos) heq
        rwa [happend] at hsplit
      rw [Splits, hwholes, and_iff_right (.inr (.inl heq)), ← hwhole.2, heq]
    · refine iff_of_false (by omega) ?_
      rintro ⟨hfalse | hfull | hshort, -⟩
      · cases hfalse
      · -- The counter would have come to the amount before.
        have hbegin : wholes n l = l.take (wholes n l).length := List.prefix_iff_eq_take.1 (wholes_begins n l)
        have hj : 0 < (wholes n l).length := by
          rw [List.length_pos_iff]
          intro hnil
          rw [hnil] at hfull
          exact absurd hfull (by simp [sum]; omega)
        have hjk : (wholes n l).length < k := by
          by_contra hkj
          have hsub : (l.take k).Sublist (wholes n l) := by
            rw [hbegin]
            exact (List.take_prefix_take_left (by omega)).sublist
          have hle := (hsub.map Held.count).sum_le_sum fun _ _ => Nat.zero_le _
          rw [← sum, ← sum] at hle
          omega
        have hbefore := hfirst _ hj hjk
        rw [← hbegin, hfull, Nat.zero_add, Nat.mod_eq_of_lt hlt] at hbefore
        omega
      · omega

/-- What decides it where the function succeeds. -/
theorem takesOfType_of_true {stackable : ℕ → Bool} {inventory : List Item} {s : Holdings} {items : List Held}
    {itemId amount : ℕ} {ignoreEquipped : Bool}
    (hr : removeItemOfType stackable inventory s itemId amount (-1) ignoreEquipped = (true, ⟨items, s.stashItems⟩))
    (hle : amount ≤ sum (searched inventory itemId (-1) ignoreEquipped)) :
    TakesOfType stackable inventory s itemId amount ignoreEquipped ↔
      units itemId items + amount = units itemId s.items := by
  refine ⟨fun h => ?_, fun h => ⟨?_, ?_, ?_, ?_⟩⟩
  · have htakes := h.takes (by rw [hr])
    rwa [hr] at htakes
  · rw [hr]
    exact iff_of_true rfl hle
  · rw [hr]
    exact fun _ => h
  · rw [hr]
  · rw [hr]
    intro hfalse
    cases hfalse

/-- What decides it where the function fails. -/
theorem takesOfType_of_false {stackable : ℕ → Bool} {inventory : List Item} {s : Holdings} {itemId amount : ℕ}
    {ignoreEquipped : Bool}
    (hr : removeItemOfType stackable inventory s itemId amount (-1) ignoreEquipped = (false, s)) :
    TakesOfType stackable inventory s itemId amount ignoreEquipped ↔
      sum (searched inventory itemId (-1) ignoreEquipped) < amount := by
  refine ⟨fun h => ?_, fun h => ⟨?_, ?_, ?_, ?_⟩⟩
  · have hsucceeds := h.succeeds
    rw [hr] at hsucceeds
    by_contra hle
    cases hsucceeds.2 (by omega)
  · rw [hr]
    exact iff_of_false Bool.false_ne_true (by omega)
  · rw [hr]
    intro htrue
    cases htrue
  · rw [hr]
  · rw [hr]
    exact fun _ => rfl

/-- A counter that comes to the amount nowhere in the list does not come to it beyond its end. -/
theorem counter_lt (hn : 0 < n) (hall : ∀ k, 0 < k → k ≤ l.length → (0 + sum (l.take k)) % 2 ^ 32 < n) (k : ℕ) :
    sum (l.take k) % 2 ^ 32 < n := by
  have hzero : sum (l.take 0) % 2 ^ 32 = 0 := by simp [sum]
  rw [List.take_eq_take_min]
  rcases Nat.eq_zero_or_pos (min k l.length) with hmin | hmin
  · rw [hmin, hzero]
    exact hn
  · have hlast := hall _ hmin (min_le_right _ _)
    rwa [Nat.zero_add] at hlast

theorem takesOfType_iff (stackable : ℕ → Bool) {inventory : List Item}
    (hitems : ((getAllInventoryItems inventory).map fun y => y.body.object).Nodup) (stashItems : List (ℕ × ℕ))
    {itemId amount : ℕ} (hpos : 0 < amount) (hlt : amount < 2 ^ 32) (ignoreEquipped : Bool) :
    TakesOfType stackable inventory ⟨getAllInventoryItems inventory, stashItems⟩ itemId amount ignoreEquipped ↔
      sum (searched inventory itemId (-1) ignoreEquipped) < amount ∨
        ((∃ k, amount ≤ sum ((searched inventory itemId (-1) ignoreEquipped).take k) % 2 ^ 32) ∧
          Splits (stackable itemId) itemId amount (searched inventory itemId (-1) ignoreEquipped)
            (getAllInventoryItems inventory)) := by
  have hsearch := searches_searched itemId ignoreEquipped hitems
  rcases collectOfType_cases amount (searched inventory itemId (-1) ignoreEquipped) [] 0 with
    ⟨k, -, -, hge, hfirst, hcollect⟩ | ⟨hall, hcollect⟩
  · have hr : removeItemOfType stackable inventory ⟨getAllInventoryItems inventory, stashItems⟩ itemId amount (-1)
        ignoreEquipped = (true, ⟨internalRemoveItems (stackable itemId)
          ((searched inventory itemId (-1) ignoreEquipped).take k) amount (getAllInventoryItems inventory),
            stashItems⟩) := by
      rw [removeItemOfType, if_neg (by omega), hcollect]
      rfl
    have hiff := hsearch.removeItems_iff (stackable itemId) hpos hlt hge hfirst
    have hle : sum ((searched inventory itemId (-1) ignoreEquipped).take k) % 2 ^ 32 ≤
        sum (searched inventory itemId (-1) ignoreEquipped) :=
      (Nat.mod_le _ _).trans (((List.take_sublist k _).map Held.count).sum_le_sum fun _ _ => Nat.zero_le _)
    rw [Nat.zero_add] at hge
    rw [or_iff_right (by omega), and_iff_right ⟨k, hge⟩, ← hiff]
    exact takesOfType_of_true hr (by omega)
  · have hr : removeItemOfType stackable inventory ⟨getAllInventoryItems inventory, stashItems⟩ itemId amount (-1)
        ignoreEquipped = (false, ⟨getAllInventoryItems inventory, stashItems⟩) := by
      rw [removeItemOfType, if_neg (by omega), hcollect]
    have hnever : ¬ ∃ k, amount ≤ sum ((searched inventory itemId (-1) ignoreEquipped).take k) % 2 ^ 32 := by
      rintro ⟨k, hk⟩
      exact absurd (counter_lt hpos hall k) (by omega)
    rw [or_iff_left fun h => hnever h.1]
    exact takesOfType_of_false hr

/-! ## Takings from an inventory -/

/-- An inventory with a stash. Its items are different objects. -/
structure Inventory where
  slots : List Item
  stashItems : List (ℕ × ℕ)
  distinct : ((getAllInventoryItems slots).map fun y => y.body.object).Nodup

/-- What a player has with an inventory. -/
def Inventory.holdings (inventory : Inventory) : Holdings :=
  ⟨getAllInventoryItems inventory.slots, inventory.stashItems⟩

/-- **The functions take exactly the amount or leave everything** if and only if there is too
little, or their counters of 32 bits come to the amount and it splits: no item of the id that stays
lies in one that is taken whole, and the rest of the amount comes from a stack. -/
theorem takesExactly_iff (stackable : ℕ → Bool) (inventory : Inventory) (itemId : ℕ) {amount : ℕ}
    (hpos : 0 < amount) (hlt : amount < 2 ^ 32) (removeFromStash ignoreEquipped : Bool) :
    (TakesCount stackable inventory.holdings itemId amount removeFromStash ↔
      total inventory.holdings itemId removeFromStash < amount ∨
        (amount ≤ total inventory.holdings itemId removeFromStash % 2 ^ 32 ∧
          Splits (stackable itemId) itemId amount (ofId itemId inventory.holdings.items)
            inventory.holdings.items)) ∧
    (TakesOfType stackable inventory.slots inventory.holdings itemId amount ignoreEquipped ↔
      sum (searched inventory.slots itemId (-1) ignoreEquipped) < amount ∨
        ((∃ k, amount ≤ sum ((searched inventory.slots itemId (-1) ignoreEquipped).take k) % 2 ^ 32) ∧
          Splits (stackable itemId) itemId amount (searched inventory.slots itemId (-1) ignoreEquipped)
            inventory.holdings.items)) :=
  ⟨takesCount_iff stackable inventory.holdings inventory.distinct hpos removeFromStash,
    takesOfType_iff stackable inventory.distinct inventory.stashItems hpos hlt ignoreEquipped⟩

/-- A backpack in which another one of its id lies. -/
def backpacks : Inventory where
  slots := [.container ⟨0, 2854, 1, 1⟩ 20 [.item ⟨1, 3031, 50, 50⟩, .container ⟨2, 2854, 1, 1⟩ 20 []]]
  stashItems := []
  distinct := by decide

/-- 20 of the 50 coins in the backpack are taken. -/
theorem takesExactly_coins :
    TakesCount (fun id => id = 3031) backpacks.holdings 3031 20 true ∧
      TakesOfType (fun id => id = 3031) backpacks.slots backpacks.holdings 3031 20 false := by
  obtain ⟨hcount, htype⟩ := takesExactly_iff (fun id => id = 3031) backpacks 3031 (show 0 < 20 by decide)
    (by decide) true false
  have hsplits (l : List Held) : Splits (decide (3031 = 3031)) 3031 20 [⟨⟨1, 3031, 50, 50⟩, [0]⟩] l := by
    refine ⟨.inl (by decide), ?_⟩
    rintro y - - - ⟨h, hh, -⟩
    cases hh
  exact ⟨hcount.2 (.inr ⟨by decide, hsplits _⟩), htype.2 (.inr ⟨⟨1, by decide⟩, hsplits _⟩)⟩

/-- The outer backpack is taken for one, and the inner one goes with it. -/
theorem not_takesExactly_backpacks :
    ¬ ∀ (stackable : ℕ → Bool) (inventory : Inventory) (itemId amount : ℕ), 0 < amount → amount < 2 ^ 32 →
      ∀ removeFromStash ignoreEquipped : Bool,
        TakesCount stackable inventory.holdings itemId amount removeFromStash ∧
          TakesOfType stackable inventory.slots inventory.holdings itemId amount ignoreEquipped := by
  intro h
  have htakes := (h (fun _ => false) backpacks 2854 1 (by decide) (by decide) true false).1.takes (by decide)
  exact absurd htakes (by decide)

end TiabloServer.Taking
