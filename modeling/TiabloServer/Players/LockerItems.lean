import TiabloServer.Items.ContainerTree

/-!
# What a player can sell from his depot

`Player::requestLockerItems` counts the goods of a depot locker, at any depth, and those of the
stash. The locker is walked through with a list of containers that grows on the way. The stash is
added by a loop that ends when a counter, which starts with all units in the stash, is zero.

## Main definitions

* `Locker.qualifying` — the items of a locker that count, each once.
* `Locker.Exact` — the function ends, and has counted all that counts once.

## Main results

* `Locker.run_walk` — the walk ends with the items that count, in breadth-first order.
* `Locker.run_stash` — the stash has been added as often as the counter needs to come to zero.
* `Locker.requestLockerItems_exact_iff` — which is once exactly when the units without a ware id
  come to nothing in 32 bits.
-/

namespace TiabloServer.Locker

open Containers

/-! ## The function of the source -/

/-- What is read of an item type. -/
structure ItemType where
  wareId : ℕ
  isContainer : Bool
  maxItems : ℕ
  charges : ℕ
  decayTime : ℕ

/-- The attributes of an item that are read. `imbued` is what `hasImbuements` finds. -/
structure ItemAttribute where
  CHARGES : Option ℤ
  DURATION : Option ℤ
  TIER : Option ℤ
  STORE : ℤ
  ownerId : ℕ
  imbued : Bool

/-- The item types, the highest tier, and the attributes of the items; none where `attributePtr` is
not initialized. -/
structure Server where
  items : ℕ → ItemType
  FORGE_MAX_ITEM_TIER : ℤ
  attributePtr : ℕ → Option ItemAttribute

/-- `std::map<uint16_t, std::map<uint8_t, uint32_t>>`, with zero for what is not in it. -/
abbrev LockerItems : Type := ℕ → ℕ → BitVec 32

/-- `lockerItems[wareId][tier] += count`. -/
def LockerItems.add (lockerItems : LockerItems) (wareId tier : ℕ) (count : BitVec 32) : LockerItems :=
  fun w t => if w = wareId ∧ t = tier then lockerItems w t + count else lockerItems w t

section Source

variable (sv : Server)

/-- The attributes of an item. -/
def attributes (item : Item) : Option ItemAttribute := sv.attributePtr item.body.object

/-- `Item::isStoreItem`. -/
def isStoreItem (item : Item) : Bool := (attributes sv item).any fun a => a.STORE > 0

/-- `Item::hasOwner`. -/
def hasOwner (item : Item) : Bool := (attributes sv item).any fun a => a.ownerId ≠ 0

/-- `Item::hasImbuements`. -/
def hasImbuements (item : Item) : Bool := (attributes sv item).any ItemAttribute.imbued

/-- `Item::getTier`, an 8-bit value. -/
def getTier (item : Item) : ℕ :=
  match (attributes sv item).bind ItemAttribute.TIER with
  | none => 0
  | some tier => if tier % 2 ^ 8 > sv.FORGE_MAX_ITEM_TIER then 0 else (tier % 2 ^ 8).toNat

/-- `Item::getDefaultDuration`, a 32-bit value. -/
def getDefaultDuration (item : Item) : ℕ := (sv.items item.body.id).decayTime * 1000 % 2 ^ 32

/-- `Item::hasMarketAttributes`. -/
def hasMarketAttributes (item : Item) : Bool :=
  match attributes sv item with
  | none => true
  | some a =>
    a.CHARGES.all (fun value : ℤ => value % 2 ^ 16 = (sv.items item.body.id).charges) &&
      a.DURATION.all (fun value : ℤ => value % 2 ^ 32 = getDefaultDuration sv item) &&
      a.TIER.all (fun value : ℤ => value % 2 ^ 8 = getTier sv item) &&
      !hasImbuements sv item && !isStoreItem sv item && !hasOwner sv item

/-- The ware id of an item's type. -/
def wareId (item : Item) : ℕ := (sv.items item.body.id).wareId

/-- `lockerContainers->capacity()`, for a container. -/
def capacity : Item → Option ℕ
  | .item _ => none
  | .container _ maxSize _ => some maxSize.toNat

/-- The checks of an item that is no container with something in it. -/
def passes (sendToClient : Bool) (tier : ℕ) (item : Item) : Bool :=
  if isStoreItem sv item then false
  else if wareId sv item = 0 then false
  else if (capacity item).any fun n =>
      !(sv.items item.body.id).isContainer || n != (sv.items item.body.id).maxItems then false
  else if !hasMarketAttributes sv item then false
  else if !sendToClient && getTier sv item != tier then false
  else true

/-- `Item::countByType(item, -1)`. -/
def countByType (item : Item) : ℕ := item.body.count.toNat

/-- The variables of the first loop. -/
structure Walk where
  containers : List Item
  size : ℕ
  lockerItems : LockerItems
  itemVector : List Item

variable (sendToClient : Bool) (tier : ℕ)

/-- A container with something in it. -/
def filled (item : Item) : Bool := item.isContainer && !item.itemlist.isEmpty

/-- What the first loop does with an item. -/
def visit (s : Walk) (item : Item) : Walk :=
  if filled item then { s with containers := s.containers ++ [item] }
  else if passes sv sendToClient tier item then
    { s with
      lockerItems := s.lockerItems.add (wareId sv item) (getTier sv item) (.ofNat 32 (countByType item))
      itemVector := s.itemVector ++ [item] }
  else s

/-- A round of the first loop. -/
def walkRound (s : Walk) : Loop.Round Walk Walk :=
  match s.containers[s.size]? with
  | none => .done s
  | some container =>
    let s := container.itemlist.foldl (visit sv sendToClient tier) { s with size := s.size + 1 }
    if s.size < s.containers.length then .next s else .done s

/-- `countSize` and `lockerItems` in the last loop. -/
structure Counter where
  countSize : BitVec 32
  lockerItems : LockerItems

/-- What the last loop does with an item of the stash. -/
def addStash (s : Counter) (entry : ℕ × BitVec 32) : Counter :=
  if (sv.items entry.1).wareId = 0 then s
  else ⟨s.countSize - entry.2, s.lockerItems.add (sv.items entry.1).wareId 0 entry.2⟩

/-- A round of the last loop. -/
def stashRound (stashToSend : List (ℕ × BitVec 32)) (s : Counter) : Loop.Round Counter Counter :=
  let s := stashToSend.foldl (addStash sv) s
  if s.countSize > 0 then .next s else .done s

/-- `Player::requestLockerItems`, with a bound on the rounds of each loop. -/
def requestLockerItems (fuel : ℕ) (stashItems : List (ℕ × BitVec 32)) (depotLocker : Option Item) :
    Option (List Item × LockerItems) :=
  match depotLocker with
  | none => some ([], fun _ _ => 0)
  | some depotLocker => do
    let s ← Loop.run (walkRound sv sendToClient tier) fuel ⟨[depotLocker], 0, fun _ _ => 0, []⟩
    let countSize := (stashItems.map Prod.snd).sum
    let r ← Loop.run (stashRound sv stashItems) fuel ⟨countSize, s.lockerItems⟩
    some (s.itemVector, r.lockerItems)

end Source

/-! ## What is to be counted -/

section Spec

variable (sv : Server)

/-- Those of some items that count: no containers with something in them, and no item that fails a
check. -/
def counted (sendToClient : Bool) (tier : ℕ) (items : List Item) : List Item :=
  items.filter fun item => item.itemlist.isEmpty && passes sv sendToClient tier item

/-- The items below a locker that qualify, each once. -/
def qualifying (sendToClient : Bool) (tier : ℕ) (depotLocker : Item) : List Item :=
  counted sv sendToClient tier (tree.order depotLocker.itemlist)

/-- The units of a ware in a tier among some items. -/
def units (items : List Item) (w t : ℕ) : ℕ :=
  ((items.filter fun item => wareId sv item = w ∧ getTier sv item = t).map countByType).sum

/-- The units of a ware in the stash. -/
def stashUnits (stashItems : List (ℕ × BitVec 32)) (w : ℕ) : ℕ :=
  ((stashItems.filter fun entry => (sv.items entry.1).wareId = w).map fun entry => entry.2.toNat).sum

/-- All units of a ware in a tier: those of the stash are of tier 0. -/
def allUnits (sendToClient : Bool) (tier : ℕ) (stashItems : List (ℕ × BitVec 32)) (depotLocker : Item)
    (w t : ℕ) : ℕ :=
  units sv (qualifying sv sendToClient tier depotLocker) w t +
    if t = 0 then stashUnits sv stashItems w else 0

/-- The function ends, with the items that qualify, and with all their units and those of the
stash. -/
def Exact (sendToClient : Bool) (tier : ℕ) (stashItems : List (ℕ × BitVec 32)) (depotLocker : Item) :
    Prop :=
  ∃ fuel r, requestLockerItems sv sendToClient tier fuel stashItems (some depotLocker) = some r ∧
    r.1 = qualifying sv sendToClient tier depotLocker ∧
    ∀ w ≠ 0, ∀ t, (r.2 w t).toNat = allUnits sv sendToClient tier stashItems depotLocker w t

end Spec

/-! ## The walk through the locker -/

section Walk

variable {sv : Server} {sendToClient : Bool} {tier : ℕ}

/-- What a map has for a ware when the units of some items are in it. -/
theorem add_units (items : List Item) (item : Item) (w t : ℕ) : BitVec.ofNat 32 (units sv (items ++ [item]) w t) =
      LockerItems.add (fun w t => .ofNat 32 (units sv items w t)) (wareId sv item) (getTier sv item)
        (.ofNat 32 (countByType item)) w t := by
  unfold LockerItems.add units
  by_cases h : w = wareId sv item ∧ t = getTier sv item
  · obtain ⟨rfl, rfl⟩ := h
    simp [BitVec.ofNat_add]
  · have h' : ¬ (wareId sv item = w ∧ getTier sv item = t) := fun hw => h ⟨hw.1.symm, hw.2.symm⟩
    simp [h, h']

/-- The map holds the units of the items in the vector. -/
def Walk.Tallied (sv : Server) (s : Walk) : Prop :=
  s.lockerItems = fun w t => .ofNat 32 (units sv s.itemVector w t)

/-- The items below the containers that have not been looked into. -/
def Walk.pending (s : Walk) : List Item := (s.containers.drop s.size).flatMap Item.itemlist

theorem flatMap_filled (items : List Item) :
    (items.filter filled).flatMap Item.itemlist = items.flatMap Item.itemlist := by
  induction items with
  | nil => rfl
  | cons item items ih =>
    cases item with
    | item body => simpa [filled, Item.isContainer, Item.itemlist] using ih
    | container body maxSize itemlist =>
      cases itemlist with
      | nil => simpa [filled, Item.isContainer, Item.itemlist] using ih
      | cons x l => simp [filled, Item.isContainer, Item.itemlist, ih]

theorem not_filled {item : Item} : filled item = false ↔ item.itemlist = [] := by
  cases item with
  | item body => simp [filled, Item.isContainer, Item.itemlist]
  | container body maxSize itemlist => simp [filled, Item.isContainer, Item.itemlist]

variable (sv sendToClient tier) in
/-- What some items do to a walk: the filled ones are put off, those that qualify are counted. -/
structure Visited (items : List Item) (s s' : Walk) : Prop where
  containers : s'.containers = s.containers ++ items.filter filled
  size : s'.size = s.size
  itemVector : s'.itemVector = s.itemVector ++ counted sv sendToClient tier items
  tallied : s'.Tallied sv

variable (sendToClient tier) in
theorem visit_spec {s : Walk} (hs : s.Tallied sv) (item : Item) :
    Visited sv sendToClient tier [item] s (visit sv sendToClient tier s item) := by
  unfold visit
  cases hfilled : filled item with
  | true =>
    have hne : item.itemlist.isEmpty = false := by
      simp only [filled, Bool.and_eq_true, Bool.not_eq_true'] at hfilled
      exact hfilled.2
    rw [if_pos rfl]
    exact ⟨by simp [hfilled], rfl, by simp [counted, hne], hs⟩
  | false =>
    have hempty : item.itemlist = [] := not_filled.1 hfilled
    rw [if_neg Bool.false_ne_true]
    split_ifs with hpasses
    · refine ⟨by simp [hfilled], rfl, by simp [counted, hempty, hpasses], ?_⟩
      funext w t
      show LockerItems.add s.lockerItems _ _ _ w t = _
      rw [hs, ← add_units]
    · exact ⟨by simp [hfilled], rfl, by simp [counted, hempty, hpasses], hs⟩

variable (sendToClient tier) in
theorem foldl_visit (items : List Item) {s : Walk} (hs : s.Tallied sv) :
    Visited sv sendToClient tier items s (items.foldl (visit sv sendToClient tier) s) := by
  induction items generalizing s with
  | nil => exact ⟨by simp, rfl, by simp [counted], hs⟩
  | cons item items ih =>
    have hitem := visit_spec sendToClient tier hs item
    have hitems := ih hitem.tallied
    refine ⟨?_, hitems.size.trans hitem.size, ?_, hitems.tallied⟩
    · rw [List.foldl_cons, hitems.containers, hitem.containers, List.append_assoc,
        ← List.filter_append, List.singleton_append]
    · rw [List.foldl_cons, hitems.itemVector, hitem.itemVector, List.append_assoc]
      unfold counted
      rw [← List.filter_append, List.singleton_append]

variable (sv sendToClient tier) in
/-- A walk that counts `found` in the end. -/
structure Walk.Finds (found : List Item) (s : Walk) : Prop where
  tallied : s.Tallied sv
  size_lt : s.size < s.containers.length
  found : s.itemVector ++ counted sv sendToClient tier (tree.order s.pending) = found

/-- The containers that are left, and the items below them. -/
def Walk.left (s : Walk) : ℕ := (s.containers.length - s.size) + tree.total s.pending

/-- What a round has when it has looked into a container. -/
theorem Walk.Finds.round {found : List Item} {s : Walk} (h : s.Finds sv sendToClient tier found) :
    ∃ s' : Walk, s'.Tallied sv ∧ s'.left < s.left ∧ s'.size ≤ s'.containers.length ∧
      s'.itemVector ++ counted sv sendToClient tier (tree.order s'.pending) = found ∧
      walkRound sv sendToClient tier s =
        if s'.size < s'.containers.length then .next s' else .done s' := by
  obtain ⟨container, rest, hdrop⟩ : ∃ c rest, s.containers.drop s.size = c :: rest :=
    List.exists_cons_of_length_pos (by rw [List.length_drop]; exact Nat.sub_pos_of_lt h.size_lt)
  have hget : s.containers[s.size]? = some container := by
    rw [← List.head?_drop, hdrop]
    rfl
  have hv := foldl_visit sendToClient tier container.itemlist
    (s := { s with size := s.size + 1 }) h.tallied
  set s' := container.itemlist.foldl (visit sv sendToClient tier) { s with size := s.size + 1 } with hs'
  have hcontainers : s'.containers = s.containers ++ container.itemlist.filter filled := hv.containers
  have hsize : s'.size = s.size + 1 := hv.size
  have hdrop' : s'.containers.drop s'.size = rest ++ container.itemlist.filter filled := by
    have hrest : s.containers.drop (s.size + 1) = rest := by
      rw [← List.drop_drop, hdrop]
      rfl
    rw [hcontainers, hsize, List.drop_append_of_le_length h.size_lt, hrest]
  have hpending : s.pending = container.itemlist ++ rest.flatMap Item.itemlist := by
    rw [Walk.pending, hdrop, List.flatMap_cons]
  have hpending' : s'.pending = rest.flatMap Item.itemlist ++ container.itemlist.flatMap Item.itemlist := by
    rw [Walk.pending, hdrop', List.flatMap_append, flatMap_filled]
  refine ⟨s', hv.tallied, ?_, ?_, ?_, ?_⟩
  · have htotal := tree.total_flatMap container.itemlist
    have hfilter := List.length_filter_le filled container.itemlist
    have hlt := h.size_lt
    have hchildren : container.itemlist.flatMap tree.children = container.itemlist.flatMap Item.itemlist := rfl
    rw [hchildren] at htotal
    rw [Walk.left, Walk.left, hpending, hpending', tree.total_append, tree.total_append, hcontainers, hsize,
      List.length_append]
    omega
  · rw [hcontainers, hsize, List.length_append]
    exact Nat.le_add_right_of_le h.size_lt
  · have horder : tree.order s.pending = container.itemlist ++ tree.order s'.pending := by
      rw [hpending, hpending', tree.order_append]
      rfl
    rw [← h.found, horder, hv.itemVector]
    simp [counted]
  · unfold walkRound
    rw [hget]

variable (sv sendToClient tier) in
/-- **The walk ends** with the items that qualify, in breadth-first order, and with their units. -/
theorem run_walk (depotLocker : Item) : ∃ s fuel, (∀ fuel', fuel ≤ fuel' →
        Loop.run (walkRound sv sendToClient tier) fuel' ⟨[depotLocker], 0, fun _ _ => 0, []⟩ = some s) ∧
      s.itemVector = qualifying sv sendToClient tier depotLocker ∧ s.Tallied sv := by
  refine Loop.total (P := Walk.Finds sv sendToClient tier (qualifying sv sendToClient tier depotLocker))
    Walk.left ?_ ?_ ?_
  · intro s s' h hround
    obtain ⟨s'', htallied, hlt, -, hfound, hs''⟩ := h.round
    rw [hs''] at hround
    split_ifs at hround with hsize
    obtain rfl : s'' = s' := by injection hround
    exact ⟨⟨htallied, hsize, hfound⟩, hlt⟩
  · intro s r h hround
    obtain ⟨s'', htallied, -, hle, hfound, hs''⟩ := h.round
    rw [hs''] at hround
    split_ifs at hround with hsize
    obtain rfl : s'' = r := by injection hround
    have hdone : s''.pending = [] := by
      rw [Walk.pending, List.drop_eq_nil_of_le (not_lt.1 hsize)]
      rfl
    rw [hdone] at hfound
    exact ⟨by simpa [counted] using hfound, htallied⟩
  · refine ⟨?_, Nat.one_pos, ?_⟩
    · funext w t
      simp [units]
    · simp [Walk.pending, counted, qualifying]

end Walk

/-! ## The stash -/

section Stash

variable (sv : Server) (stashItems : List (ℕ × BitVec 32))

/-- The units that one pass over the stash takes off the counter. -/
def warePart : BitVec 32 :=
  ((stashItems.filter fun entry => (sv.items entry.1).wareId ≠ 0).map Prod.snd).sum

/-- What one pass over the stash adds to the map. -/
def stashPart : LockerItems := fun w t => if w ≠ 0 ∧ t = 0 then .ofNat 32 (stashUnits sv stashItems w) else 0

variable {sv stashItems}

theorem stashUnits_cons (entry : ℕ × BitVec 32) (w : ℕ) :
    stashUnits sv (entry :: stashItems) w =
      (if (sv.items entry.1).wareId = w then entry.2.toNat else 0) + stashUnits sv stashItems w := by
  unfold stashUnits
  split_ifs with h
  · simp [h]
  · simp [h]

/-- The counter starts with the units of all wares, and with those that belong to none. -/
theorem sum_counts :
    (stashItems.map Prod.snd).sum = warePart sv stashItems + .ofNat 32 (stashUnits sv stashItems 0) := by
  induction stashItems with
  | nil => rfl
  | cons entry stashItems ih =>
    rw [List.map_cons, List.sum_cons, ih, stashUnits_cons, BitVec.ofNat_add]
    unfold warePart
    split_ifs with h
    · simp [h]
      ring
    · simp [h, add_assoc]

/-- One pass over the stash. -/
theorem foldl_addStash (s : Counter) : stashItems.foldl (addStash sv) s =
      ⟨s.countSize - warePart sv stashItems, s.lockerItems + stashPart sv stashItems⟩ := by
  induction stashItems generalizing s with
  | nil =>
    have hpart : stashPart sv [] = 0 := by
      funext w t
      simp [stashPart, stashUnits]
    rw [hpart]
    simp [warePart]
  | cons entry stashItems ih =>
    rw [List.foldl_cons, ih, addStash]
    by_cases h : (sv.items entry.1).wareId = 0
    · have hpart : stashPart sv (entry :: stashItems) = stashPart sv stashItems := by
        funext w t
        unfold stashPart
        split_ifs with hw
        · rw [stashUnits_cons, if_neg fun hz => hw.1 (hz.symm.trans h), Nat.zero_add]
        · rfl
      rw [if_pos h, hpart]
      simp [warePart, h]
    · have hpart : s.lockerItems.add (sv.items entry.1).wareId 0 entry.2 + stashPart sv stashItems =
          s.lockerItems + stashPart sv (entry :: stashItems) := by
        funext w t
        simp only [Pi.add_apply, LockerItems.add, stashPart, stashUnits_cons]
        by_cases hw : w = (sv.items entry.1).wareId ∧ t = 0
        · obtain ⟨rfl, rfl⟩ := hw
          simp [h, BitVec.ofNat_add]
          ring
        · have hne : w ≠ 0 ∧ t = 0 → (sv.items entry.1).wareId ≠ w := fun hz hware => hw ⟨hware.symm, hz.2⟩
          rw [if_neg hw]
          split_ifs with hz hware
          · exact absurd hware (hne hz)
          · rw [Nat.zero_add]
          · rfl
      rw [if_neg h, hpart]
      simp [warePart, h, sub_sub]

/-- **The stash has been added as often as the counter needs** to come to zero. -/
theorem run_stash {fuel : ℕ} {s r : Counter} (h : Loop.run (stashRound sv stashItems) fuel s = some r) :
    ∃ k : ℕ, s.countSize = (k + 1) • warePart sv stashItems ∧
      r.lockerItems = s.lockerItems + (k + 1) • stashPart sv stashItems := by
  induction fuel generalizing s with
  | zero => cases h
  | succ fuel ih =>
    set s' : Counter := ⟨s.countSize - warePart sv stashItems, s.lockerItems + stashPart sv stashItems⟩
      with hs'
    have hround : stashRound sv stashItems s = if s'.countSize > 0 then .next s' else .done s' := by
      rw [stashRound, foldl_addStash]
    split_ifs at hround with hpos
    · rw [Loop.run_of_next hround] at h
      obtain ⟨k, hcount, hitems⟩ := ih h
      refine ⟨k + 1, ?_, ?_⟩
      · rw [succ_nsmul, ← hcount]
        exact (sub_add_cancel _ _).symm
      · rw [hitems, succ_nsmul _ (k + 1), add_comm (_ • _), ← add_assoc]
    · rw [Loop.run_of_done hround] at h
      obtain rfl := Option.some.inj h
      refine ⟨0, ?_, by rw [Nat.zero_add, one_nsmul]⟩
      rw [Nat.zero_add, one_nsmul, ← sub_eq_zero]
      exact not_not.1 fun hne => hpos ((BitVec.pos_iff_ne_zero _).2 hne)

/-- A pass takes the units of all wares off the counter. -/
theorem warePart_eq_sum {F : Finset ℕ} (hzero : 0 ∉ F)
    (hF : ∀ entry ∈ stashItems, (sv.items entry.1).wareId ≠ 0 → (sv.items entry.1).wareId ∈ F) :
    warePart sv stashItems = ∑ w ∈ F, BitVec.ofNat 32 (stashUnits sv stashItems w) := by
  induction stashItems with
  | nil => simp [warePart, stashUnits]
  | cons entry stashItems ih =>
    have ih := ih fun e he => hF e (List.mem_cons_of_mem _ he)
    have hown (w : ℕ) : BitVec.ofNat 32 (if (sv.items entry.1).wareId = w then entry.2.toNat else 0) =
        if (sv.items entry.1).wareId = w then entry.2 else 0 := by
      split_ifs <;> simp
    simp only [stashUnits_cons, BitVec.ofNat_add, Finset.sum_add_distrib, ← ih, hown, Finset.sum_ite_eq]
    by_cases h : (sv.items entry.1).wareId = 0
    · rw [if_neg (h ▸ hzero), zero_add]
      simp [warePart, h]
    · rw [if_pos (hF entry List.mem_cons_self h)]
      simp [warePart, h]

/-- A number of passes that adds nothing to any ware takes nothing off the counter. -/
theorem nsmul_warePart_eq_zero {k : ℕ} (h : ∀ w ≠ 0, k • BitVec.ofNat 32 (stashUnits sv stashItems w) = 0) :
    k • warePart sv stashItems = 0 := by
  rw [warePart_eq_sum (F := (stashItems.map fun entry => (sv.items entry.1).wareId).toFinset.erase 0)
    (by simp) fun entry hentry hne => by simpa using ⟨hne, entry.1, ⟨_, hentry⟩, rfl⟩, Finset.smul_sum]
  exact Finset.sum_eq_zero fun w hw => h w (Finset.ne_of_mem_erase hw)

end Stash

/-! ## When the count is exact -/

section Exact

variable {sv : Server} {sendToClient : Bool} {tier : ℕ} {stashItems : List (ℕ × BitVec 32)}
  {depotLocker : Item}

/-- A request ends when the loop over the stash does. -/
theorem requestLockerItems_some {fuel : ℕ} {r : List Item × LockerItems}
    (h : requestLockerItems sv sendToClient tier fuel stashItems (some depotLocker) = some r) :
    r.1 = qualifying sv sendToClient tier depotLocker ∧ ∃ c, Loop.run (stashRound sv stashItems) fuel
        ⟨(stashItems.map Prod.snd).sum,
          fun w t => .ofNat 32 (units sv (qualifying sv sendToClient tier depotLocker) w t)⟩ = some c ∧
        r.2 = c.lockerItems := by
  obtain ⟨s, n, hrun, hvector, htallied⟩ := run_walk sv sendToClient tier depotLocker
  simp only [requestLockerItems, Option.bind_eq_bind, Option.bind_eq_some_iff] at h
  obtain ⟨s', hs', c, hc, hr⟩ := h
  have hs : s' = s := by
    have hle := Loop.run_of_le hs' (le_max_left fuel n)
    rw [hrun _ (le_max_right fuel n)] at hle
    exact (Option.some.inj hle).symm
  obtain rfl := Option.some.inj hr
  rw [hs] at hc ⊢
  refine ⟨hvector, c, ?_, rfl⟩
  rw [← hvector, ← htallied]
  exact hc

variable (sendToClient tier depotLocker) in
/-- It ends when the units without a ware id come to nothing. -/
theorem requestLockerItems_of_dvd (h : 2 ^ 32 ∣ stashUnits sv stashItems 0) :
    ∃ fuel, requestLockerItems sv sendToClient tier fuel stashItems (some depotLocker) =
      some (qualifying sv sendToClient tier depotLocker,
        (fun w t => .ofNat 32 (units sv (qualifying sv sendToClient tier depotLocker) w t)) +
          stashPart sv stashItems) := by
  obtain ⟨s, n, hrun, hvector, htallied⟩ := run_walk sv sendToClient tier depotLocker
  have hround : stashRound sv stashItems ⟨(stashItems.map Prod.snd).sum, s.lockerItems⟩ =
      .done ⟨0, s.lockerItems + stashPart sv stashItems⟩ := by
    have hzero : BitVec.ofNat 32 (stashUnits sv stashItems 0) = 0 := by
      apply BitVec.eq_of_toNat_eq
      rw [BitVec.toNat_ofNat, Nat.mod_eq_zero_of_dvd h]
      rfl
    rw [stashRound, foldl_addStash, sum_counts, hzero, add_zero, sub_self]
    rfl
  refine ⟨n + 1, ?_⟩
  simp only [requestLockerItems, Option.bind_eq_bind, hrun (n + 1) (Nat.le_succ n), Option.bind_some,
    Loop.run_of_done hround, hvector]
  rw [htallied, hvector]

/-- What is counted of a ware when it is counted once. -/
theorem toNat_add_stashPart {w t : ℕ} (hw : w ≠ 0) :
    (BitVec.ofNat 32 (units sv (qualifying sv sendToClient tier depotLocker) w t) +
      stashPart sv stashItems w t).toNat = allUnits sv sendToClient tier stashItems depotLocker w t % 2 ^ 32 := by
  have hpart : stashPart sv stashItems w t = .ofNat 32 (if t = 0 then stashUnits sv stashItems w else 0) := by
    unfold stashPart
    by_cases ht : t = 0
    · simp [hw, ht]
    · simp [ht]
  rw [hpart, ← BitVec.ofNat_add, BitVec.toNat_ofNat]
  rfl

/-- **The count is exact** exactly when the units of the stash that have no ware id come to nothing
in 32 bits, as they do when there are none, and all units of a ware fit into 32 bits.

**Proof sketch.** After `k + 1` passes the counter has lost `k + 1` times the units of all wares,
and each ware has been added as often. If each ware is right, `k` passes add nothing to it, so that
they take nothing off the counter: what the counter had besides the wares was nothing. -/
theorem requestLockerItems_exact_iff :
    Exact sv sendToClient tier stashItems depotLocker ↔ 2 ^ 32 ∣ stashUnits sv stashItems 0 ∧
      ∀ w ≠ 0, ∀ t, allUnits sv sendToClient tier stashItems depotLocker w t < 2 ^ 32 := by
  constructor
  · rintro ⟨fuel, r, hr, -, hunits⟩
    obtain ⟨-, c, hc, hitems⟩ := requestLockerItems_some hr
    obtain ⟨k, hcount, hadded⟩ := run_stash hc
    refine ⟨?_, fun w hw t => hunits w hw t ▸ (r.2 w t).isLt⟩
    have hware (w : ℕ) (hw : w ≠ 0) : k • BitVec.ofNat 32 (stashUnits sv stashItems w) = 0 := by
      have hpart : stashPart sv stashItems w 0 = .ofNat 32 (stashUnits sv stashItems w) := by
        simp [stashPart, hw]
      have hr2 : r.2 w 0 = .ofNat 32 (units sv (qualifying sv sendToClient tier depotLocker) w 0) +
          (k + 1) • stashPart sv stashItems w 0 := by
        rw [hitems, hadded]
        rfl
      have honce : r.2 w 0 = .ofNat 32 (units sv (qualifying sv sendToClient tier depotLocker) w 0) +
          stashPart sv stashItems w 0 := by
        apply BitVec.eq_of_toNat_eq
        rw [toNat_add_stashPart hw, ← hunits w hw 0, Nat.mod_eq_of_lt (r.2 w 0).isLt]
      rw [honce, succ_nsmul, hpart] at hr2
      exact (add_eq_right.1 (add_left_cancel hr2).symm)
    rw [sum_counts, succ_nsmul, nsmul_warePart_eq_zero hware, zero_add] at hcount
    have hzero := congrArg BitVec.toNat (add_eq_left.1 hcount)
    rw [BitVec.toNat_ofNat] at hzero
    exact Nat.dvd_of_mod_eq_zero hzero
  · rintro ⟨hdvd, hfits⟩
    obtain ⟨fuel, hfuel⟩ := requestLockerItems_of_dvd sendToClient tier depotLocker hdvd
    refine ⟨fuel, _, hfuel, rfl, fun w hw t => ?_⟩
    exact (toNat_add_stashPart hw).trans (Nat.mod_eq_of_lt (hfits w hw t))

/-- Item types without ware ids. -/
def unsellable : Server where
  items _ := ⟨0, false, 8, 0, 0⟩
  FORGE_MAX_ITEM_TIER := 10
  attributePtr _ := none

/-- A depot locker with nothing in it. -/
def emptyLocker : Item := .container ⟨0, 3497, 1, 0⟩ 30 []

/-- With one unit of a type without a ware id in the stash, the loop never ends. -/
theorem not_exact_unsellable : ¬ Exact unsellable false 0 [(3031, 1)] emptyLocker := by
  rintro ⟨fuel, r, hr, -⟩
  obtain ⟨-, c, hc, -⟩ := requestLockerItems_some hr
  obtain ⟨k, hcount, -⟩ := run_stash hc
  have hnone : warePart unsellable [(3031, 1)] = 0 := rfl
  rw [hnone, smul_zero] at hcount
  exact absurd hcount (by decide)

end Exact

end TiabloServer.Locker
