import TiabloServer.Items.AddFrame
import TiabloServer.Items.Money

/-!
# Giving items to a player

`Game::internalPlayerAddItem`: a new item is offered to the containers that the player has set aside
for its category, then to his inventory, and then it is dropped on his tile. A stage that refuses
the item changes nothing, so the item is never in two places. But a stage that takes it answers
without an error when it has room for a part only, and of what an obtain container has left over
nothing is known to the caller.

## Main definitions

* `Items.GivesAll` — the trees of the player and of his tile grow by the units of the item.
* `Items.Receives` — they get them at the stage that takes the item.

## Main results

* `Items.internalPlayerAddItem_units` — no more than the units of the item are given, and all of
  them exactly when they are received.
* `Items.givesAll_iff` — an item is given whole exactly when no stage takes it or it is received.
-/

namespace TiabloServer.Items

open ReturnValue

/-! ## Obtain containers -/

/-- `ObjectCategory_t`. -/
inductive ObjectCategory where
  | OBJECTCATEGORY_NONE
  | OBJECTCATEGORY_ARMORS
  | OBJECTCATEGORY_NECKLACES
  | OBJECTCATEGORY_BOOTS
  | OBJECTCATEGORY_CONTAINERS
  | OBJECTCATEGORY_DECORATION
  | OBJECTCATEGORY_FOOD
  | OBJECTCATEGORY_HELMETS
  | OBJECTCATEGORY_LEGS
  | OBJECTCATEGORY_OTHERS
  | OBJECTCATEGORY_POTIONS
  | OBJECTCATEGORY_RINGS
  | OBJECTCATEGORY_RUNES
  | OBJECTCATEGORY_SHIELDS
  | OBJECTCATEGORY_TOOLS
  | OBJECTCATEGORY_VALUABLES
  | OBJECTCATEGORY_AMMO
  | OBJECTCATEGORY_AXES
  | OBJECTCATEGORY_CLUBS
  | OBJECTCATEGORY_DISTANCEWEAPONS
  | OBJECTCATEGORY_SWORDS
  | OBJECTCATEGORY_WANDS
  | OBJECTCATEGORY_PREMIUMSCROLLS
  | OBJECTCATEGORY_TIBIACOINS
  | OBJECTCATEGORY_CREATUREPRODUCTS
  | OBJECTCATEGORY_GOLD
  | OBJECTCATEGORY_DEFAULT
deriving DecidableEq

open ObjectCategory

/-- What decides where new items go, besides the world: whether coins go to the bank, the category
of the items of a type, as `getObjectCategory` tells it, and whether there is such a type. -/
structure CollectConfig extends Config where
  autobank : Bool
  typeCategory : ℕ → ObjectCategory
  registered : ℕ → Bool

/-- The fields of a `Player` that decide which containers take his new items. Of the two containers
of a category only the one for obtained items is asked for. -/
structure Managed where
  obtainContainers : ObjectCategory → Option ℕ
  isPremium : Bool
  quickLootFallbackToMainContainer : Bool

/-- `Player::getManagedContainer`. -/
def Managed.getManagedContainer (m : Managed) (category : ObjectCategory) : Option ℕ :=
  let category := if category ≠ OBJECTCATEGORY_DEFAULT ∧ ¬ m.isPremium then OBJECTCATEGORY_DEFAULT
    else category
  match m.obtainContainers category with
  | some c => some c
  | none =>
    if category ≠ OBJECTCATEGORY_DEFAULT then m.obtainContainers OBJECTCATEGORY_DEFAULT else none

/-- `Player::refreshManagedContainer` with a container. -/
def Managed.refresh (m : Managed) (category : ObjectCategory) (c : ℕ) : Managed :=
  { m with obtainContainers := Function.update m.obtainContainers category (some c) }

section Source

variable (cfg : CollectConfig) (w : World)

/-- `Game::getObjectCategory`. -/
def getObjectCategory (x : ℕ) : ObjectCategory :=
  if (w.items x).getWorth ≠ 0 then OBJECTCATEGORY_GOLD else cfg.typeCategory (w.items x).id

/-- The backpack of a player, when it is a container. -/
def mainBackpack (p : ℕ) : Option ℕ :=
  (w.getInventoryItem p CONST_SLOT_BACKPACK).filter fun n => (w.items n).container.isSome

/-- `Game::findManagedContainer`: the container, `fallbackConsumed` and what the player has set
aside. -/
def findManagedContainer (m : Managed) (p : ℕ) (category : ObjectCategory) :
    Option ℕ × Bool × Managed :=
  match m.getManagedContainer category with
  | some c => (some c, false, m)
  | none =>
    if m.quickLootFallbackToMainContainer then
      match mainBackpack w p with
      | some b => (some b, true, m.refresh OBJECTCATEGORY_DEFAULT b)
      | none => (none, false, m)
    else (none, false, m)

/-- The containers that `Game::findNextAvailableContainer` comes to from the container `c`: those in
it, level by level, and then the last item of the last of them, when that is a container. -/
def containersFrom (c : ℕ) : List ℕ :=
  let subContainers := (w.iterator c).filter fun x => (w.items x).container.isSome
  let lastItem := subContainers.getLast?.bind fun lastSubContainer => (w.itemlist lastSubContainer).getLast?
  c :: subContainers ++ (lastItem.filter fun x => (w.items x).container.isSome).toList

/-- The containers to which `Game::processLootItems` offers an item of `count` pieces, one after the
other: those from `c` on, and by `Game::handleFallbackLogic` those from the backpack on. It stops at
the first when there is nothing to add. A container that refuses the item leaves the world as it is,
so that the containers are found in the world at the start. -/
def lootContainers (m : Managed) (p c count : ℕ) (fallbackConsumed : Bool) : List ℕ :=
  if count = 0 then [c]
  else
    containersFrom w c ++
      if ¬ fallbackConsumed ∧ m.quickLootFallbackToMainContainer then
        (mainBackpack w p).elim [] (containersFrom w)
      else []

/-- The loop of `Game::processLootItems` for an item without a parent: the world and the return
value. -/
def offer (x : ℕ) : World → List ℕ → World × ReturnValue
  | w, [] => (w, RETURNVALUE_CONTAINERNOTENOUGHROOM)
  | w, lootContainer :: containers =>
    let r := internalAddItem cfg.toConfig w (.item lootContainer) x INDEX_WHEREEVER 0 false
    if r.2.1 ≠ RETURNVALUE_CONTAINERNOTENOUGHROOM then (r.1, r.2.1) else offer x r.1 containers

/-- The containers that `Game::internalCollectManagedItems` offers an item without a parent, and
what the player has set aside then. Such an item does not go to the bank. -/
def offered (m : Managed) (p x : ℕ) : Option (List ℕ) × Managed :=
  if cfg.autobank ∧ worthOf (w.items x).id ≠ 0 then (none, m)
  else
    match findManagedContainer w m p (getObjectCategory cfg w x) with
    | (none, _, m) => (none, m)
    | (some c, fallbackConsumed, m) =>
      (some (lootContainers w m p c (w.items x).getItemCount fallbackConsumed), m)

/-- `Game::internalCollectManagedItems` for obtained items. -/
def internalCollectManagedItems (m : Managed) (p x : ℕ) : World × Managed × ReturnValue :=
  match offered cfg w m p x with
  | (none, m) => (w, m, RETURNVALUE_NOTPOSSIBLE)
  | (some containers, m) =>
    let r := offer cfg x w containers
    (r.1, m, r.2)

/-- `Game::internalAddItem` to the tile of a player, as an item that is dropped. -/
def addToTile (p x : ℕ) : World × ReturnValue :=
  match (w.players p).tile with
  | none => (w, RETURNVALUE_NOTPOSSIBLE)
  | some t =>
    let r := internalAddItem cfg.toConfig w (.tile t) x INDEX_WHEREEVER FLAG_NOLIMIT false
    (r.1, r.2.1)

/-- The remainder of an addition is dropped as a new stack. -/
def dropRemainder (p id remainderCount : ℕ) : World :=
  if remainderCount ≠ 0 then
    (addToTile cfg (w.create (createStack cfg.types id remainderCount)) p w.size).1
  else w

/-- `Game::internalPlayerAddItem`. -/
def internalPlayerAddItem (m : Managed) (p x : ℕ) (dropOnMap : Bool) (slot : ℤ) :
    World × Managed × ReturnValue :=
  let c := if slot = CONST_SLOT_WHEREEVER then internalCollectManagedItems cfg w m p x
    else (w, m, RETURNVALUE_NOTPOSSIBLE)
  let r := if c.2.2 = RETURNVALUE_NOERROR then (c.1, c.2.2, 0)
    else internalAddItem cfg.toConfig c.1 (.player p) x slot 0 false
  let w' := dropRemainder cfg r.1 p (w.items x).id r.2.2
  if r.2.1 ≠ RETURNVALUE_NOERROR ∧ dropOnMap then
    let d := addToTile cfg w' p x
    (d.1, c.2.1, d.2)
  else (w', c.2.1, r.2.1)

end Source

/-! ## The stages -/

variable {cfg : CollectConfig} {R : Set Cylinder} {w w' : World} {m : Managed} {p t x : ℕ}

/-- The container that takes an item, if there is one: the first that does not answer that it is
full, when it answers without an error. -/
def collector (cfg : CollectConfig) (w : World) (m : Managed) (p x : ℕ) : Option ℕ :=
  let ret (c : ℕ) := addChecks cfg.toConfig w (.item c) x INDEX_WHEREEVER 0
  ((offered cfg w m p x).1.bind fun containers =>
    containers.find? fun c => ret c ≠ RETURNVALUE_CONTAINERNOTENOUGHROOM).filter
      fun c => ret c = RETURNVALUE_NOERROR

/-- Containers that are full are passed over. -/
theorem offer_eq (cfg : CollectConfig) (w : World) (x : ℕ) (containers : List ℕ) :
    offer cfg x w containers =
      match containers.find? fun c => addChecks cfg.toConfig w (.item c) x INDEX_WHEREEVER 0 ≠
        RETURNVALUE_CONTAINERNOTENOUGHROOM with
      | none => (w, RETURNVALUE_CONTAINERNOTENOUGHROOM)
      | some c =>
        ((internalAddItem cfg.toConfig w (.item c) x INDEX_WHEREEVER 0 false).1,
          addChecks cfg.toConfig w (.item c) x INDEX_WHEREEVER 0) := by
  induction containers with
  | nil => rfl
  | cons c containers ih =>
    rw [offer, List.find?_cons, internalAddItem]
    simp only [addRounds_ret]
    by_cases hfull : addChecks cfg.toConfig w (.item c) x INDEX_WHEREEVER 0 =
        RETURNVALUE_CONTAINERNOTENOUGHROOM
    · rw [addRounds_refused (by rw [hfull]; decide)]
      simp only [hfull, ne_eq, not_true_eq_false, if_false, decide_false]
      exact ih
    · simp [hfull, internalAddItem]

/-- **The first stage**: the container that takes the item, or nothing changes. -/
theorem internalCollectManagedItems_eq (cfg : CollectConfig) (w : World) (m : Managed) (p x : ℕ) :
    match collector cfg w m p x with
    | some c => (internalCollectManagedItems cfg w m p x).1 =
        (internalAddItem cfg.toConfig w (.item c) x INDEX_WHEREEVER 0 false).1 ∧
          (internalCollectManagedItems cfg w m p x).2.2 = RETURNVALUE_NOERROR
    | none => (internalCollectManagedItems cfg w m p x).1 = w ∧
        (internalCollectManagedItems cfg w m p x).2.2 ≠ RETURNVALUE_NOERROR := by
  unfold collector internalCollectManagedItems
  rcases offered cfg w m p x with ⟨_ | containers, m'⟩
  · exact ⟨rfl, nofun⟩
  · dsimp only [Option.bind_some]
    rw [offer_eq]
    cases containers.find? fun c => addChecks cfg.toConfig w (.item c) x INDEX_WHEREEVER 0 ≠
        RETURNVALUE_CONTAINERNOTENOUGHROOM with
    | none => exact ⟨rfl, nofun⟩
    | some c =>
      by_cases htakes : addChecks cfg.toConfig w (.item c) x INDEX_WHEREEVER 0 = RETURNVALUE_NOERROR
      · rw [Option.filter_some, if_pos (decide_eq_true htakes)]
        exact ⟨rfl, htakes⟩
      · rw [Option.filter_some, if_neg (by simpa using htakes)]
        refine ⟨?_, htakes⟩
        simp only [internalAddItem, addRounds_refused htakes]

/-- All of a remainder of the inventory arrives: in the inventory, or as a new stack on the tile. -/
def RemainderReceived (cfg : CollectConfig) (R : Set Cylinder) (p t id fuel : ℕ) (w : World)
    (x flags : ℕ) : Prop :=
  if addChecks cfg.toConfig w (.player p) x INDEX_WHEREEVER flags = RETURNVALUE_NOERROR then
    (w.items x).id = id ∧ AddsAll cfg.toConfig R (.player p) fuel w x INDEX_WHEREEVER flags
  else
    createdId cfg.types id = id ∧
      Gets cfg.toConfig R (w.create (createStack cfg.types id (w.items x).getItemCount)) (.tile t) w.size
        FLAG_NOLIMIT

/-- All of an item arrives in the inventory, but for a remainder that arrives on the tile. -/
def InventoryReceives (cfg : CollectConfig) (R : Set Cylinder) (w : World) (p t x : ℕ) : Prop :=
  RoundAdds cfg.toConfig R w (.player p) x CONST_SLOT_WHEREEVER 0
    (RemainderReceived cfg R p t (w.items x).id (w.items x).getItemCount)

/-- All of an item arrives in the trees of `R`, at the first stage that takes it. -/
def Receives (cfg : CollectConfig) (R : Set Cylinder) (w : World) (m : Managed) (p t x : ℕ) : Prop :=
  match collector cfg w m p x with
  | some c => Gets cfg.toConfig R w (.item c) x 0
  | none =>
    if addChecks cfg.toConfig w (.player p) x CONST_SLOT_WHEREEVER 0 = RETURNVALUE_NOERROR then
      InventoryReceives cfg R w p t x
    else Gets cfg.toConfig R w (.tile t) x FLAG_NOLIMIT

/-! ## The inventory -/

theorem dropRemainder_of_tile (htile : (w.players p).tile = some t) (id n : ℕ) :
    dropRemainder cfg w p id n =
      if n ≠ 0 then
        (internalAddItem cfg.toConfig (w.create (createStack cfg.types id n)) (.tile t) w.size
          INDEX_WHEREEVER FLAG_NOLIMIT false).1
      else w := by
  have hnew : ((w.create (createStack cfg.types id n)).players p).tile = some t := htile
  simp only [dropRemainder, addToTile, hnew]

/-- A new stack lies nowhere. -/
theorem loose_createStack (hw : w.WF cfg.types) (R : Set Cylinder) (id : ℕ) {n : ℕ} (hn : n < 256) :
    Loose cfg.types R (w.create (createStack cfg.types id n)) w.size := by
  have hnone : (createStack cfg.types id n).container = none := rfl
  refine ⟨hw.create hnone, hw.size_nowhere hnone, Nat.lt_succ_self _, inner_create w R hnone, ?_⟩
  rw [unitsOf, if_pos rfl, World.items_create_self]
  split_ifs
  · rw [Item.getItemCount, createStack, UInt8.toNat_ofNat']
    split_ifs with hzero <;> omega
  · exact Nat.one_pos

/-- The remainder of a stack that the inventory has no place for arrives on the tile, or less of
it. -/
theorem drop_units (cfg : CollectConfig) (hw : w.WF cfg.types) (ht : .tile t ∈ R)
    {id n : ℕ} (hpos : 0 < n) (hn : n < 256) (hstack : (cfg.types id).stackable = true) :
    let w' := w.create (createStack cfg.types id n)
    let r := internalAddItem cfg.toConfig w' (.tile t) w.size INDEX_WHEREEVER FLAG_NOLIMIT false
    units cfg.types r.1 R id ≤ units cfg.types w R id + n ∧
      (units cfg.types r.1 R id = units cfg.types w R id + n ↔
        createdId cfg.types id = id ∧ Gets cfg.toConfig R w' (.tile t) w.size FLAG_NOLIMIT) := by
  intro w' r
  have hloose := loose_createStack hw R id hn
  have hcreate : units cfg.types w' R id = units cfg.types w R id := hw.units_create rfl id
  have hnew : w'.items w.size = createStack cfg.types id n := w.items_create_self _
  have hid : (w'.items w.size).id = createdId cfg.types id := by rw [hnew]; rfl
  rcases eq_or_ne (createdId cfg.types id) id with hsame | hother
  · have hunits := gets_iff hloose (Or.inr ⟨t, rfl, ht⟩) FLAG_NOLIMIT
    have hcount : unitsOf cfg.types w' id w.size = n := by
      have hstack' : (w'.items w.size).isStackable cfg.types = true := by
        rw [Item.isStackable, Item.type, hid, hsame]
        exact hstack
      rw [unitsOf_stack hstack', if_pos (hid.trans hsame), hnew, Item.getItemCount, createStack,
        if_neg hpos.ne', UInt8.toNat_ofNat', Nat.mod_eq_of_lt hn]
    dsimp only at hunits
    rw [show ((w.create (createStack cfg.types id n)).items w.size).id = id from hid.trans hsame,
      hcount, hcreate] at hunits
    exact hunits.imp_right fun hiff => hiff.trans ⟨fun hgets => ⟨hsame, hgets⟩, And.right⟩
  · have hle := addItem_other (k := id) hloose (Or.inr ⟨t, rfl, ht⟩) FLAG_NOLIMIT
      (fun h => hother (hid.symm.trans h)) (by rw [hid, createdId_createdId])
    rw [hcreate] at hle
    change units cfg.types r.1 R id ≤ _ at hle
    exact ⟨by omega, iff_of_false (by omega) fun h => hother h.1⟩

/-- The destination of an addition to the inventory, on any slot. -/
theorem within_inventory (cfg : Config) (w : World) (hp : .player p ∈ R) (x flags : ℕ) :
    Within w R (queryDestination cfg w (.player p) CONST_SLOT_WHEREEVER x none flags).cylinder := by
  have hdest := Player.queryDestination_within cfg w p (Or.inl rfl) x none flags
  refine hdest.imp (fun hd => ?_) fun ⟨n, hn, hd⟩ => ⟨n, hn.mono_set (by simpa using hp), hd⟩
  have hd' : (queryDestination cfg w (.player p) CONST_SLOT_WHEREEVER x none flags).cylinder =
      .player p := hd
  rwa [hd']

/-- **The second stage** gives no more than the units of the item, with what it drops of them, and
all of them exactly when they are received. -/
theorem inventory_units (h : Loose cfg.types R w x) (hp : .player p ∈ R) (ht : .tile t ∈ R)
    (htile : (w.players p).tile = some t)
    (hchecks : addChecks cfg.toConfig w (.player p) x CONST_SLOT_WHEREEVER 0 = RETURNVALUE_NOERROR) :
    let r := internalAddItem cfg.toConfig w (.player p) x CONST_SLOT_WHEREEVER 0 false
    let w' := dropRemainder cfg r.1 p (w.items x).id r.2.2
    units cfg.types w' R (w.items x).id ≤
        units cfg.types w R (w.items x).id + unitsOf cfg.types w (w.items x).id x ∧
      (units cfg.types w' R (w.items x).id =
        units cfg.types w R (w.items x).id + unitsOf cfg.types w (w.items x).id x ↔
          InventoryReceives cfg R w p t x) := by
  have haddable : Addable cfg.types R w (.player p) x := ⟨h.wf, h.nowhere, h.live, h.inner, hp, nofun⟩
  have hsettled := addRounds_settled cfg.toConfig ((w.items x).getItemCount + 1) h.wf h.nowhere
    h.live (.player p) CONST_SLOT_WHEREEVER 0
  have htile' := (hsettled.tile p).trans htile
  have hround := round_units (w.items x).getItemCount haddable
    (within_inventory cfg.toConfig w hp x 0) hchecks
    (RemainderReceived cfg R p t (w.items x).id (w.items x).getItemCount)
    (fun r => (units cfg.types (if r.2.2 ≠ 0 then
      (internalAddItem cfg.toConfig (r.1.create (createStack cfg.types (w.items x).id r.2.2)) (.tile t)
        r.1.size INDEX_WHEREEVER FLAG_NOLIMIT false).1 else r.1) R (w.items x).id : ℤ))
    (fun _ => rfl) ?_
  · intro r w'
    have hw' : w' = if r.2.2 ≠ 0 then (internalAddItem cfg.toConfig
        (r.1.create (createStack cfg.types (w.items x).id r.2.2)) (.tile t) r.1.size INDEX_WHEREEVER
          FLAG_NOLIMIT false).1 else r.1 := dropRemainder_of_tile htile' _ _
    rw [hw']
    dsimp only at hround
    unfold InventoryReceives
    exact_mod_cast hround
  intro w₂ x₂ flags₂ n h₂ hid hstack hcount hpos hlt
  dsimp only
  unfold RemainderReceived
  by_cases hchecks₂ : addChecks cfg.toConfig w₂ (.player p) x₂ INDEX_WHEREEVER flags₂ = RETURNVALUE_NOERROR
  · have hrem := remainder_units (w.items x).getItemCount flags₂ h₂ hid hpos
      (AddsAll cfg.toConfig R (.player p) (w.items x).getItemCount w₂ x₂ INDEX_WHEREEVER flags₂)
      fun hk => ?_
    · obtain ⟨fuel, hfuel⟩ : ∃ f, (w.items x).getItemCount = f + 1 :=
        ⟨(w.items x).getItemCount - 1, by omega⟩
      rw [if_pos hchecks₂]
      rw [hfuel] at hrem ⊢
      rw [addRounds_ret]
      simp only [hchecks₂, ne_eq, not_true_eq_false, if_false]
      exact_mod_cast hrem
    · have hunits := unitsOf_remainder hstack hk
      have hadd := addRounds_units h₂ (h₂.within x₂ flags₂) hchecks₂ (hcount ▸ hlt)
      rwa [hk, hunits, hcount] at hadd
  · obtain ⟨fuel, hfuel⟩ : ∃ f, (w.items x).getItemCount = f + 1 :=
      ⟨(w.items x).getItemCount - 1, by omega⟩
    rw [if_neg hchecks₂, hfuel, addRounds_refused hchecks₂, hcount]
    simp only [ne_eq, hchecks₂, not_false_eq_true, if_true, hpos.ne']
    have hdrop := drop_units cfg h₂.wf ht hpos
      (lt_trans hlt (getItemCount_lt (w.items x))) hstack
    dsimp only at hdrop
    exact_mod_cast hdrop

/-! ## The whole addition -/

theorem addToTile_of_tile (htile : (w.players p).tile = some t) (x : ℕ) : addToTile cfg w p x =
      ((internalAddItem cfg.toConfig w (.tile t) x INDEX_WHEREEVER FLAG_NOLIMIT false).1,
        addChecks cfg.toConfig w (.tile t) x INDEX_WHEREEVER FLAG_NOLIMIT) := by
  simp only [addToTile, htile, internalAddItem, addRounds_ret]

/-- What the three stages do, one after the other. -/
theorem internalPlayerAddItem_eq (cfg : CollectConfig) (m : Managed) (x : ℕ)
    (htile : (w.players p).tile = some t) :
    let r := internalPlayerAddItem cfg w m p x true CONST_SLOT_WHEREEVER
    match collector cfg w m p x with
    | some c => r.1 = (internalAddItem cfg.toConfig w (.item c) x INDEX_WHEREEVER 0 false).1 ∧
        r.2.2 = RETURNVALUE_NOERROR
    | none =>
      if addChecks cfg.toConfig w (.player p) x CONST_SLOT_WHEREEVER 0 = RETURNVALUE_NOERROR then
        let s := internalAddItem cfg.toConfig w (.player p) x CONST_SLOT_WHEREEVER 0 false
        r.1 = dropRemainder cfg s.1 p (w.items x).id s.2.2 ∧ r.2.2 = RETURNVALUE_NOERROR
      else
        r.1 = (internalAddItem cfg.toConfig w (.tile t) x INDEX_WHEREEVER FLAG_NOLIMIT false).1 ∧
          r.2.2 = addChecks cfg.toConfig w (.tile t) x INDEX_WHEREEVER FLAG_NOLIMIT := by
  have hcollect := internalCollectManagedItems_eq cfg w m p x
  unfold internalPlayerAddItem
  simp only [if_true]
  cases hcollector : collector cfg w m p x with
  | some c =>
    rw [hcollector] at hcollect
    obtain ⟨hworld, hret⟩ := hcollect
    simp [hret, hworld, dropRemainder]
  | none =>
    rw [hcollector] at hcollect
    obtain ⟨hworld, hret⟩ := hcollect
    simp only [if_neg hret, hworld]
    by_cases hchecks :
        addChecks cfg.toConfig w (.player p) x CONST_SLOT_WHEREEVER 0 = RETURNVALUE_NOERROR
    · have hs : (internalAddItem cfg.toConfig w (.player p) x CONST_SLOT_WHEREEVER 0 false).2.1 =
          RETURNVALUE_NOERROR := by rw [internalAddItem, addRounds_ret, hchecks]
      simp [hs, hchecks]
    · have hs : internalAddItem cfg.toConfig w (.player p) x CONST_SLOT_WHEREEVER 0 false =
          (w, addChecks cfg.toConfig w (.player p) x CONST_SLOT_WHEREEVER 0, 0) := by
        rw [internalAddItem, addRounds_refused hchecks]
      simp [hs, hchecks, dropRemainder, addToTile_of_tile htile]

/-- **An addition to a player** gives no more than the units of its item, and all of them exactly
when they are received. -/
theorem internalPlayerAddItem_units (h : Loose cfg.types R w x) (hp : .player p ∈ R) (ht : .tile t ∈ R)
    (htile : (w.players p).tile = some t) :
    let r := internalPlayerAddItem cfg w m p x true CONST_SLOT_WHEREEVER
    units cfg.types r.1 R (w.items x).id ≤
        units cfg.types w R (w.items x).id + unitsOf cfg.types w (w.items x).id x ∧
      (units cfg.types r.1 R (w.items x).id =
        units cfg.types w R (w.items x).id + unitsOf cfg.types w (w.items x).id x ↔
          Receives cfg R w m p t x) := by
  have heq := internalPlayerAddItem_eq cfg m x htile
  intro r
  unfold Receives
  dsimp only at heq
  cases hcollector : collector cfg w m p x with
  | some c =>
    rw [hcollector] at heq
    dsimp only at heq ⊢
    rw [show r.1 = _ from heq.1]
    exact gets_iff h (Or.inl ⟨c, rfl⟩) 0
  | none =>
    rw [hcollector] at heq
    dsimp only at heq ⊢
    by_cases hchecks :
        addChecks cfg.toConfig w (.player p) x CONST_SLOT_WHEREEVER 0 = RETURNVALUE_NOERROR
    · rw [if_pos hchecks] at heq ⊢
      rw [show r.1 = _ from heq.1]
      exact inventory_units h hp ht htile hchecks
    · rw [if_neg hchecks] at heq ⊢
      rw [show r.1 = _ from heq.1]
      exact gets_iff h (Or.inr ⟨t, rfl, ht⟩) FLAG_NOLIMIT

/-- The trees of a player and of the tile under him, with what lies in the item itself. -/
def giftTrees (p t x : ℕ) : Set Cylinder := {.player p, .tile t, .item x}

/-- An item that is given to a player without an error is given whole: his tree and that of his tile
grow by its units. -/
def GivesAll (cfg : CollectConfig) (w : World) (m : Managed) (p t x : ℕ) : Prop :=
  let r := internalPlayerAddItem cfg w m p x true CONST_SLOT_WHEREEVER
  r.2.2 = RETURNVALUE_NOERROR →
    units cfg.types r.1 (giftTrees p t x) (w.items x).id =
      units cfg.types w (giftTrees p t x) (w.items x).id + unitsOf cfg.types w (w.items x).id x

/-- Some stage takes the item. -/
def IsTaken (cfg : CollectConfig) (w : World) (m : Managed) (p t x : ℕ) : Prop :=
  (collector cfg w m p x).isSome ∨
    addChecks cfg.toConfig w (.player p) x CONST_SLOT_WHEREEVER 0 = RETURNVALUE_NOERROR ∨
    addChecks cfg.toConfig w (.tile t) x INDEX_WHEREEVER FLAG_NOLIMIT = RETURNVALUE_NOERROR

/-- **An item is given whole** exactly when no stage takes it or it is received. -/
theorem givesAll_iff (cfg : CollectConfig) (h : Loose cfg.types (giftTrees p t x) w x)
    (htile : (w.players p).tile = some t) : GivesAll cfg w m p t x ↔
      (IsTaken cfg w m p t x → Receives cfg (giftTrees p t x) w m p t x) := by
  have hunits := internalPlayerAddItem_units (m := m) h (by simp [giftTrees]) (by simp [giftTrees]) htile
  have hret : (internalPlayerAddItem cfg w m p x true CONST_SLOT_WHEREEVER).2.2 = RETURNVALUE_NOERROR ↔
      IsTaken cfg w m p t x := by
    have heq := internalPlayerAddItem_eq cfg m x htile
    unfold IsTaken
    dsimp only at heq
    cases hcollector : collector cfg w m p x with
    | some c =>
      rw [hcollector] at heq
      exact iff_of_true heq.2 (Or.inl rfl)
    | none =>
      rw [hcollector] at heq
      dsimp only at heq
      by_cases hchecks :
          addChecks cfg.toConfig w (.player p) x CONST_SLOT_WHEREEVER 0 = RETURNVALUE_NOERROR
      · rw [if_pos hchecks] at heq
        exact iff_of_true heq.2 (Or.inr (Or.inl hchecks))
      · rw [if_neg hchecks] at heq
        rw [heq.2]
        simp [hchecks]
  unfold GivesAll
  dsimp only
  rw [hret]
  exact imp_congr_right fun _ => hunits.2

/-- **An addition to a player leaves the world settled.** -/
theorem internalPlayerAddItem_settled (hw : w.WF cfg.types) (hx : ∀ d, x ∉ w.contents d)
    (hlive : x < w.size) (htile : (w.players p).tile = some t) :
    Settled cfg.types w (internalPlayerAddItem cfg w m p x true CONST_SLOT_WHEREEVER).1 := by
  have heq := internalPlayerAddItem_eq cfg m x htile
  have hadd : ∀ (c : Cylinder) (index : ℤ) (flags : ℕ),
      Settled cfg.types w (internalAddItem cfg.toConfig w c x index flags false).1 := fun c index flags =>
    addRounds_settled cfg.toConfig _ hw hx hlive c index flags
  dsimp only at heq
  cases hcollector : collector cfg w m p x with
  | some c =>
    rw [hcollector] at heq
    rw [heq.1]
    exact hadd _ _ _
  | none =>
    rw [hcollector] at heq
    dsimp only at heq
    split_ifs at heq
    · rw [heq.1]
      have hinv := hadd (.player p) CONST_SLOT_WHEREEVER 0
      rw [dropRemainder_of_tile ((hinv.tile p).trans htile)]
      split_ifs
      swap
      · exact hinv
      · have hnone : ∀ n, (createStack cfg.types (w.items x).id n).container = none := fun _ => rfl
        have hwf := hinv.wf hw
        exact (hinv.trans (.create (hnone _))).trans (addRounds_settled cfg.toConfig _
          (hwf.create (hnone _)) (hwf.size_nowhere (hnone _)) (Nat.lt_succ_self _) _ _ _)
    · rw [heq.1]
      exact hadd _ _ _

end TiabloServer.Items
