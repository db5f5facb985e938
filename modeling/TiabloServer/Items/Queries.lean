import TiabloServer.Items.World

/-!
# Queries of the cylinders

`queryAdd`, `queryMaxCount`, `queryRemove` and `queryDestination` of containers, inventories and
plain tiles: whether, how much of and where an item goes in. They change nothing.

## Main definitions

* `Items.queryRemove` — whether it may be taken away.
* `Items.queryDestination` — the cylinder and the place where it goes, and the item there.
-/

namespace TiabloServer.Items

open ReturnValue

variable (cfg : Config) (w : World)

/-! ## The inventory -/

/-- `Player::hasCapacity`. -/
def Player.hasCapacity (p x count : ℕ) : Bool :=
  let player := w.players p
  let item := w.items x
  if player.cannotPickupItem then false
  else if player.hasInfiniteCapacity ∨ w.getTopParent x = some (.player p) then true
  else
    let itemWeight :=
      if item.container.isSome then w.getWeight cfg.types x else item.getBaseWeight cfg.types
    let itemWeight := if item.isStackable cfg.types then itemWeight * count else itemWeight
    itemWeight ≤ w.getFreeCapacity cfg.types p

/-- The part of `Player::queryAdd` for the two hands: whether `item` goes in one while `other` is in
the other hand, for an item that is not made for this hand. -/
def Player.queryOtherHand (x count : ℕ) (other : Option ℕ) : ReturnValue :=
  let item := w.items x
  let it := item.type cfg.types
  if hasBitSet SLOTP_TWO_HAND it.slotPosition then
    if other.isSome ∧ other ≠ some x then RETURNVALUE_BOTHHANDSNEEDTOBEFREE
    else RETURNVALUE_NOERROR
  else
    match other with
    | none => RETURNVALUE_NOERROR
    | some y =>
      let type := it.weaponType
      let otherIt := (w.items y).type cfg.types
      let otherType := otherIt.weaponType
      if hasBitSet SLOTP_TWO_HAND otherIt.slotPosition then RETURNVALUE_DROPTWOHANDEDITEM
      else if x = y ∧ count = item.getItemCount then RETURNVALUE_NOERROR
      else if otherType = .WEAPON_SHIELD ∧ type = .WEAPON_SHIELD then RETURNVALUE_CANONLYUSEONESHIELD
      else if otherType = .WEAPON_NONE ∨ type = .WEAPON_NONE ∨ otherType = .WEAPON_SHIELD ∨
          otherType = .WEAPON_AMMO ∨ type = .WEAPON_SHIELD ∨ type = .WEAPON_AMMO then
        RETURNVALUE_NOERROR
      else RETURNVALUE_CANONLYUSEONEWEAPON

/-- The case `CONST_SLOT_RIGHT` of `Player::queryAdd`. -/
def Player.queryRightHand (p x count : ℕ) : ReturnValue :=
  let it := (w.items x).type cfg.types
  let left := (w.players p).inventory CONST_SLOT_LEFT
  if hasBitSet SLOTP_RIGHT it.slotPosition then
    if it.weaponType ≠ .WEAPON_SHIELD ∧ it.type ≠ .ITEM_TYPE_QUIVER then RETURNVALUE_CANNOTBEDRESSED
    else
      match left with
      | none => RETURNVALUE_NOERROR
      | some y =>
        let leftIt := (w.items y).type cfg.types
        if hasBitSet SLOTP_TWO_HAND (leftIt.slotPosition ||| it.slotPosition) then
          if it.type = .ITEM_TYPE_QUIVER ∧ leftIt.weaponType = .WEAPON_DISTANCE then
            RETURNVALUE_NOERROR
          else RETURNVALUE_BOTHHANDSNEEDTOBEFREE
        else RETURNVALUE_NOERROR
  else Player.queryOtherHand cfg w x count left

/-- The case `CONST_SLOT_LEFT` of `Player::queryAdd`. -/
def Player.queryLeftHand (p x count : ℕ) : ReturnValue :=
  let it := (w.items x).type cfg.types
  let right := (w.players p).inventory CONST_SLOT_RIGHT
  if hasBitSet SLOTP_LEFT it.slotPosition then
    if it.weaponType = .WEAPON_NONE ∨ it.weaponType = .WEAPON_SHIELD ∨
        it.weaponType = .WEAPON_AMMO then
      RETURNVALUE_CANNOTBEDRESSED
    else
      match right with
      | none => RETURNVALUE_NOERROR
      | some y =>
        if hasBitSet SLOTP_TWO_HAND it.slotPosition then
          if it.weaponType = .WEAPON_DISTANCE ∧
              ((w.items y).type cfg.types).type = .ITEM_TYPE_QUIVER then
            RETURNVALUE_NOERROR
          else RETURNVALUE_BOTHHANDSNEEDTOBEFREE
        else RETURNVALUE_NOERROR
  else Player.queryOtherHand cfg w x count right

/-- What `Player::queryAdd` answers for an item by its slot positions alone. -/
def Player.querySlotPosition (index : ℤ) (x : ℕ) : ReturnValue :=
  let slotPosition := ((w.items x).type cfg.types).slotPosition
  if cfg.allowPutItemsOnAmmoSlot ∧ index = CONST_SLOT_AMMO then RETURNVALUE_NOERROR
  else if [SLOTP_HEAD, SLOTP_NECKLACE, SLOTP_BACKPACK, SLOTP_ARMOR, SLOTP_LEGS, SLOTP_FEET,
      SLOTP_RING].any (hasBitSet · slotPosition) then
    RETURNVALUE_CANNOTBEDRESSED
  else if hasBitSet SLOTP_TWO_HAND slotPosition then RETURNVALUE_PUTTHISOBJECTINBOTHHANDS
  else if hasBitSet SLOTP_RIGHT slotPosition ∨ hasBitSet SLOTP_LEFT slotPosition then
    RETURNVALUE_CANNOTBEDRESSED
  else RETURNVALUE_NOERROR

/-- The slots that take the items made for them, with their slot positions. The slot for ammunition
asks for a ring. -/
def dressSlots : List (ℤ × ℕ) :=
  [(CONST_SLOT_HEAD, SLOTP_HEAD), (CONST_SLOT_NECKLACE, SLOTP_NECKLACE),
    (CONST_SLOT_BACKPACK, SLOTP_BACKPACK), (CONST_SLOT_ARMOR, SLOTP_ARMOR),
    (CONST_SLOT_LEGS, SLOTP_LEGS), (CONST_SLOT_FEET, SLOTP_FEET), (CONST_SLOT_RING, SLOTP_RING),
    (CONST_SLOT_AMMO, SLOTP_RING), (CONST_SLOT_BELT, SLOTP_BELT), (CONST_SLOT_GLOVES, SLOTP_GLOVES)]

/-- The `switch` over the slots in `Player::queryAdd`. -/
def Player.querySlot (p : ℕ) (index : ℤ) (x count : ℕ) : ReturnValue :=
  let slotPosition := ((w.items x).type cfg.types).slotPosition
  if index = CONST_SLOT_RIGHT then Player.queryRightHand cfg w p x count
  else if index = CONST_SLOT_LEFT then Player.queryLeftHand cfg w p x count
  else if index = CONST_SLOT_WHEREEVER ∨ index = -1 then RETURNVALUE_NOTENOUGHROOM
  else
    match dressSlots.lookup index with
    | none => RETURNVALUE_NOTPOSSIBLE
    | some slotp =>
      if hasBitSet slotp slotPosition then RETURNVALUE_NOERROR
      else Player.querySlotPosition cfg w index x

/-- `Player::queryAdd`. -/
def Player.queryAdd (p : ℕ) (index : ℤ) (x count flags : ℕ) : ReturnValue :=
  let item := w.items x
  if item.hasOwner ∧ ¬ w.isOwner item p then RETURNVALUE_ITEMISNOTYOURS
  else if hasBitSet FLAG_CHILDISOWNER flags then
    if hasBitSet FLAG_NOLIMIT flags ∨ Player.hasCapacity cfg w p x count then RETURNVALUE_NOERROR
    else RETURNVALUE_NOTENOUGHCAPACITY
  else if ¬ (item.type cfg.types).pickupable then RETURNVALUE_CANNOTPICKUP
  else
    let ret := Player.querySlot cfg w p index x count
    if ret = RETURNVALUE_NOERROR ∨ ret = RETURNVALUE_NOTENOUGHROOM then
      let needExchange := (w.getInventoryItem p index).any fun y =>
        ¬ (w.items y).isStackable cfg.types ∨ (w.items y).id ≠ item.id
      if needExchange then RETURNVALUE_NEEDEXCHANGE
      else if ¬ Player.hasCapacity cfg w p x count then RETURNVALUE_NOTENOUGHCAPACITY
      else if ¬ cfg.onPlayerEquip p item index.toNat then RETURNVALUE_CANNOTBEDRESSED
      else ret
    else ret

/-! ## Containers -/

/-- `Reward::queryAdd`. -/
def Reward.queryAdd (n x : ℕ) (actor : Bool) : ReturnValue :=
  if actor then RETURNVALUE_NOTPOSSIBLE
  else if x = n then RETURNVALUE_THISISIMPOSSIBLE
  else if ¬ ((w.items x).type cfg.types).pickupable then RETURNVALUE_CANNOTPICKUP
  else RETURNVALUE_NOERROR

/-- `Inbox::queryAdd`. -/
def Inbox.queryAdd (n x flags : ℕ) : ReturnValue :=
  if ¬ hasBitSet FLAG_NOLIMIT flags then RETURNVALUE_CONTAINERNOTENOUGHROOM
  else if x = n then RETURNVALUE_THISISIMPOSSIBLE
  else if ¬ ((w.items x).type cfg.types).pickupable then RETURNVALUE_CANNOTPICKUP
  else
    let addCount :=
      if w.getTopParent x = some (.item n) then 0
      else if (w.items x).container.isSome then w.getItemHoldingCount x + 1 else 1
    if w.getItemHoldingCount n + addCount > 0xFFFF then RETURNVALUE_DEPOTISFULL
    else RETURNVALUE_NOERROR

/-- Whether the owners of an item and of a container forbid to put it in. -/
def Container.ownerForbids (n x : ℕ) : Bool :=
  let item := w.items x
  let notToPlayer :=
    match w.getTopParent n with
    | some (.player p) => !w.isOwner item p
    | _ => false
  item.hasOwner && (notToPlayer ||
    ((w.items n).hasOwner && (w.items n).getOwnerId != item.getOwnerId))

/-- The walk up the parents in `Container::queryAdd`. -/
def Container.queryParents (x : ℕ) (noLimit : Bool) : List Cylinder → ReturnValue
  | [] => RETURNVALUE_NOERROR
  | c :: parents =>
    if c = .item x then RETURNVALUE_THISISIMPOSSIBLE
    else if ¬ noLimit ∧ (w.container c).any (·.kind = .inbox) then RETURNVALUE_CONTAINERNOTENOUGHROOM
    else Container.queryParents x noLimit parents

/-- Whether the top container is full: too many containers or too many items. -/
def Container.isFull (n x : ℕ) (k : Container) : Bool :=
  match w.getTopParentContainer n with
  | .item top =>
    if (w.items x).container.isSome then
      w.getContainerHoldingCount x + 1 + w.getContainerHoldingCount top > cfg.maxContainer ||
        w.getItemHoldingCount x + 1 + w.getItemHoldingCount top > k.maxItems
    else w.getItemHoldingCount top + 1 > k.maxItems
  | _ => false

/-- What the top parent of a container says, asked on behalf of the container. -/
def queryTopParent (n x count flags : ℕ) (actor : Bool) : ReturnValue :=
  match w.getTopParent n with
  | some (.player p) =>
    Player.queryAdd cfg w p INDEX_WHEREEVER x count (flags ||| FLAG_CHILDISOWNER)
  | some (.item top) =>
    if top = n then RETURNVALUE_NOERROR
    else
      match (w.items top).container with
      | none => RETURNVALUE_NOERROR
      | some k =>
        match k.kind with
        | .container => RETURNVALUE_NOERROR
        | .reward => Reward.queryAdd cfg w top x actor
        | .inbox => Inbox.queryAdd cfg w top x flags
  | _ => RETURNVALUE_NOERROR

/-- `Container::queryAdd`. -/
def Container.queryAdd (n : ℕ) (k : Container) (index : ℤ) (x count flags : ℕ) (actor : Bool) :
    ReturnValue :=
  let it := (w.items x).type cfg.types
  let noLimit := hasBitSet FLAG_NOLIMIT flags
  if hasBitSet FLAG_CHILDISOWNER flags then RETURNVALUE_NOERROR
  else if ¬ k.unlocked then RETURNVALUE_NOTPOSSIBLE
  else if ¬ it.pickupable then RETURNVALUE_CANNOTPICKUP
  else if x = n then RETURNVALUE_THISISIMPOSSIBLE
  else if Container.ownerForbids w n x then RETURNVALUE_ITEMISNOTYOURS
  else
    let ret := Container.queryParents w x noLimit (w.parents (.item n))
    if ret ≠ RETURNVALUE_NOERROR then ret
    else if ¬ noLimit ∧ index = INDEX_WHEREEVER ∧ k.itemlist.length ≥ k.maxSize ∧ ¬ k.pagination then
      RETURNVALUE_CONTAINERNOTENOUGHROOM
    else if Container.isFull cfg w n x k then RETURNVALUE_CONTAINERISFULL
    else if ((w.items n).type cfg.types).type = .ITEM_TYPE_QUIVER ∧ it.weaponType ≠ .WEAPON_AMMO then
      RETURNVALUE_ONLYAMMOINQUIVER
    else queryTopParent cfg w n x count flags actor

/-- `queryAdd` of a container of any class. -/
def Container.queryAddOf (n : ℕ) (index : ℤ) (x count flags : ℕ) (actor : Bool) : ReturnValue :=
  match (w.items n).container with
  | none => RETURNVALUE_NOTPOSSIBLE
  | some k =>
    match k.kind with
    | .container => Container.queryAdd cfg w n k index x count flags actor
    | .reward => Reward.queryAdd cfg w n x actor
    | .inbox => Inbox.queryAdd cfg w n x flags

/-! ## Tiles -/

/-- `Tile::queryAdd` for an item. -/
def Tile.queryAdd (t x flags : ℕ) : ReturnValue :=
  let tile := w.tiles t
  let it := (w.items x).type cfg.types
  let items := tile.downItems ++ tile.topItems
  let typeOf (y : ℕ) := (w.items y).type cfg.types
  let isField := decide (it.type = .ITEM_TYPE_MAGICFIELD)
  if hasBitSet FLAG_NOLIMIT flags then RETURNVALUE_NOERROR
  else if items.length ≥ 0x3E8 then RETURNVALUE_NOTPOSSIBLE
  else if tile.ground.isNone ∧ ¬ it.isHangable then RETURNVALUE_NOTPOSSIBLE
  else if it.blockSolid ∧ ¬ hasBitSet FLAG_IGNOREBLOCKCREATURE flags ∧ tile.creatures.any (!·) then
    RETURNVALUE_NOTENOUGHROOM
  else if it.isHangable ∧ tile.supportsHangable then
    if items.any fun y => (typeOf y).isHangable then RETURNVALUE_NEEDEXCHANGE
    else RETURNVALUE_NOERROR
  else
    let groundForbids := tile.ground.any fun y =>
      (typeOf y).blockSolid &&
        (!(typeOf y).pickupable && (typeOf y).type != .ITEM_TYPE_TRASHHOLDER || isField ||
          it.blockSolid) &&
        (!it.pickupable && it.type != .ITEM_TYPE_CARPET || !(typeOf y).hasHeight)
    let itemForbids := items.any fun y =>
      (typeOf y).blockSolid && (typeOf y).type != .ITEM_TYPE_TRASHHOLDER &&
        !((typeOf y).pickupable && !isField && !it.blockSolid) &&
        (!it.pickupable || !(typeOf y).hasHeight || (typeOf y).pickupable)
    if groundForbids ∨ itemForbids then RETURNVALUE_NOTENOUGHROOM else RETURNVALUE_NOERROR

/-! ## All cylinders -/

def queryAdd (c : Cylinder) (index : ℤ) (x count flags : ℕ) (actor : Bool) : ReturnValue :=
  match c with
  | .item n => Container.queryAddOf cfg w n index x count flags actor
  | .player p => Player.queryAdd cfg w p index x count flags
  | .tile t => Tile.queryAdd cfg w t x flags

/-- `queryRemove`, which containers, inventories and plain tiles answer in the same way. -/
def queryRemove (c : Cylinder) (x count flags : ℕ) : ReturnValue :=
  let item := w.items x
  if w.getThingIndex cfg.types c x = -1 then RETURNVALUE_NOTPOSSIBLE
  else if count = 0 ∨ (item.isStackable cfg.types ∧ count > item.getItemCount) then
    RETURNVALUE_NOTPOSSIBLE
  else if ¬ (item.type cfg.types).movable ∧ ¬ hasBitSet FLAG_IGNORENOTMOVABLE flags then
    RETURNVALUE_NOTMOVABLE
  else RETURNVALUE_NOERROR

/-- Whether an item can be stacked on another: it equals it and there is room. -/
def canStack (x y : ℕ) : Bool :=
  (w.items y).equals (w.items x) ∧
    (w.items y).getItemCount < (w.items y).getStackSize cfg.types

/-- The room on a stack: `getStackSize() - getItemCount()`. -/
def stackRoom (y : ℕ) : ℕ := (w.items y).getStackSize cfg.types - (w.items y).getItemCount

/-- The sum over the stacks in `Container::queryMaxCount`, asked with the indices 0, 1, … -/
def Container.stackRooms (n x flags : ℕ) : ℕ → List ℕ → ℕ
  | _, [] => 0
  | slotIndex, y :: l =>
    if y ≠ x ∧ canStack cfg w x y then
      let remainder := stackRoom cfg w y
      (if Container.queryAddOf cfg w n slotIndex x remainder flags false = RETURNVALUE_NOERROR then
        remainder else 0) + Container.stackRooms n x flags (slotIndex + 1) l
    else Container.stackRooms n x flags slotIndex l

/-- `Container::queryMaxCount`: the return value and `maxQueryCount`. -/
def Container.queryMaxCount (n : ℕ) (index : ℤ) (x count flags : ℕ) : ReturnValue × ℕ :=
  match (w.items n).container with
  | none => (RETURNVALUE_NOTPOSSIBLE, 0)
  | some k =>
    let item := w.items x
    if hasBitSet FLAG_NOLIMIT flags ∨ k.pagination then (RETURNVALUE_NOERROR, max 1 count)
    else
      let freeSlots := k.maxSize - k.itemlist.length
      if item.isStackable cfg.types then
        let n :=
          if index = INDEX_WHEREEVER then Container.stackRooms cfg w n x flags 0 k.itemlist
          else
            match w.getItemByIndex n index with
            | some y => if canStack cfg w x y then stackRoom cfg w y else 0
            | none => 0
        let maxQueryCount := freeSlots * item.getStackSize cfg.types + n
        (if maxQueryCount < count then RETURNVALUE_CONTAINERNOTENOUGHROOM else RETURNVALUE_NOERROR,
          maxQueryCount)
      else
        (if freeSlots = 0 then RETURNVALUE_CONTAINERNOTENOUGHROOM else RETURNVALUE_NOERROR,
          freeSlots)

/-- What the slots of an inventory and all the containers on them have room for. -/
def Player.roomOnSlot (p x flags slotIndex : ℕ) : ℕ :=
  let item := w.items x
  match (w.players p).inventory slotIndex with
  | some y =>
    if (w.items y).container.isSome then
      ((y :: (w.iterator y).filter fun z => (w.items z).container.isSome).map fun z =>
        (Container.queryMaxCount cfg w z INDEX_WHEREEVER x item.getItemCount flags).2).sum
    else if (w.items y).isStackable cfg.types ∧ canStack cfg w x y ∧
        Player.queryAdd cfg w p slotIndex x (stackRoom cfg w y) flags = RETURNVALUE_NOERROR then
      stackRoom cfg w y
    else 0
  | none =>
    if Player.queryAdd cfg w p slotIndex x item.getItemCount flags = RETURNVALUE_NOERROR then
      item.getStackSize cfg.types
    else 0

/-- `Player::queryMaxCount`: the return value and `maxQueryCount`. -/
def Player.queryMaxCount (p : ℕ) (index : ℤ) (x count flags : ℕ) : ReturnValue × ℕ :=
  let enough (n : ℕ) :=
    (if n < count then RETURNVALUE_NOTENOUGHROOM else RETURNVALUE_NOERROR, n)
  if index = INDEX_WHEREEVER then enough (slots.map (Player.roomOnSlot cfg w p x flags)).sum
  else
    match w.getInventoryItem p index with
    | some y =>
      enough (if (w.items y).isStackable cfg.types ∧ canStack cfg w x y then stackRoom cfg w y else 0)
    | none =>
      if Player.queryAdd cfg w p index x count flags = RETURNVALUE_NOERROR then
        (RETURNVALUE_NOERROR, (w.items x).getStackSize cfg.types)
      else enough 0

/-- `queryMaxCount`: the return value and `maxQueryCount`. -/
def queryMaxCount (c : Cylinder) (index : ℤ) (x count flags : ℕ) : ReturnValue × ℕ :=
  match c with
  | .item n => Container.queryMaxCount cfg w n index x count flags
  | .player p => Player.queryMaxCount cfg w p index x count flags
  | .tile _ => (RETURNVALUE_NOERROR, max 1 count)

/-! ## Destinations -/

/-- What `queryDestination` answers and leaves in its reference arguments. -/
structure Destination where
  cylinder : Cylinder
  index : ℤ
  destItem : Option ℕ
  flags : ℕ

/-- `Container::queryDestination`. -/
def Container.queryDestination (n : ℕ) (index : ℤ) (x : ℕ) (destItem : Option ℕ) (flags : ℕ) :
    Destination :=
  match (w.items n).container with
  | none => ⟨.item n, index, destItem, flags⟩
  | some k =>
    let item := w.items x
    if ¬ k.unlocked then ⟨.item n, index, none, flags⟩
    else if index = 254 then
      match (w.items n).parent with
      | some (.item m) =>
        ⟨.item (if (w.items m).container.isSome then m else n), INDEX_WHEREEVER, none, flags⟩
      | _ => ⟨.item n, INDEX_WHEREEVER, none, flags⟩
    else
      let wherever := index = 255 ∨ (index ≥ k.maxSize ∧ ¬ k.pagination)
      let destItem := if wherever then none else destItem
      let index := if wherever then INDEX_WHEREEVER else index
      let destItem :=
        if index ≠ INDEX_WHEREEVER then (w.getItemByIndex n index).or destItem else destItem
      match destItem.filter fun y => index ≠ INDEX_WHEREEVER ∧ (w.items y).container.isSome with
      | some y => ⟨.item y, INDEX_WHEREEVER, none, flags⟩
      | none =>
        if ¬ hasBitSet FLAG_IGNOREAUTOSTACK flags ∧ item.isStackable cfg.types ∧
            item.parent ≠ some (.item n) then
          if destItem.any (canStack cfg w x) then ⟨.item n, index, destItem, flags⟩
          else
            match k.itemlist.findIdx? fun y => y ≠ x ∧ canStack cfg w x y with
            | some i => ⟨.item n, i, k.itemlist[i]?, flags⟩
            | none => ⟨.item n, index, destItem, flags⟩
        else ⟨.item n, index, destItem, flags⟩

/-- The slots that `Player::queryDestination` goes through, with the containers on them that it has
passed: the first slot that takes the item, by stacking or empty, is the destination. -/
def Player.findSlot (p x flags : ℕ) (autoStack : Bool) : List ℕ → List ℕ → Destination ⊕ List ℕ
  | containers, [] => .inr containers
  | containers, slotIndex :: slots =>
    let item := w.items x
    match (w.players p).inventory slotIndex with
    | some y =>
      if some y = (w.players p).tradeItem ∨ y = x then
        Player.findSlot p x flags autoStack containers slots
      else if (autoStack ∧ item.isStackable cfg.types) ∧
          Player.queryAdd cfg w p slotIndex x item.getItemCount 0 = RETURNVALUE_NOERROR ∧
          canStack cfg w x y then
        .inl ⟨.player p, slotIndex, some y, flags⟩
      else if (w.items y).container.isSome then
        Player.findSlot p x flags autoStack (containers ++ [y]) slots
      else Player.findSlot p x flags autoStack containers slots
    | none =>
      if Player.queryAdd cfg w p slotIndex x item.getItemCount flags = RETURNVALUE_NOERROR then
        .inl ⟨.player p, slotIndex, none, flags⟩
      else Player.findSlot p x flags autoStack containers slots

/-- The value of `n` in a `uint32_t`. -/
def toUInt32 (n : ℤ) : ℕ := (n % 2 ^ 32).toNat

/-- The value of `n` in an `int32_t`. -/
def toInt32 (n : ℤ) : ℤ := Int.bmod n (2 ^ 32)

/-- The search through the places from `capacity - n` on in a container for one that takes the
item. -/
def Container.findFreePlace (c capacity x flags : ℕ) : ℕ → Option ℤ
  | 0 => none
  | n + 1 =>
    let index := toInt32 (capacity - (n + 1))
    if Container.queryAddOf cfg w c index x (w.items x).getItemCount flags false =
        RETURNVALUE_NOERROR then
      some index
    else Container.findFreePlace c capacity x flags n

/-- The search through the items of a container for one to stack on. It counts the places that it
has passed, and the containers in them. -/
def Player.findStack (p x : ℕ) : ℕ → List ℕ → List ℕ → (ℕ × ℕ) ⊕ (ℕ × List ℕ)
  | n, containers, [] => .inr (n, containers)
  | n, containers, y :: l =>
    if some y = (w.players p).tradeItem ∨ y = x then Player.findStack p x n containers l
    else if canStack cfg w x y then .inl (n, y)
    else
      Player.findStack p x (n + 1)
        (if (w.items y).container.isSome then containers ++ [y] else containers) l

/-- The search through the containers of an inventory in `Player::queryDestination`, which visits
every container at most once. -/
def Player.findContainer (p x flags : ℕ) (autoStack : Bool) (index : ℤ) : ℕ → List ℕ → Destination
  | 0, _ => ⟨.player p, index, none, flags⟩
  | _, [] => ⟨.player p, index, none, flags⟩
  | fuel + 1, c :: containers =>
    let item := w.items x
    let capacity := ((w.items c).container.map (·.maxSize)).getD 0
    if ¬ (autoStack ∧ item.isStackable cfg.types) then
      -- a paginated container may hold more items than its capacity
      let n := toUInt32 (capacity - (w.itemlist c).length)
      match Container.findFreePlace cfg w c capacity x flags n with
      | some i => ⟨.item c, i, none, flags⟩
      | none =>
        Player.findContainer p x flags autoStack index fuel
          (containers ++ (w.itemlist c).filter fun y => (w.items y).container.isSome)
    else
      match Player.findStack cfg w p x 0 containers (w.itemlist c) with
      | .inl (i, y) => ⟨.item c, i, some y, flags⟩
      | .inr (n, containers) =>
        if n < capacity ∧
            Container.queryAddOf cfg w c n x item.getItemCount flags false = RETURNVALUE_NOERROR then
          ⟨.item c, n, none, flags⟩
        else Player.findContainer p x flags autoStack index fuel containers

/-- `Player::queryDestination`. -/
def Player.queryDestination (p : ℕ) (index : ℤ) (x : ℕ) (destItem : Option ℕ) (flags : ℕ) :
    Destination :=
  if index = 0 ∨ index = INDEX_WHEREEVER then
    let autoStack := !hasBitSet FLAG_IGNOREAUTOSTACK flags
    match Player.findSlot cfg w p x flags autoStack []
        (List.range' CONST_SLOT_FIRST (CONST_SLOT_AMMO + 1 - CONST_SLOT_FIRST)) with
    | .inl d => d
    | .inr containers => Player.findContainer cfg w p x flags autoStack index (w.size + 1) containers
  else
    let destThing := w.getInventoryItem p index
    let destItem := destThing.or destItem
    let movingAmmoToQuiver := ((w.items x).type cfg.types).type = .ITEM_TYPE_AMMO ∧
      destItem.any fun y => ((w.items y).type cfg.types).type = .ITEM_TYPE_QUIVER
    if index = CONST_SLOT_RIGHT ∧ ¬ movingAmmoToQuiver then ⟨.player p, index, destItem, flags⟩
    else
      match destThing.filter fun y => (w.items y).container.isSome with
      | some y => ⟨.item y, INDEX_WHEREEVER, none, flags⟩
      | none => ⟨.player p, index, destItem, flags⟩

/-- `Tile::queryDestination` of a plain tile: the tile below or above when a floor change leads
there, where limits do not count, and the item that lies on top of the stack there. -/
def Tile.queryDestination (t : ℕ) (index : ℤ) (flags : ℕ) : Destination :=
  let destTile := (w.tiles t).floorChange.getD t
  ⟨.tile destTile, index, (w.tiles destTile).downItems.head?,
    if (w.tiles t).floorChange.isSome then flags ||| FLAG_NOLIMIT else flags⟩

def queryDestination (c : Cylinder) (index : ℤ) (x : ℕ) (destItem : Option ℕ) (flags : ℕ) :
    Destination :=
  match c with
  | .item n => Container.queryDestination cfg w n index x destItem flags
  | .player p => Player.queryDestination cfg w p index x destItem flags
  | .tile t => Tile.queryDestination w t index flags

end TiabloServer.Items
