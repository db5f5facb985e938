import TiabloServer.Items.Types

/-!
# The world of items

The items of the game in a heap, with the players and the tiles that hold them, and what the
functions of `Item`, `Container`, `Player` and `Tile` read from it: parents, contents, weights.
What only tells clients, scripts or the decay queue about a change is left out.

## Main definitions

* `Items.World.getTopParent`, `Items.World.iterator` — the walks up and down the containers.
* `Items.World.getThingIndex` — the place of an item in a cylinder.
-/

namespace TiabloServer.Items

/-- The fields of a `Player` that decide what he may carry. -/
structure Player where
  id : ℤ
  guid : ℤ
  cannotPickupItem : Bool
  hasInfiniteCapacity : Bool
  capacity : ℕ
  inventory : ℕ → Option ℕ
  tile : Option ℕ
  tradeItem : Option ℕ

/-- The fields of a `Tile` that decide what may lie on it. Of a creature on the tile it matters
whether it is in ghost mode, of the flags for a floor change which tile they lead to. -/
structure Tile where
  ground : Option ℕ
  downItems : List ℕ
  topItems : List ℕ
  creatures : List Bool
  supportsHangable : Bool
  floorChange : Option ℕ

/-- The heap: `size` items have been created, `items` gives their fields. -/
structure World where
  items : ℕ → Item
  size : ℕ
  players : ℕ → Player
  tiles : ℕ → Tile

/-- What the moves read outside the world: the item types, the configuration, and whether the move
events let a player put an item on a slot. -/
structure Config where
  types : ItemTypes
  allowPutItemsOnAmmoSlot : Bool
  maxContainer : ℕ
  onPlayerEquip : ℕ → Item → ℕ → Bool

/-- The slots of an inventory, `CONST_SLOT_FIRST` to `CONST_SLOT_LAST`. -/
def slots : List ℕ := List.range' CONST_SLOT_FIRST (CONST_SLOT_LAST + 1 - CONST_SLOT_FIRST)

namespace World

variable (types : ItemTypes) (w : World)

/-! ## Updates -/

/-- Replaces the fields of an item. -/
def setItem (x : ℕ) (i : Item) : World := { w with items := Function.update w.items x i }

/-- `Item::setParent`, `Item::resetParent`. -/
def setParent (x : ℕ) (c : Option Cylinder) : World := w.setItem x { w.items x with parent := c }

/-- Replaces the items of a container. -/
def setItemlist (n : ℕ) (l : List ℕ) : World :=
  w.setItem n
    { w.items n with container := (w.items n).container.map fun k => { k with itemlist := l } }

/-- Replaces the fields of a player. -/
def setPlayer (p : ℕ) (player : Player) : World :=
  { w with players := Function.update w.players p player }

/-- Replaces the item on a slot. -/
def setSlot (p slot : ℕ) (x : Option ℕ) : World :=
  w.setPlayer p
    { w.players p with inventory := Function.update (w.players p).inventory slot x }

/-- Replaces the fields of a tile. -/
def setTile (t : ℕ) (tile : Tile) : World := { w with tiles := Function.update w.tiles t tile }

/-- Puts a new item on the heap, at the place `size`. -/
def create (i : Item) : World :=
  { w with items := Function.update w.items w.size i, size := w.size + 1 }

/-! ## Cylinders -/

/-- `getContainer`. -/
def container : Cylinder → Option Container
  | .item n => (w.items n).container
  | _ => none

/-- The items of a container; none for an item that is no container. -/
def itemlist (n : ℕ) : List ℕ := ((w.items n).container.map (·.itemlist)).getD []

/-- The items that a cylinder holds itself. -/
def contents : Cylinder → List ℕ
  | .item n => w.itemlist n
  | .player p => slots.filterMap (w.players p).inventory
  | .tile t => (w.tiles t).ground.toList ++ (w.tiles t).topItems ++ (w.tiles t).downItems

def getParent : Cylinder → Option Cylinder
  | .item n => (w.items n).parent
  | .player p => (w.players p).tile.map .tile
  | .tile _ => none

/-- The parents of a cylinder, from its own parent up. Above it are at most all items, a player and
a tile. -/
def parents (c : Cylinder) : List Cylinder := go (w.size + 2) c
where
  go : ℕ → Cylinder → List Cylinder
    | 0, _ => []
    | fuel + 1, c =>
      match w.getParent c with
      | none => []
      | some d => d :: go fuel d

/-- `Item::getTopParent`: the second last of the parents, the item itself when it is a container
with fewer than two parents, otherwise its parent. -/
def getTopParent (n : ℕ) : Option Cylinder :=
  match (w.parents (.item n)).reverse with
  | _ :: d :: _ => some d
  | l => if (w.items n).container.isSome then some (.item n) else l.head?

/-- `Container::getTopParentContainer`: from the parent up while the next parent is a container, and
then the cylinder below. -/
def getTopParentContainer (n : ℕ) : Cylinder := go (.item n) (w.parents (.item n))
where
  go (prevThing : Cylinder) : List Cylinder → Cylinder
    | thing :: next :: rest =>
      if (w.container next).isSome then go thing (next :: rest) else prevThing
    | _ => prevThing

/-- The items that a `ContainerIterator` visits: those of the container, then those of the
containers in it, level by level. -/
def iterator (n : ℕ) : List ℕ := go (w.size + 1) [n]
where
  go : ℕ → List ℕ → List ℕ
    | 0, _ => []
    | _, [] => []
    | fuel + 1, c :: cs =>
      w.itemlist c ++ go fuel (cs ++ (w.itemlist c).filter fun x => w.itemlist x ≠ [])

/-- `Container::getItemHoldingCount`. -/
def getItemHoldingCount (n : ℕ) : ℕ := (w.iterator n).length

/-- `Container::getContainerHoldingCount`. -/
def getContainerHoldingCount (n : ℕ) : ℕ :=
  (w.iterator n).countP fun x => (w.items x).container.isSome

/-- `Container::getWeight`, `Item::getWeight`. -/
def getWeight (n : ℕ) : ℕ :=
  (w.items n).getWeight types + ((w.iterator n).map fun x => (w.items x).getWeight types).sum

/-- `Player::updateInventoryWeight`. -/
def inventoryWeight (p : ℕ) : ℕ := ((w.contents (.player p)).map (w.getWeight types)).sum

/-- `Player::getFreeCapacity`. -/
def getFreeCapacity (p : ℕ) : ℕ :=
  if (w.players p).cannotPickupItem then 0
  else if (w.players p).hasInfiniteCapacity then 2 ^ 32 - 1
  else (w.players p).capacity - w.inventoryWeight types p

/-- `Item::isOwner` for a player: the owner is his id or his guid. -/
def isOwner (x : Item) (p : ℕ) : Bool :=
  x.getOwnerId = (w.players p).id ∨ x.getOwnerId = (w.players p).guid

/-! ## Indices -/

/-- An index that may be missing, as the source encodes it. -/
def toIndex (i : Option ℕ) : ℤ := i.elim (-1) fun n => n

/-- `getThingIndex`: the place of an item in a container, its slot in an inventory, its place on a
tile. -/
def getThingIndex (c : Cylinder) (x : ℕ) : ℤ :=
  match c with
  | .item n => toIndex ((w.itemlist n).idxOf? x)
  | .player p => toIndex (slots.find? fun i => (w.players p).inventory i = some x)
  | .tile t =>
    let tile := w.tiles t
    if tile.ground = some x then 0
    else
      let n : ℕ := if tile.ground.isSome then 1 else 0
      if ((w.items x).type types).alwaysOnTopOrder ≠ 0 then
        toIndex ((tile.topItems.idxOf? x).map (n + ·))
      else
        toIndex ((tile.downItems.idxOf? x).map
          (n + tile.topItems.length + tile.creatures.length + ·))

/-- `Container::getItemByIndex`, for an index that may be negative. -/
def getItemByIndex (n : ℕ) (index : ℤ) : Option ℕ :=
  if 0 ≤ index then (w.itemlist n)[index.toNat]? else none

/-- `Player::getThing`, `Player::getInventoryItem`. -/
def getInventoryItem (p : ℕ) (index : ℤ) : Option ℕ :=
  if (CONST_SLOT_FIRST : ℤ) ≤ index ∧ index ≤ CONST_SLOT_LAST then
    (w.players p).inventory index.toNat
  else none

end World

end TiabloServer.Items
