import TiabloServer.Items.World

/-!
# Adding, updating and removing things

`addThing`, `updateThing` and `removeThing` of `Container`, `Player` and `Tile`, as they change the
world. They answer nothing: a thing that does not go in is dropped without a word.

## Main definitions

* `Items.addThing`, `Items.addThingAnywhere` — the two `addThing` of a cylinder.
* `Items.updateThing`, `Items.removeThing` — the other two changes.
-/

namespace TiabloServer.Items

variable (types : ItemTypes) (w : World)

/-- `Container::addThing(index, thing)`. -/
def Container.addThing (n : ℕ) (index : ℤ) (x : ℕ) : World :=
  match (w.items n).container with
  | none => w
  | some k =>
    if index ≥ k.maxSize then w
    else (w.setParent x (some (.item n))).setItemlist n (x :: k.itemlist)

/-- `Player::addThing(index, thing)`. -/
def Player.addThing (p : ℕ) (index : ℤ) (x : ℕ) : World :=
  if index < CONST_SLOT_FIRST ∨ index > CONST_SLOT_LAST then w
  else (w.setParent x (some (.player p))).setSlot p index.toNat (some x)

/-- The lower part of `Tile::removeThing`: an item on top is taken away, of the stacks below `count`
items are. -/
def Tile.removeItem (t : ℕ) (x count : ℕ) : World :=
  let tile := w.tiles t
  if ((w.items x).type types).alwaysOnTopOrder ≠ 0 then
    if x ∈ tile.topItems then
      (w.setParent x none).setTile t
        { tile with
          topItems := tile.topItems.erase x
          supportsHangable := tile.supportsHangable || ((w.items x).type types).supportHangable }
    else w
  else if x ∈ tile.downItems then
    if (w.items x).isStackable types ∧ count ≠ (w.items x).getItemCount then
      w.setItem x ((w.items x).setItemCount ((w.items x).getItemCount - count))
    else
      (w.setParent x none).setTile t
        { tile with
          downItems := tile.downItems.erase x
          supportsHangable := tile.supportsHangable || ((w.items x).type types).supportHangable }
  else w

/-- `Tile::removeThing`. -/
def Tile.removeThing (t : ℕ) (x count : ℕ) : World :=
  let tile := w.tiles t
  if w.getThingIndex types (.tile t) x = -1 then w
  else if tile.ground = some x then
    (w.setParent x none).setTile t
      { tile with
        ground := none
        supportsHangable := tile.supportsHangable || ((w.items x).type types).supportHangable }
  else Tile.removeItem types w t x count

/-- Inserts an item before the first one on top whose order is not below its own. -/
def insertTopItem (x : ℕ) (topItems : List ℕ) : List ℕ :=
  let order (y : ℕ) := ((w.items y).type types).alwaysOnTopOrder
  topItems.takeWhile (order · < order x) ++ x :: topItems.dropWhile (order · < order x)

/-- The splash or the magic field in whose place a new one is put. -/
def replacedItem (tile : Tile) (x : ℕ) : Option ℕ :=
  let it := (w.items x).type types
  if it.alwaysOnTopOrder ≠ 0 then
    if it.group = .ITEM_GROUP_SPLASH then
      tile.topItems.find? fun y => ((w.items y).type types).group = .ITEM_GROUP_SPLASH
    else none
  else if it.type = .ITEM_TYPE_MAGICFIELD then
    tile.downItems.find? fun y => ((w.items y).type types).type = .ITEM_TYPE_MAGICFIELD
  else none

/-- `Tile::addThing`, once the ground is not concerned and nothing is to be replaced any more. -/
def Tile.insertItem (t : ℕ) (x : ℕ) : World :=
  let tile := w.tiles t
  let supportsHangable := tile.supportsHangable || ((w.items x).type types).supportHangable
  if ((w.items x).type types).alwaysOnTopOrder ≠ 0 then
    w.setTile t { tile with topItems := insertTopItem types w x tile.topItems, supportsHangable }
  else
    w.setTile t { tile with downItems := x :: tile.downItems, supportsHangable }

/-- `Tile::addThing`. A ground takes the place of the old one, a splash of the first splash and a
magic field of the first magic field, unless that is one that stays: then the new field is
dropped. -/
def Tile.addThing (t : ℕ) (x : ℕ) : World :=
  let tile := w.tiles t
  let it := (w.items x).type types
  if tile.downItems.length + tile.topItems.length ≥ 0xFFFF then w
  else if it.group = .ITEM_GROUP_GROUND then
    match tile.ground with
    | none =>
      (w.setParent x (some (.tile t))).setTile t
        { tile with
          ground := some x
          supportsHangable := tile.supportsHangable || it.supportHangable }
    | some old =>
      ((w.setParent x (some (.tile t))).setParent old none).setTile t
        { tile with
          ground := some x
          supportsHangable := tile.supportsHangable || ((w.items old).type types).supportHangable ||
            it.supportHangable }
  else
    match replacedItem types w tile x with
    | none => Tile.insertItem types (w.setParent x (some (.tile t))) t x
    | some old =>
      if it.alwaysOnTopOrder = 0 ∧ ¬ ((w.items old).type types).replaceable then
        w.setParent x none
      else
        let w := (Tile.removeThing types (w.setParent x (some (.tile t))) t old 1).setParent old none
        Tile.insertItem types w t x

/-- `addThing(index, thing)`. -/
def addThing (c : Cylinder) (index : ℤ) (x : ℕ) : World :=
  match c with
  | .item n => Container.addThing w n index x
  | .player p => Player.addThing w p index x
  | .tile t => Tile.addThing types w t x

/-- `addThing(thing)`, which does nothing for a player. -/
def addThingAnywhere (c : Cylinder) (x : ℕ) : World :=
  match c with
  | .item n => Container.addThing w n 0 x
  | .player _ => w
  | .tile t => Tile.addThing types w t x

def updateThing (c : Cylinder) (x id count : ℕ) : World :=
  if w.getThingIndex types c x = -1 then w
  else
    let w' := w.setItem x ({ w.items x with id := id }.setSubType types count)
    match c with
    | .tile t =>
      w'.setTile t
        { w.tiles t with
          supportsHangable := (w.tiles t).supportsHangable ||
            ((w.items x).type types).supportHangable || (types id).supportHangable }
    | _ => w'

/-- `removeThing`: of a stack `count` items are taken, anything else is taken away. -/
def removeThing (c : Cylinder) (x count : ℕ) : World :=
  match c with
  | .tile t => Tile.removeThing types w t x count
  | .item n =>
    if w.getThingIndex types (.item n) x = -1 then w
    else if (w.items x).isStackable types ∧ count ≠ (w.items x).getItemCount then
      w.setItem x ((w.items x).setItemCount ((w.items x).getItemCount - count))
    else (w.setParent x none).setItemlist n ((w.itemlist n).erase x)
  | .player p =>
    let index := w.getThingIndex types (.player p) x
    if index = -1 then w
    else if (w.items x).isStackable types ∧ count ≠ (w.items x).getItemCount then
      w.setItem x ((w.items x).setItemCount ((w.items x).getItemCount - count))
    else (w.setParent x none).setSlot p index.toNat none

end TiabloServer.Items
