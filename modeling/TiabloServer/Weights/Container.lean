import TiabloServer.Items.Types
import TiabloServer.Lib.Forest

/-!
# The weight that containers keep

`Container::totalWeight` and the operations of `items/containers/container.cpp` that change it or
the items of a container, with `Item::getWeight` (`items/item.cpp`). Weights are `uint32_t`; a
difference of weights is an `int32_t` in the source and is added with the same bits here.

The parent of an item is the container it lies in; tiles and players keep no weight. The `getParent`
of an `Inbox` and of a `DepotChest` skip the locker they lie in (`inbox.cpp`, `depotchest.cpp`).

## Main definitions

* `Weights.updateItemWeight` — the change of a container's total and of those above it.
* `Weights.Op`, `Weights.step` — the operations.
-/

namespace TiabloServer.Weights

open Items (ItemTypes createdId)

/-! ## Items and containers -/

/-- The classes of containers, by how their `getParent` answers. -/
inductive ContainerKind where
  | container
  | inbox
  | depotChest
deriving DecidableEq

/-- The fields of a `Container`; its items are given by their places in the heap. -/
structure Container where
  kind : ContainerKind
  maxSize : ℕ
  itemlist : List ℕ
  totalWeight : UInt32
deriving DecidableEq

/-- The fields of an `Item` that its weight depends on: `weight` is the attribute `WEIGHT`. -/
structure Item where
  id : ℕ
  count : UInt8
  weight : Option UInt32
  parent : Option ℕ
  container : Option Container
deriving DecidableEq

/-- The heap: `size` items have been created, `items` gives their fields. -/
structure Heap where
  items : ℕ → Item
  size : ℕ

section Items

variable (types : ItemTypes) (i : Item)

/-- `Item::getBaseWeight`. -/
def Item.getBaseWeight : UInt32 := i.weight.getD (UInt32.ofNat (types i.id).weight)

/-- `Item::getWeight`. -/
def Item.getWeight : UInt32 :=
  if (types i.id).stackable then i.getBaseWeight types * max 1 (UInt32.ofNat i.count.toNat)
  else i.getBaseWeight types

/-- Whether `setSubType` sets the count: a fluid and charges are attributes of their own. -/
def Item.countsSubType : Bool :=
  let it := types i.id
  if it.group = .ITEM_GROUP_FLUID ∨ it.group = .ITEM_GROUP_SPLASH then false
  else it.stackable || it.charges == 0

/-- `Item::setSubType`. -/
def Item.setSubType (n : UInt32) : Item :=
  if i.countsSubType types then { i with count := n.toUInt8 } else i

/-- The count of an item that `Item::Item` makes. -/
def newCount (id : ℕ) (count : UInt8) : UInt8 :=
  let it := types id
  if it.group = .ITEM_GROUP_FLUID ∨ it.group = .ITEM_GROUP_SPLASH then 1
  else if it.stackable then
    if count ≠ 0 then count else if it.charges ≠ 0 then UInt8.ofNat it.charges else 1
  else 1

def ITEM_GOLD_POUCH : ℕ := 23721
def ITEM_STORE_INBOX : ℕ := 23396

/-- The capacity of the container that `Item::CreateItem` makes of an id. -/
def createdSize (id : ℕ) : ℕ :=
  if (types id).type = .ITEM_TYPE_DEPOT then 4
  else if (types id).type = .ITEM_TYPE_REWARDCHEST then 32
  else if id = ITEM_GOLD_POUCH ∨ id = ITEM_STORE_INBOX then 32
  else (types id).maxItems

/-- `Item::clone`, without what a container holds: a new item with the attributes of the old one. -/
def Item.clone : Item where
  id := createdId types i.id
  count := newCount types (createdId types i.id)
    (if (types i.id).stackable ∧ i.count = 0 then 1 else i.count)
  weight := i.weight
  parent := none
  container := i.container.map fun _ => ⟨.container, createdSize types i.id, [], 0⟩

end Items

namespace Heap

variable (types : ItemTypes) (h : Heap)

/-- The container an item lies in. -/
def parent (n : ℕ) : Option ℕ := (h.items n).parent

/-- The class of a container. -/
def kind (n : ℕ) : ContainerKind := ((h.items n).container.map (·.kind)).getD .container

/-- The items of a container; none for an item that is no container. -/
def itemlist (n : ℕ) : List ℕ := ((h.items n).container.map (·.itemlist)).getD []

/-- The weight that a container keeps; 0 for an item that is no container. -/
def totalWeight (n : ℕ) : UInt32 := ((h.items n).container.map (·.totalWeight)).getD 0

/-- The weight of an item without what it holds. -/
def itemWeight (n : ℕ) : UInt32 := (h.items n).getWeight types

/-- `Item::getWeight`, `Container::getWeight`. -/
def getWeight (n : ℕ) : UInt32 := h.itemWeight types n + h.totalWeight n

/-- Replaces the fields of an item. -/
def setItem (n : ℕ) (i : Item) : Heap := { h with items := Function.update h.items n i }

/-- `setParent`, `resetParent`. -/
def setParent (n : ℕ) (p : Option ℕ) : Heap := h.setItem n { h.items n with parent := p }

/-- Replaces the fields of a container. -/
def mapContainer (n : ℕ) (f : Container → Container) : Heap :=
  h.setItem n { h.items n with container := (h.items n).container.map f }

/-- Replaces the items of a container. -/
def setItemlist (n : ℕ) (l : List ℕ) : Heap := h.mapContainer n fun k => { k with itemlist := l }

/-- `totalWeight += diff`. -/
def addTotal (n : ℕ) (diff : UInt32) : Heap :=
  h.mapContainer n fun k => { k with totalWeight := k.totalWeight + diff }

/-- Puts a new item on the heap, at the place `size`. -/
def create (i : Item) : Heap :=
  { items := Function.update h.items h.size i, size := h.size + 1 }

/-- `getParent`: an inbox answers with the parent of its parent, a depot chest with the next one. -/
def getParent : ℕ → ℕ → Option ℕ
  | 0, _ => none
  | fuel + 1, n =>
    match h.kind n with
    | .container => h.parent n
    | .inbox => (h.parent n).bind (getParent fuel)
    | .depotChest => (h.parent n).bind fun l => (getParent fuel l).bind (getParent fuel)

/-- `Container::getParentContainer`. -/
def getParentContainer (n : ℕ) : Option ℕ := h.getParent (h.size + 1) n

end Heap

/-! ## Changing weights -/

/-- The loop of `updateItemWeight`, at most `fuel` times. -/
def addToParents (diff : UInt32) : ℕ → Heap → ℕ → Heap
  | 0, h, _ => h
  | fuel + 1, h, n =>
    match h.getParentContainer n with
    | none => h
    | some p => addToParents diff fuel (h.addTotal p diff) p

/-- `Container::updateItemWeight`. -/
def updateItemWeight (h : Heap) (n : ℕ) (diff : UInt32) : Heap :=
  addToParents diff h.size (h.addTotal n diff) n

section Operations

variable (types : ItemTypes) (h : Heap)

/-- `Container::addItem`. -/
def addItem (n x : ℕ) : Heap := (h.setItemlist n (h.itemlist n ++ [x])).setParent x (some n)

/-- The common part of `addThing` and `internalAddThing`. -/
def pushFront (n x : ℕ) : Heap :=
  let h := (h.setParent x (some n)).setItemlist n (x :: h.itemlist n)
  updateItemWeight h n (h.getWeight types x)

/-- `Container::addThing`. -/
def addThing (n : ℕ) (index : ℤ) (x : ℕ) : Heap :=
  match (h.items n).container with
  | none => h
  | some k => if index ≥ k.maxSize then h else pushFront types h n x

/-- `Container::internalAddThing`. -/
def internalAddThing (n x : ℕ) : Heap :=
  if (h.items n).container.isSome then pushFront types h n x else h

/-- `Container::addItemBack`. -/
def addItemBack (n x : ℕ) : Heap :=
  if (h.items n).container.isSome then
    let h := addItem h n x
    updateItemWeight h n (h.getWeight types x)
  else h

/-- `Container::updateThing`. -/
def updateThing (n x itemId : ℕ) (count : UInt32) : Heap :=
  if x ∈ h.itemlist n then
    let oldWeight := h.getWeight types x
    let h := h.setItem x ({ h.items x with id := itemId }.setSubType types count)
    updateItemWeight h n (-oldWeight + h.getWeight types x)
  else h

/-- `Container::replaceThing`. -/
def replaceThing (n index x : ℕ) : Heap :=
  match (h.itemlist n)[index]? with
  | none => h
  | some replacedItem =>
    let h := (h.setItemlist n ((h.itemlist n).set index x)).setParent x (some n)
    let h := updateItemWeight h n (-h.getWeight types replacedItem + h.getWeight types x)
    h.setParent replacedItem none

/-- The count that `removeThing` leaves of a stack. -/
def remainingCount (itemCount : UInt8) (count : UInt32) : UInt8 :=
  let left := UInt32.ofNat itemCount.toNat - count
  if left.toInt32 < 0 then 0 else left.toUInt8

/-- `Container::removeThing`. -/
def removeThing (n x : ℕ) (count : UInt32) : Heap :=
  let item := h.items x
  if x ∉ h.itemlist n then h
  else if (types item.id).stackable ∧ count ≠ UInt32.ofNat item.count.toNat then
    let oldWeight := h.getWeight types x
    let h := h.setItem x { item with count := remainingCount item.count count }
    updateItemWeight h n (-oldWeight + h.getWeight types x)
  else
    let h := updateItemWeight h n (-h.getWeight types x)
    let h := h.setParent x none
    h.setItemlist n ((h.itemlist n).erase x)

/-- `Container::removeItem`, which leaves the weight as it is. -/
def removeItem (n x : ℕ) : Heap :=
  if x ∈ h.itemlist n then (h.setItemlist n ((h.itemlist n).erase x)).setParent x none else h

/-! ## Cloning and loading -/

/-- `Item::clone`, `Container::clone`: the new heap and the clone. -/
def clone : ℕ → Heap → ℕ → Heap × ℕ
  | 0, h, _ => (h, h.size)
  | fuel + 1, h, n =>
    let m := h.size
    let cloned := h.create ((h.items n).clone types)
    let filled := (h.itemlist n).foldl (fun h x =>
      let (h, y) := clone fuel h x
      addItem h m y) cloned
    (filled.mapContainer m fun k => { k with totalWeight := h.totalWeight n }, m)

/-- What the loader reads of a node: whether it is an item with an id, what `Item::CreateItem` makes
of the id (with the class and the capacity of a container) and the count and the weight that
`Item::unserializeAttr` reads. -/
structure NodeData where
  isItem : Bool
  created : Option (ℕ × Option (ContainerKind × ℕ))
  attributes : Option (UInt8 × Option UInt32)

/-- `OTB::Node`. -/
inductive Node where
  | node (data : NodeData) (children : List Node)

/-- An item that `Item::CreateItem` makes. -/
def newItem (id : ℕ) (count : UInt8) (weight : Option UInt32)
    (container : Option (ContainerKind × ℕ)) : Item where
  id
  count
  weight
  parent := none
  container := container.map fun k => ⟨k.1, k.2, [], 0⟩

mutual

/-- `Item::CreateItem` and the `unserializeItemNode` of the item, if both succeed. -/
def loadNode : Node → Heap → Heap × Option ℕ
  | .node data children, h =>
    match data.created with
    | none => (h, none)
    | some (id, container) =>
      let n := h.size
      match data.attributes with
      | none => (h.create (newItem id 1 none container), none)
      | some (count, weight) =>
        let h := h.create (newItem id count weight container)
        if container.isSome then
          match loadChildren children n h with
          | (h, true) => (h, some n)
          | (h, false) => (h, none)
        else (h, some n)

/-- The loop of `Container::unserializeItemNode` over the nodes in that of the container `n`. -/
def loadChildren : List Node → ℕ → Heap → Heap × Bool
  | [], _, h => (h, true)
  | .node data below :: children, n, h =>
    if data.isItem then
      match loadNode (.node data below) h with
      | (h, none) => loadChildren children n h
      | (h, some x) =>
        let h := addItem h n x
        loadChildren children n (updateItemWeight h n (h.getWeight types x))
    else (h, false)

end

/-! ## Steps -/

/-- The operations, with the creation of items. -/
inductive Op where
  | createItem (id : ℕ) (count : UInt8) (weight : Option UInt32)
    (container : Option (ContainerKind × ℕ))
  | addThing (n : ℕ) (index : ℤ) (x : ℕ)
  | addItemBack (n x : ℕ)
  | updateThing (n x itemId : ℕ) (count : UInt32)
  | replaceThing (n index x : ℕ)
  | removeThing (n x : ℕ) (count : UInt32)
  | internalAddThing (n x : ℕ)
  | removeItem (n x : ℕ)
  | clone (n : ℕ)
  | unserializeItemNode (node : Node)

/-- The heap after an operation. -/
def step (h : Heap) : Op → Heap
  | .createItem id count weight container => h.create (newItem id count weight container)
  | .addThing n index x => Weights.addThing types h n index x
  | .addItemBack n x => Weights.addItemBack types h n x
  | .updateThing n x itemId count => Weights.updateThing types h n x itemId count
  | .replaceThing n index x => Weights.replaceThing types h n index x
  | .removeThing n x count => Weights.removeThing types h n x count
  | .internalAddThing n x => Weights.internalAddThing types h n x
  | .removeItem n x => Weights.removeItem h n x
  | .clone n => (Weights.clone types (h.size + 1) h n).1
  | .unserializeItemNode node => (loadNode types node h).1

end Operations

end TiabloServer.Weights
