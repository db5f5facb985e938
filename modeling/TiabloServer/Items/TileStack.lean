import TiabloServer.Items.Types
import TiabloServer.Lib.Runs

/-!
# The stack of a tile

A tile (`items/tile.cpp`) has a ground, a vector of items and a vector of creatures. The vector of
items has the items that are not always on top first, as many as a counter says, and behind them
those that are, in the order of their types. The things of a tile are numbered from the ground up:
the items on top, the creatures, the other items.

## Main definitions

* `TileStack.Well` — the invariant: the vector is split and sorted, and nothing is on the tile
  twice.
* `TileStack.Fitting` — the steps that keep it so.

## Main results

* `TileStack.Well.stacked` — things and numbers agree where the invariant holds.
* `TileStack.well_step` — a fitting step keeps it so.
* `TileStack.run_stacked` — a tile is stacked in every state of a run of fitting steps.
-/

namespace TiabloServer.TileStack

open TiabloServer.Items (ItemType ItemTypes Item createdId)

/-! ## Items -/

/-- The configuration: the types of items, and what `Item::CreateItem` makes. -/
structure Rules where
  types : ItemTypes
  /-- The type is one of `Item::items`: its id there is not 0. -/
  registered : ℕ → Bool
  /-- The number in `ItemTypes_t`. -/
  typeNumber : ℕ → ℕ
  decayTo : ℕ → ℤ
  create : ℕ → ℕ → Item
  create_id : ∀ id count, (create id count).id = createdId types id

/-- `ItemType::hasSubType`. -/
def hasSubType (it : ItemType) : Bool :=
  it.group = .ITEM_GROUP_FLUID ∨ it.group = .ITEM_GROUP_SPLASH ∨ it.stackable ∨ it.charges ≠ 0

/-- `Item::getSubType`. -/
def getSubType (types : ItemTypes) (x : Item) : ℕ :=
  let it := x.type types
  if it.group = .ITEM_GROUP_FLUID ∨ it.group = .ITEM_GROUP_SPLASH then
    (x.getAttribute .FLUIDTYPE % 0x10000).toNat
  else if it.stackable then x.getItemCount
  else if it.charges ≠ 0 then (x.getAttribute .CHARGES % 0x10000).toNat
  else x.getItemCount

/-- `Item::setDefaultSubtype`. -/
def setDefaultSubtype (types : ItemTypes) (x : Item) : Item :=
  let it := x.type types
  let x := x.setItemCount 1
  if it.charges = 0 then x
  else if it.stackable then x.setItemCount it.charges
  else x.setAttribute .CHARGES (.integer it.charges)

theorem id_setSubType (types : ItemTypes) (x : Item) (n : ℕ) : (x.setSubType types n).id = x.id := by
  rw [Item.setSubType]
  split_ifs <;> rfl

/-! ## Tiles -/

/-- A thing on a tile. -/
inductive Thing where
  | item (n : ℕ)
  | creature (n : ℕ)
deriving DecidableEq

/-- A tile, with the fields of all items; of an item it matters too whether its object is a magic
field, and whether it can be transformed. -/
structure Tile where
  info : ℕ → Item
  isField : ℕ → Bool
  canTransform : ℕ → Bool
  ground : Option ℕ
  items : List ℕ
  downItemCount : ℕ
  creatures : List ℕ

section Operations

variable (rules : Rules) (t : Tile)

namespace Tile

/-- The type of an item. -/
def type (x : ℕ) : ItemType := (t.info x).type rules.types

/-- The `alwaysOnTopOrder` of an item. -/
def order (x : ℕ) : ℕ := (t.type rules x).alwaysOnTopOrder

/-- `Item::isAlwaysOnTop`. -/
def isAlwaysOnTop (x : ℕ) : Bool := t.order rules x != 0

/-- The items from `getBeginTopItem` on. -/
def topItems : List ℕ := t.items.drop t.downItemCount

/-- The items before `getEndDownItem`. -/
def downItems : List ℕ := t.items.take t.downItemCount

/-- Replaces the fields of an item. -/
def setItem (x : ℕ) (item : Item) : Tile := { t with info := Function.update t.info x item }

end Tile

/-- `Tile::getThing`. -/
def getThing (index : ℕ) : Option Thing :=
  let above (index : ℕ) : Option Thing :=
    if index < t.topItems.length then t.topItems[index]?.map Thing.item
    else
      let index := index - t.topItems.length
      if index < t.creatures.length then t.creatures[index]?.map Thing.creature
      else t.downItems[index - t.creatures.length]?.map Thing.item
  match t.ground with
  | none => above index
  | some ground => if index = 0 then some (.item ground) else above (index - 1)

/-- `Tile::getThingCount`. -/
def getThingCount : ℕ := t.ground.toList.length + t.items.length + t.creatures.length

/-- `Tile::getThingIndex`, or none for -1. -/
def getThingIndex (thing : Thing) : Option ℕ :=
  let start := t.ground.toList.length
  match thing with
  | .item x =>
    if t.ground = some x then some 0
    else if t.isAlwaysOnTop rules x then (t.topItems.idxOf? x).map fun i => i + start
    else (t.downItems.idxOf? x).map fun i => i + t.creatures.length + t.topItems.length + start
  | .creature c => (t.creatures.idxOf? c).map fun i => i + t.topItems.length + start

/-- `Tile::removeThing`, of an item that has an index. -/
def removeItem (x count : ℕ) : Tile :=
  if t.ground = some x then { t with ground := none }
  else if t.isAlwaysOnTop rules x then
    if x ∈ t.topItems then { t with items := t.downItems ++ t.topItems.erase x } else t
  else if x ∈ t.downItems then
    if (t.type rules x).stackable ∧ count ≠ (t.info x).getItemCount then
      t.setItem x ((t.info x).setItemCount ((t.info x).getItemCount - count))
    else { t with items := t.downItems.erase x ++ t.topItems, downItemCount := t.downItemCount - 1 }
  else t

/-- `Tile::removeThing`. -/
def removeThing (thing : Thing) (count : ℕ) : Tile :=
  match thing with
  | .creature c => { t with creatures := t.creatures.erase c }
  | .item x => if getThingIndex rules t (.item x) = none then t else removeItem rules t x count

/-- Inserts an item on top before the first one that does not satisfy `above`, or behind all. -/
def insertTop (above : ℕ → Bool) (x : ℕ) : Tile :=
  { t with items := t.downItems ++ (t.topItems.takeWhile above ++ x :: t.topItems.dropWhile above) }

/-- Inserts an item before the other items. -/
def insertDown (x : ℕ) : Tile :=
  { t with items := x :: t.items, downItemCount := t.downItemCount + 1 }

/-- The first splash is removed, if there is one. -/
def removeSplash : Tile :=
  match t.topItems.find? fun y => (t.type rules y).group = .ITEM_GROUP_SPLASH with
  | none => t
  | some oldSplash => removeThing rules t (.item oldSplash) 1

/-- `Tile::addThing`. A thing that does not go in is dropped. -/
def addThing (thing : Thing) : Tile :=
  match thing with
  | .creature c => { t with creatures := c :: t.creatures }
  | .item x =>
    if t.items.length ≥ 0xFFFF then t
    else if (t.type rules x).group = .ITEM_GROUP_GROUND then { t with ground := some x }
    else if t.isAlwaysOnTop rules x then
      let t := if (t.type rules x).group = .ITEM_GROUP_SPLASH then removeSplash rules t else t
      insertTop t (fun y => t.order rules y < t.order rules x) x
    else if (t.type rules x).type = .ITEM_TYPE_MAGICFIELD then
      match t.downItems.find? t.isField with
      | none => insertDown t x
      | some oldField =>
        if (t.type rules oldField).replaceable then
          insertDown (removeThing rules t (.item oldField) 1) x
        else t
    else insertDown t x

/-- `Tile::internalAddThing`, by which the map is loaded. An item goes behind those of its order. -/
def internalAddThing (thing : Thing) : Tile :=
  match thing with
  | .creature c => { t with creatures := c :: t.creatures }
  | .item x =>
    if (t.type rules x).group = .ITEM_GROUP_GROUND then
      if t.ground = none then { t with ground := some x } else t
    else if t.items.length ≥ 0xFFFF then t
    else if t.isAlwaysOnTop rules x then
      insertTop t (fun y => t.order rules y ≤ t.order rules x) x
    else insertDown t x

/-- `Tile::updateThing`, of an item. -/
def updateThing (x itemId count : ℕ) : Tile :=
  if getThingIndex rules t (.item x) = none then t
  else t.setItem x ({ t.info x with id := itemId }.setSubType rules.types (count % 0x10000))

/-- `Tile::replaceThing`, with another item. -/
def replaceThing (index x : ℕ) : Tile :=
  let above (pos : ℕ) : Tile :=
    if pos < t.topItems.length then { t with items := t.downItems ++ t.topItems.set pos x }
    else
      let pos := pos - t.topItems.length
      if pos < t.creatures.length then t
      else
        let pos := pos - t.creatures.length
        if pos < t.downItems.length then { t with items := t.downItems.set pos x ++ t.topItems } else t
  match t.ground with
  | none => above index
  | some _ => if index = 0 then { t with ground := some x } else above (index - 1)

/-- `Item::transform`: the new item `fresh` takes the place of an item. The id has to be registered:
of another `Item::CreateItem` makes nothing, which the code does not expect. -/
def transform (x itemId itemCount fresh : ℕ) : Tile :=
  match getThingIndex rules t (.item x) with
  | none => t
  | some index => replaceThing (t.setItem fresh (rules.create itemId itemCount)) index fresh

/-! ## Transformations -/

/-- What `Game::transformItem` does with an item. -/
inductive Change where
  /-- The item stays as it is. -/
  | unchanged
  /-- The item is taken from the tile, gets the new id and is added again. -/
  | moved
  /-- The item is taken from the game by `internalRemoveItem`. -/
  | removed
  /-- The item gets an id and a subtype by `updateThing`. -/
  | updated (itemId count : ℕ)
  /-- A new item of an id takes its place by `Item::transform`. -/
  | replaced (itemId itemCount : ℕ)
deriving DecidableEq

/-- The conversion to `uint16_t`. -/
def toUInt16 (n : ℤ) : ℕ := (n % 0x10000).toNat

/-- The decisions of `Game::transformItem`. -/
def change (x newId : ℕ) (newCount : ℤ) : Change :=
  let item := t.info x
  let newType := rules.types newId
  let curType := t.type rules x
  if item.id = newId ∧
      (newCount = -1 ∨ newCount = getSubType rules.types item ∧ newCount ≠ 0) then .unchanged
  else if getThingIndex rules t (.item x) = none then .unchanged
  else if !t.canTransform x then .unchanged
  else if !rules.registered newId then .unchanged
  else if t.isAlwaysOnTop rules x ≠ (newType.alwaysOnTopOrder != 0) then .moved
  else if rules.typeNumber item.id = rules.typeNumber newId then
    if newCount = 0 ∧ (curType.stackable ∨ (item.attributes.lookup .CHARGES).isSome) then
      if curType.stackable then .removed
      else
        let newItemId : ℤ := if item.id = newId then rules.decayTo item.id else newId
        if newItemId < 0 then .removed
        else if newItemId ≠ newId then .replaced newItemId.toNat (toUInt16 (-1))
        -- `transformItem(item, newItemId)`, which leaves an item of that id as it is
        else if item.id = newId then .unchanged
        else .updated newId (getSubType rules.types item)
    else
      .updated newId
        (if newCount ≠ -1 ∧ hasSubType newType then toUInt16 newCount else getSubType rules.types item)
  else .replaced newId (toUInt16 newCount)

/-- `Game::internalRemoveItem`; `removable` is what `canRemove` and the check for items of the map
say. -/
def internalRemoveItem (x : ℕ) (removable : Bool) : Tile :=
  if (t.info x).getItemCount = 0 ∨ !removable then t
  else removeThing rules t (.item x) (t.info x).getItemCount

/-- `Game::transformItem`, of an item of the tile. -/
def transformItem (x newId : ℕ) (newCount : ℤ) (removable : Bool) (fresh : ℕ) : Tile :=
  match change rules t x newId newCount with
  | .unchanged => t
  | .moved =>
    let t := removeThing rules t (.item x) (t.info x).getItemCount
    let item := { t.info x with id := newId }
    let item := if newCount = -1 then item else item.setSubType rules.types (toUInt16 newCount)
    addThing rules (t.setItem x item) (.item x)
  | .removed => internalRemoveItem rules t x removable
  | .updated itemId count =>
    let item := if (t.info x).id ≠ newId ∧ (rules.types newId).group ≠ (t.type rules x).group then
        setDefaultSubtype rules.types (t.info x)
      else t.info x
    updateThing rules (t.setItem x item) x itemId count
  | .replaced itemId itemCount => transform rules t x itemId itemCount fresh

/-! ## Runs -/

/-- The operations on a tile. -/
inductive Step where
  | addThing (thing : Thing)
  | internalAddThing (thing : Thing)
  | removeThing (thing : Thing) (count : ℕ)
  | transformItem (x newId : ℕ) (newCount : ℤ) (removable : Bool) (fresh : ℕ)
  | transform (x itemId itemCount fresh : ℕ)

def step : Step → Tile
  | .addThing thing => addThing rules t thing
  | .internalAddThing thing => internalAddThing rules t thing
  | .removeThing thing count => removeThing rules t thing count
  | .transformItem x newId newCount removable fresh => transformItem rules t x newId newCount removable fresh
  | .transform x itemId itemCount fresh => transform rules t x itemId itemCount fresh

/-- A tile without things. -/
def empty (info : ℕ → Item) (isField canTransform : ℕ → Bool) : Tile :=
  ⟨info, isField, canTransform, none, [], 0, []⟩

end Operations

/-! ## The invariant -/

section Invariant

variable (rules : Rules) (t : Tile)

/-- A thing is on the tile. -/
def Tile.Has : Thing → Prop
  | .item x => t.ground = some x ∨ x ∈ t.items
  | .creature c => c ∈ t.creatures

/-- The things of the tile, from the ground up. -/
def Tile.things : List Thing :=
  t.ground.toList.map .item ++ t.topItems.map .item ++ t.creatures.map .creature ++
    t.downItems.map .item

/-- **Stacked tiles.** The vector of items has as many items that are not always on top as the
counter says, and behind them those that are, in the order of their types. The number of a thing on
the tile leads to the thing, and the thing of a number has the number. -/
structure Stacked : Prop where
  count : t.downItemCount ≤ t.items.length
  down : ∀ x ∈ t.downItems, t.isAlwaysOnTop rules x = false
  top : ∀ x ∈ t.topItems, t.isAlwaysOnTop rules x = true
  sorted : t.topItems.Pairwise fun a b => t.order rules a ≤ t.order rules b
  getThing_getThingIndex : ∀ thing, t.Has thing →
    ∃ i, getThingIndex rules t thing = some i ∧ getThing t i = some thing
  getThingIndex_getThing : ∀ i < getThingCount t,
    ∃ thing, getThing t i = some thing ∧ getThingIndex rules t thing = some i

/-- What the operations keep: the vector is split and sorted, and nothing is on the tile twice. -/
structure Well : Prop where
  count : t.downItemCount ≤ t.items.length
  down : ∀ x ∈ t.downItems, t.isAlwaysOnTop rules x = false
  top : ∀ x ∈ t.topItems, t.isAlwaysOnTop rules x = true
  sorted : t.topItems.Pairwise fun a b => t.order rules a ≤ t.order rules b
  nodup : (t.ground.toList ++ t.items).Nodup
  creatures : t.creatures.Nodup

end Invariant

/-! ## Numbers of things -/

section Numbers

variable {rules : Rules} {t : Tile}

theorem downItems_append_topItems (t : Tile) : t.downItems ++ t.topItems = t.items :=
  List.take_append_drop _ _

theorem mem_items {x : ℕ} : x ∈ t.items ↔ x ∈ t.downItems ∨ x ∈ t.topItems := by
  rw [← downItems_append_topItems t, List.mem_append]

/-- A number tells a place in the list of things. -/
theorem getThing_eq (t : Tile) (i : ℕ) : getThing t i = t.things[i]? := by
  have habove : ∀ i, (if i < t.topItems.length then t.topItems[i]?.map Thing.item
      else if i - t.topItems.length < t.creatures.length then
        t.creatures[i - t.topItems.length]?.map Thing.creature
      else t.downItems[i - t.topItems.length - t.creatures.length]?.map Thing.item) =
      (t.topItems.map Thing.item ++ t.creatures.map Thing.creature ++ t.downItems.map Thing.item)[i]? := by
    intro i
    rw [List.append_assoc]
    split_ifs with htop hcreature
    · rw [List.getElem?_append_left (by simpa using htop), List.getElem?_map]
    · rw [List.getElem?_append_right (by simpa using htop), List.length_map,
        List.getElem?_append_left (by simpa using hcreature), List.getElem?_map]
    · rw [List.getElem?_append_right (by simpa using htop), List.length_map,
        List.getElem?_append_right (by simpa using hcreature), List.length_map, List.getElem?_map]
  rw [getThing, Tile.things]
  cases hground : t.ground with
  | none => simpa using habove i
  | some ground =>
    cases i with
    | zero => simp
    | succ i => simpa using habove i

theorem length_things (t : Tile) : t.things.length = getThingCount t := by
  have hitems : t.downItems.length + t.topItems.length = t.items.length := by
    rw [← List.length_append, downItems_append_topItems]
  rw [Tile.things, getThingCount]
  simp only [List.length_append, List.length_map]
  omega

theorem mem_things {thing : Thing} : thing ∈ t.things ↔ t.Has thing := by
  cases thing with
  | item x => simp [Tile.things, Tile.Has, mem_items, or_comm]
  | creature c => simp [Tile.things, Tile.Has]

theorem Well.not_mem_of_ground (h : Well rules t) {x : ℕ} (hground : t.ground = some x) : x ∉ t.items := by
  have hnodup := h.nodup
  rw [hground] at hnodup
  exact (List.nodup_cons.1 hnodup).1

theorem Well.nodup_items (h : Well rules t) : t.items.Nodup := (List.nodup_append.1 h.nodup).2.1

theorem Well.nodup_things (h : Well rules t) : t.things.Nodup := by
  have hitem : Function.Injective Thing.item := fun a b hab => Thing.item.inj hab
  have hcreature : Function.Injective Thing.creature := fun a b hab => Thing.creature.inj hab
  have hnodup : (t.ground.toList ++ (t.downItems ++ t.topItems)).Nodup := by
    rw [downItems_append_topItems]
    exact h.nodup
  have hperm : t.things.Perm
      ((t.ground.toList ++ (t.downItems ++ t.topItems)).map Thing.item ++
        t.creatures.map Thing.creature) := by
    refine List.perm_iff_count.2 fun thing => ?_
    simp only [Tile.things, List.map_append, List.count_append]
    omega
  rw [hperm.nodup_iff, List.nodup_append]
  refine ⟨hnodup.map hitem, h.creatures.map hcreature, fun a ha b hb => ?_⟩
  obtain ⟨x, -, rfl⟩ := List.mem_map.1 ha
  obtain ⟨c, -, rfl⟩ := List.mem_map.1 hb
  exact Thing.noConfusion

theorem exists_idxOf? {l : List ℕ} {x : ℕ} (hx : x ∈ l) : ∃ i, l.idxOf? x = some i ∧ l[i]? = some x := by
  obtain ⟨i, hi⟩ := Option.isSome_iff_exists.1 (List.isSome_idxOf?.2 hx)
  obtain ⟨hlt, hget, -⟩ := List.idxOf?_eq_some_iff.1 hi
  exact ⟨i, hi, by rw [List.getElem?_eq_getElem hlt, hget]⟩

theorem things_eq (t : Tile) : t.things = t.ground.toList.map .item ++ (t.topItems.map .item ++
    (t.creatures.map .creature ++ t.downItems.map .item)) := by
  rw [Tile.things, List.append_assoc, List.append_assoc]

/-- A thing on the tile has a number, that of its place in the list of things. -/
theorem Well.getElem?_getThingIndex (h : Well rules t) {thing : Thing} (hthing : t.Has thing) :
    ∃ i, getThingIndex rules t thing = some i ∧ t.things[i]? = some thing := by
  have hground : (t.ground.toList.map Thing.item).length = t.ground.toList.length := List.length_map ..
  cases thing with
  | creature c =>
    obtain ⟨i, hi, hget⟩ := exists_idxOf? hthing
    refine ⟨_, by rw [getThingIndex, hi, Option.map_some], ?_⟩
    have hlt := (List.getElem?_eq_some_iff.1 hget).1
    rw [things_eq, List.getElem?_append_right (by simp), hground, Nat.add_sub_cancel,
      List.getElem?_append_right (by simp), List.length_map, Nat.add_sub_cancel,
      List.getElem?_append_left (by simpa using hlt), List.getElem?_map, hget, Option.map_some]
  | item x =>
    by_cases hx : t.ground = some x
    · exact ⟨0, by rw [getThingIndex, if_pos hx], by simp [Tile.things, hx]⟩
    · rcases mem_items.1 (hthing.resolve_left hx) with hdown | htop
      · obtain ⟨i, hi, hget⟩ := exists_idxOf? hdown
        refine ⟨_, by
          rw [getThingIndex, if_neg hx, if_neg (by rw [h.down x hdown]; decide), hi, Option.map_some], ?_⟩
        rw [things_eq, List.getElem?_append_right (by simp), hground, Nat.add_sub_cancel,
          List.getElem?_append_right (by simp), List.length_map, Nat.add_sub_cancel,
          List.getElem?_append_right (by simp), List.length_map, Nat.add_sub_cancel, List.getElem?_map,
          hget, Option.map_some]
      · obtain ⟨i, hi, hget⟩ := exists_idxOf? htop
        have hlt := (List.getElem?_eq_some_iff.1 hget).1
        refine ⟨_, by rw [getThingIndex, if_neg hx, if_pos (h.top x htop), hi, Option.map_some], ?_⟩
        rw [things_eq, List.getElem?_append_right (by simp), hground, Nat.add_sub_cancel,
          List.getElem?_append_left (by simpa using hlt), List.getElem?_map, hget, Option.map_some]

theorem Well.stacked (h : Well rules t) : Stacked rules t := by
  refine ⟨h.count, h.down, h.top, h.sorted, fun thing hthing => ?_, fun i hi => ?_⟩
  · obtain ⟨i, hi, hget⟩ := h.getElem?_getThingIndex hthing
    exact ⟨i, hi, by rw [getThing_eq, hget]⟩
  · rw [← length_things] at hi
    have hget : t.things[i]? = some t.things[i] := List.getElem?_eq_getElem hi
    obtain ⟨j, hj, hgetj⟩ := h.getElem?_getThingIndex (mem_things.1 (List.getElem_mem hi))
    have hij : i = j := (List.getElem?_inj hi h.nodup_things).1 (hget.trans hgetj.symm)
    exact ⟨t.things[i], by rw [getThing_eq, hget], by rw [hj, hij]⟩

end Numbers

/-! ## The operations of the tile -/

section Steps

variable {rules : Rules} {t : Tile}

/-- The items of the tile are those of two lists. -/
def Tile.setLists (t : Tile) (down top : List ℕ) : Tile :=
  { t with items := down ++ top, downItemCount := down.length }

@[simp] theorem downItems_setLists (t : Tile) (down top : List ℕ) :
    (t.setLists down top).downItems = down := List.take_left

@[simp] theorem topItems_setLists (t : Tile) (down top : List ℕ) :
    (t.setLists down top).topItems = top := List.drop_left

theorem setLists_self (h : t.downItemCount ≤ t.items.length) : t.setLists t.downItems t.topItems = t := by
  rw [Tile.setLists, downItems_append_topItems, Tile.downItems, List.length_take, min_eq_left h]

/-- The tile keeps the lists of a tile that is split and sorted, if the items on it keep their
orders. -/
theorem Well.setLists {t' : Tile} {down top : List ℕ} (hdown : ∀ x ∈ down, t'.isAlwaysOnTop rules x = false)
    (htop : ∀ x ∈ top, t'.isAlwaysOnTop rules x = true)
    (hsorted : top.Pairwise fun a b => t'.order rules a ≤ t'.order rules b)
    (hnodup : (t'.ground.toList ++ (down ++ top)).Nodup) (hcreatures : t'.creatures.Nodup) :
    Well rules (t'.setLists down top) := by
  refine ⟨?_, ?_, ?_, ?_, hnodup, hcreatures⟩
  · rw [Tile.setLists, List.length_append]
    exact Nat.le_add_right _ _
  · rw [downItems_setLists]
    exact hdown
  · rw [topItems_setLists]
    exact htop
  · rw [topItems_setLists]
    exact hsorted

/-- Some of the items of the tile stay. -/
theorem Well.sublist (h : Well rules t) {down top : List ℕ} (hdown : down.Sublist t.downItems)
    (htop : top.Sublist t.topItems) : Well rules (t.setLists down top) := by
  refine Well.setLists (fun x hx => h.down x (hdown.subset hx)) (fun x hx => h.top x (htop.subset hx))
    (h.sorted.sublist htop) ?_ h.creatures
  refine h.nodup.sublist ((List.Sublist.refl _).append ?_)
  rw [← downItems_append_topItems t]
  exact hdown.append htop

theorem order_setItem_self (rules : Rules) (t : Tile) (x : ℕ) (item : Item) :
    (t.setItem x item).order rules x = (rules.types item.id).alwaysOnTopOrder := by
  simp [Tile.order, Tile.type, Item.type, Tile.setItem]

theorem order_setItem_of_ne (rules : Rules) (t : Tile) {x y : ℕ} (hyx : y ≠ x) (item : Item) :
    (t.setItem x item).order rules y = t.order rules y := by
  simp [Tile.order, Tile.type, Item.type, Tile.setItem, Function.update_of_ne hyx]

/-- Items that are not on the tile, or keep their ids, may change. -/
theorem Well.setItem (h : Well rules t) {x : ℕ} {item : Item}
    (hitem : item.id = (t.info x).id ∨ x ∉ t.items) : Well rules (t.setItem x item) := by
  have horder : ∀ y ∈ t.items, (t.setItem x item).order rules y = t.order rules y := by
    intro y hy
    by_cases hyx : y = x
    · subst hyx
      rw [order_setItem_self, hitem.resolve_right (not_not_intro hy)]
      rfl
    · exact order_setItem_of_ne rules t hyx item
  have hdown : ∀ y ∈ t.downItems, (t.setItem x item).order rules y = t.order rules y :=
    fun y hy => horder y (mem_items.2 (Or.inl hy))
  have htop : ∀ y ∈ t.topItems, (t.setItem x item).order rules y = t.order rules y :=
    fun y hy => horder y (mem_items.2 (Or.inr hy))
  refine ⟨h.count, fun y hy => ?_, fun y hy => ?_, ?_, h.nodup, h.creatures⟩
  · rw [Tile.isAlwaysOnTop, hdown y hy]
    exact h.down y hy
  · rw [Tile.isAlwaysOnTop, htop y hy]
    exact h.top y hy
  · refine h.sorted.imp_of_mem fun ha hb hab => ?_
    rw [htop _ ha, htop _ hb]
    exact hab

/-- What an operation that takes things away leaves. -/
structure Less (rules : Rules) (t t' : Tile) : Prop where
  well : Well rules t'
  order : ∀ x, t'.order rules x = t.order rules x
  has : ∀ thing, t'.Has thing → t.Has thing

theorem Well.less_self (h : Well rules t) : Less rules t t := ⟨h, fun _ => rfl, fun _ hthing => hthing⟩

theorem Well.less_sublist (h : Well rules t) {down top : List ℕ} (hdown : down.Sublist t.downItems)
    (htop : top.Sublist t.topItems) : Less rules t (t.setLists down top) := by
  refine ⟨h.sublist hdown htop, fun _ => rfl, fun thing hthing => ?_⟩
  cases thing with
  | creature c => exact hthing
  | item x =>
    refine hthing.imp id fun hx => ?_
    rcases List.mem_append.1 hx with hx | hx
    · exact mem_items.2 (Or.inl (hdown.subset hx))
    · exact mem_items.2 (Or.inr (htop.subset hx))

/-- **Removing an item** leaves the others as they are. -/
theorem Well.removeItem (h : Well rules t) (x count : ℕ) : Less rules t (removeItem rules t x count) := by
  rw [TileStack.removeItem]
  split_ifs with hground htop hmem hdown hstack
  · refine ⟨⟨h.count, h.down, h.top, h.sorted, h.nodup_items, h.creatures⟩, fun _ => rfl,
      fun thing => ?_⟩
    cases thing with
    | creature c => exact id
    | item y => exact fun hy => Or.inr (hy.resolve_left (by simp))
  · have heq : { t with items := t.downItems ++ t.topItems.erase x } =
        t.setLists t.downItems (t.topItems.erase x) := by
      rw [Tile.setLists, Tile.downItems, List.length_take, min_eq_left h.count]
    rw [heq]
    exact h.less_sublist (List.Sublist.refl _) List.erase_sublist
  · exact h.less_self
  · refine ⟨h.setItem (Or.inl rfl), fun y => ?_, fun thing hthing => ?_⟩
    · by_cases hyx : y = x
      · rw [hyx, order_setItem_self]
        rfl
      · exact order_setItem_of_ne rules t hyx _
    · cases thing <;> exact hthing
  · have heq : { t with items := t.downItems.erase x ++ t.topItems, downItemCount := t.downItemCount - 1 } =
        t.setLists (t.downItems.erase x) t.topItems := by
      rw [Tile.setLists, List.length_erase_of_mem hdown, Tile.downItems, List.length_take,
        min_eq_left h.count]
    rw [heq]
    exact h.less_sublist List.erase_sublist (List.Sublist.refl _)
  · exact h.less_self

theorem Well.removeThing (h : Well rules t) (thing : Thing) (count : ℕ) :
    Less rules t (removeThing rules t thing count) := by
  cases thing with
  | item x =>
    rw [TileStack.removeThing]
    split_ifs
    · exact h.less_self
    · exact h.removeItem x count
  | creature c =>
    refine ⟨⟨h.count, h.down, h.top, h.sorted, h.nodup, h.creatures.erase c⟩, fun _ => rfl,
      fun thing => ?_⟩
    cases thing with
    | item x => exact id
    | creature d => exact fun hd => List.mem_of_mem_erase hd

theorem Well.removeSplash (h : Well rules t) : Less rules t (removeSplash rules t) := by
  rw [TileStack.removeSplash]
  split
  · exact h.less_self
  · exact h.removeThing _ 1

/-- A list in order stays in order when an element is inserted where the elements above it begin. -/
theorem pairwise_insert {order : ℕ → ℕ} {below : ℕ → Bool} {l : List ℕ} {x : ℕ}
    (hl : l.Pairwise fun a b => order a ≤ order b) (hbelow : ∀ y, below y = true → order y ≤ order x)
    (habove : ∀ y, below y = false → order x ≤ order y) :
    (l.takeWhile below ++ x :: l.dropWhile below).Pairwise fun a b => order a ≤ order b := by
  induction l with
  | nil => exact List.pairwise_singleton _ _
  | cons y l ih =>
    obtain ⟨hy, hrest⟩ := List.pairwise_cons.1 hl
    cases hcase : below y with
    | false =>
      rw [List.takeWhile_cons_of_neg (by simp [hcase]), List.dropWhile_cons_of_neg (by simp [hcase])]
      refine List.pairwise_cons.2 ⟨fun z hz => ?_, hl⟩
      rcases List.mem_cons.1 hz with rfl | hz
      · exact habove z hcase
      · exact (habove y hcase).trans (hy z hz)
    | true =>
      rw [List.takeWhile_cons_of_pos hcase, List.dropWhile_cons_of_pos hcase, List.cons_append]
      refine List.pairwise_cons.2 ⟨fun z hz => ?_, ih hrest⟩
      rcases List.mem_append.1 hz with hz | hz
      · exact hy z ((List.takeWhile_sublist _).subset hz)
      · rcases List.mem_cons.1 hz with rfl | hz
        · exact hbelow y hcase
        · exact hy z ((List.dropWhile_sublist _).subset hz)

theorem nodup_insert {l l₁ l₂ : List ℕ} {x : ℕ} (hl : (l ++ (l₁ ++ l₂)).Nodup)
    (hx : x ∉ l ++ (l₁ ++ l₂)) : (l ++ (l₁ ++ x :: l₂)).Nodup := by
  have hperm : (l ++ (l₁ ++ x :: l₂)).Perm (x :: (l ++ (l₁ ++ l₂))) :=
    (List.Perm.append_left _ List.perm_middle).trans List.perm_middle
  exact hperm.nodup_iff.2 (List.nodup_cons.2 ⟨hx, hl⟩)

theorem not_mem_of_not_has {x : ℕ} (hx : ¬ t.Has (.item x)) : x ∉ t.ground.toList ++ t.items := by
  intro hmem
  rcases List.mem_append.1 hmem with hground | hitems
  · exact hx (Or.inl (Option.mem_toList.1 hground))
  · exact hx (Or.inr hitems)

/-- **An item is inserted** among those on top. -/
theorem Well.insertTop (h : Well rules t) {below : ℕ → Bool} {x : ℕ} (hx : ¬ t.Has (.item x))
    (htop : t.isAlwaysOnTop rules x = true) (hbelow : ∀ y, below y = true → t.order rules y ≤ t.order rules x)
    (habove : ∀ y, below y = false → t.order rules x ≤ t.order rules y) : Well rules (insertTop t below x) := by
  have heq : TileStack.insertTop t below x =
      t.setLists t.downItems (t.topItems.takeWhile below ++ x :: t.topItems.dropWhile below) := by
    rw [TileStack.insertTop, Tile.setLists]
    congr 1
    rw [Tile.downItems, List.length_take, min_eq_left h.count]
  have hsplit : t.items =
      t.downItems ++ (t.topItems.takeWhile below ++ t.topItems.dropWhile below) := by
    rw [List.takeWhile_append_dropWhile, downItems_append_topItems]
  have hnot := not_mem_of_not_has hx
  have hnodup := h.nodup
  rw [hsplit, ← List.append_assoc] at hnot hnodup
  rw [heq]
  refine Well.setLists h.down (fun y hy => ?_) (pairwise_insert h.sorted hbelow habove) ?_ h.creatures
  · rcases List.mem_append.1 hy with hy | hy
    · exact h.top y ((List.takeWhile_sublist _).subset hy)
    · rcases List.mem_cons.1 hy with rfl | hy
      · exact htop
      · exact h.top y ((List.dropWhile_sublist _).subset hy)
  · rw [← List.append_assoc]
    exact nodup_insert hnodup hnot

theorem Well.insertDown (h : Well rules t) {x : ℕ} (hx : ¬ t.Has (.item x))
    (hdown : t.isAlwaysOnTop rules x = false) : Well rules (insertDown t x) := by
  have heq : TileStack.insertDown t x = t.setLists (x :: t.downItems) t.topItems := by
    rw [TileStack.insertDown, Tile.setLists, List.cons_append, downItems_append_topItems, List.length_cons,
      Tile.downItems, List.length_take, min_eq_left h.count]
  rw [heq]
  refine Well.setLists (fun y hy => ?_) h.top h.sorted ?_ h.creatures
  · rcases List.mem_cons.1 hy with rfl | hy
    · exact hdown
    · exact h.down y hy
  · rw [List.cons_append, downItems_append_topItems]
    exact @nodup_insert t.ground.toList [] t.items x h.nodup (not_mem_of_not_has hx)

theorem Well.setGround (h : Well rules t) {x : ℕ} (hx : ¬ t.Has (.item x)) :
    Well rules { t with ground := some x } :=
  ⟨h.count, h.down, h.top, h.sorted, List.nodup_cons.2 ⟨fun hmem => hx (Or.inr hmem), h.nodup_items⟩,
    h.creatures⟩

theorem Well.addCreature (h : Well rules t) {c : ℕ} (hc : ¬ t.Has (.creature c)) :
    Well rules { t with creatures := c :: t.creatures } :=
  ⟨h.count, h.down, h.top, h.sorted, h.nodup, List.nodup_cons.2 ⟨hc, h.creatures⟩⟩

/-- **A thing is added.** -/
theorem Well.addThing (h : Well rules t) {thing : Thing} (hthing : ¬ t.Has thing) :
    Well rules (addThing rules t thing) := by
  cases thing with
  | creature c => exact h.addCreature hthing
  | item x =>
    rw [TileStack.addThing]
    split_ifs with hfull hground htop hsplash hfield
    · exact h
    · exact h.setGround hthing
    · have hless := h.removeSplash
      refine hless.well.insertTop (fun hx => hthing (hless.has _ hx)) ?_ (fun y hy => ?_) fun y hy => ?_
      · rw [Tile.isAlwaysOnTop, hless.order]
        exact htop
      · exact (of_decide_eq_true hy).le
      · exact Nat.le_of_not_lt (of_decide_eq_false hy)
    · exact h.insertTop hthing htop (fun y hy => (of_decide_eq_true hy).le)
        fun y hy => Nat.le_of_not_lt (of_decide_eq_false hy)
    · have hdown : t.isAlwaysOnTop rules x = false := Bool.eq_false_iff.2 htop
      cases t.downItems.find? t.isField with
      | none => exact h.insertDown hthing hdown
      | some oldField =>
        dsimp only
        split_ifs
        · have hless := h.removeThing (.item oldField) 1
          refine hless.well.insertDown (fun hx => hthing (hless.has _ hx)) ?_
          rw [Tile.isAlwaysOnTop, hless.order]
          exact hdown
        · exact h
    · exact h.insertDown hthing (Bool.eq_false_iff.2 htop)

theorem Well.internalAddThing (h : Well rules t) {thing : Thing} (hthing : ¬ t.Has thing) :
    Well rules (internalAddThing rules t thing) := by
  cases thing with
  | creature c => exact h.addCreature hthing
  | item x =>
    rw [TileStack.internalAddThing]
    split_ifs with hground hnone hfull htop
    · exact h.setGround hthing
    · exact h
    · exact h
    · exact h.insertTop hthing htop (fun y hy => of_decide_eq_true hy)
        fun y hy => (Nat.lt_of_not_le (of_decide_eq_false hy)).le
    · exact h.insertDown hthing (Bool.eq_false_iff.2 htop)

end Steps

/-! ## Transformed items -/

section Transformed

variable {rules : Rules} {t : Tile}

/-- An item may have an id in the place of another: that place is the ground's, or both types are on
top or both are not, and among the items on top the order of the type is between those below and
above. -/
def InPlace (rules : Rules) (t : Tile) (x itemId : ℕ) : Prop :=
  t.ground = some x ∨
    t.isAlwaysOnTop rules x = ((rules.types itemId).alwaysOnTopOrder != 0) ∧
      ∀ below above, t.topItems = below ++ x :: above →
        (∀ y ∈ below, t.order rules y ≤ (rules.types itemId).alwaysOnTopOrder) ∧
          ∀ y ∈ above, (rules.types itemId).alwaysOnTopOrder ≤ t.order rules y

/-- The tile with an item, whose fields are given, in the place of another. -/
def exchange (t : Tile) (x x' : ℕ) (item : Item) : Tile :=
  if t.ground = some x then { t.setItem x' item with ground := some x' }
  else (t.setItem x' item).setLists (t.downItems.map fun y => if y = x then x' else y)
    (t.topItems.map fun y => if y = x then x' else y)

theorem map_exchange_of_not_mem {l : List ℕ} {x : ℕ} (hx : x ∉ l) (x' : ℕ) :
    l.map (fun y => if y = x then x' else y) = l := by
  refine (List.map_congr_left fun y hy => ?_).trans (List.map_id l)
  have hyx : y ≠ x := by
    rintro rfl
    exact hx hy
  rw [if_neg hyx, id]

theorem map_exchange_append {l₁ l₂ : List ℕ} {x : ℕ} (hl : (l₁ ++ x :: l₂).Nodup) (x' : ℕ) :
    (l₁ ++ x :: l₂).map (fun y => if y = x then x' else y) = l₁ ++ x' :: l₂ := by
  obtain ⟨-, hright, hdisjoint⟩ := List.nodup_append.1 hl
  have hx₁ : x ∉ l₁ := fun hx => hdisjoint x hx x List.mem_cons_self rfl
  rw [List.map_append, List.map_cons, map_exchange_of_not_mem hx₁,
    map_exchange_of_not_mem (List.nodup_cons.1 hright).1, if_pos rfl]

theorem nodup_exchange {l : List ℕ} (hl : l.Nodup) {x x' : ℕ} (hx' : x' = x ∨ x' ∉ l) :
    (l.map fun y => if y = x then x' else y).Nodup := by
  by_cases hx : x ∈ l
  · refine (List.nodup_map_iff_inj_on hl).2 fun a ha b hb hab => ?_
    split_ifs at hab with hax hbx hbx
    · rw [hax, hbx]
    · rcases hx' with hsame | hnot
      · exact absurd (hab.symm.trans hsame) hbx
      · exact absurd (hab ▸ hb) hnot
    · rcases hx' with hsame | hnot
      · exact absurd (hab.trans hsame) hax
      · exact absurd (hab ▸ ha) hnot
    · exact hab
  · rw [map_exchange_of_not_mem hx]
    exact hl

/-- A list in order stays in order when an element between the orders of its neighbours takes a
place. -/
theorem sorted_exchange {order order' : ℕ → ℕ} {l : List ℕ} {x x' : ℕ} (hl : l.Nodup)
    (hsorted : l.Pairwise fun a b => order a ≤ order b)
    (hkept : ∀ y ∈ l, y ≠ x → order' y = order y)
    (hplace : ∀ below above, l = below ++ x :: above →
      (∀ y ∈ below, order y ≤ order' x') ∧ ∀ y ∈ above, order' x' ≤ order y) :
    (l.map fun y => if y = x then x' else y).Pairwise fun a b => order' a ≤ order' b := by
  by_cases hx : x ∈ l
  · obtain ⟨below, above, rfl⟩ := List.append_of_mem hx
    obtain ⟨hbelow, habove⟩ := hplace below above rfl
    obtain ⟨-, hright, hdisjoint⟩ := List.nodup_append.1 hl
    have hkbelow : ∀ y ∈ below, order' y = order y :=
      fun y hy => hkept y (List.mem_append_left _ hy) (hdisjoint y hy x List.mem_cons_self)
    have hkabove : ∀ y ∈ above, order' y = order y := fun y hy =>
      hkept y (List.mem_append_right _ (List.mem_cons_of_mem _ hy))
        fun hyx => (List.nodup_cons.1 hright).1 (hyx ▸ hy)
    obtain ⟨hsbelow, hsright, hscross⟩ := List.pairwise_append.1 hsorted
    rw [map_exchange_append hl]
    refine List.pairwise_append.2 ⟨?_, List.pairwise_cons.2 ⟨fun y hy => ?_, ?_⟩, fun a ha b hb => ?_⟩
    · refine hsbelow.imp_of_mem fun ha hb hab => ?_
      rw [hkbelow _ ha, hkbelow _ hb]
      exact hab
    · rw [hkabove y hy]
      exact habove y hy
    · refine (List.pairwise_cons.1 hsright).2.imp_of_mem fun ha hb hab => ?_
      rw [hkabove _ ha, hkabove _ hb]
      exact hab
    · rw [hkbelow a ha]
      rcases List.mem_cons.1 hb with rfl | hb
      · exact hbelow a ha
      · rw [hkabove b hb]
        exact hscross a ha b (List.mem_cons_of_mem _ hb)
  · rw [map_exchange_of_not_mem hx]
    refine hsorted.imp_of_mem fun ha hb hab => ?_
    rw [hkept _ ha (fun hax => hx (hax ▸ ha)), hkept _ hb (fun hbx => hx (hbx ▸ hb))]
    exact hab

/-- **An item in the place of another**, or with another id, keeps the vector split and sorted if
its type may be there. -/
theorem Well.exchange (h : Well rules t) {x x' : ℕ} {item : Item}
    (hx' : x' = x ∨ ¬ t.Has (.item x')) (hplace : InPlace rules t x item.id) :
    Well rules (exchange t x x' item) := by
  have hnotmem : x' ≠ x → x' ∉ t.ground.toList ++ t.items :=
    fun hne => not_mem_of_not_has (hx'.resolve_left hne)
  rw [TileStack.exchange]
  split_ifs with hground
  · have hx'items : x' ∉ t.items := by
      rcases hx' with rfl | hnot
      · exact h.not_mem_of_ground hground
      · exact fun hmem => hnot (Or.inr hmem)
    have hset : Well rules (t.setItem x' item) := h.setItem (Or.inr hx'items)
    exact ⟨hset.count, hset.down, hset.top, hset.sorted, List.nodup_cons.2 ⟨hx'items, h.nodup_items⟩,
      h.creatures⟩
  · obtain ⟨htype, horder⟩ := hplace.resolve_left hground
    have hnew : ∀ y, y ∈ t.items → y ≠ x → y ≠ x' := by
      rintro y hy hyx rfl
      exact hnotmem hyx (List.mem_append_right _ hy)
    have hkept : ∀ y, y ∈ t.items → y ≠ x → (t.setItem x' item).order rules y = t.order rules y :=
      fun y hy hyx => order_setItem_of_ne rules t (hnew y hy hyx) item
    have hontop : ∀ y, y ∈ t.items → (t.setItem x' item).isAlwaysOnTop rules (if y = x then x' else y) =
        t.isAlwaysOnTop rules y := by
      intro y hy
      by_cases hyx : y = x
      · rw [if_pos hyx, Tile.isAlwaysOnTop, order_setItem_self, hyx, htype]
      · rw [if_neg hyx, Tile.isAlwaysOnTop, hkept y hy hyx, Tile.isAlwaysOnTop]
    refine Well.setLists (fun z hz => ?_) (fun z hz => ?_) ?_ ?_ h.creatures
    · obtain ⟨y, hy, rfl⟩ := List.mem_map.1 hz
      rw [hontop y (mem_items.2 (Or.inl hy))]
      exact h.down y hy
    · obtain ⟨y, hy, rfl⟩ := List.mem_map.1 hz
      rw [hontop y (mem_items.2 (Or.inr hy))]
      exact h.top y hy
    · refine sorted_exchange (h.nodup_items.sublist (List.drop_sublist _ _)) h.sorted
        (fun y hy hyx => hkept y (mem_items.2 (Or.inr hy)) hyx) fun below above hsplit => ?_
      rw [order_setItem_self]
      exact horder below above hsplit
    · have hsame : t.ground.toList.map (fun y => if y = x then x' else y) = t.ground.toList := by
        refine map_exchange_of_not_mem (fun hmem => hground ?_) x'
        exact Option.mem_toList.1 hmem
      rw [← List.map_append, downItems_append_topItems]
      change (t.ground.toList ++ _).Nodup
      rw [← hsame, ← List.map_append]
      exact nodup_exchange h.nodup (hx'.imp id not_mem_of_not_has)

theorem exchange_self (h : t.downItemCount ≤ t.items.length) (x : ℕ) (item : Item) :
    TileStack.exchange t x x item = t.setItem x item := by
  have hmap : ∀ l : List ℕ, l.map (fun y => if y = x then x else y) = l := by
    intro l
    refine (List.map_congr_left fun y _ => ?_).trans (List.map_id l)
    split_ifs with hyx
    · exact hyx.symm
    · rfl
  rw [TileStack.exchange]
  split_ifs with hground
  · rw [← hground]
    rfl
  · rw [hmap, hmap]
    exact setLists_self (t := t.setItem x item) h

theorem set_eq_map {l : List ℕ} (hl : l.Nodup) {i x : ℕ} (hi : l[i]? = some x) (x' : ℕ) :
    l.set i x' = l.map fun y => if y = x then x' else y := by
  obtain ⟨hlt, rfl⟩ := List.getElem?_eq_some_iff.1 hi
  refine List.ext_getElem (by simp) fun j hj hj' => ?_
  rw [List.getElem_set, List.getElem_map]
  by_cases hij : i = j
  · subst hij
    rw [if_pos rfl, if_pos rfl]
  · rw [if_neg hij, if_neg fun heq => hij ((hl.getElem_inj_iff).1 heq).symm]

theorem replaceThing_zero {x : ℕ} (hground : t.ground = some x) (x' : ℕ) :
    replaceThing t 0 x' = { t with ground := some x' } := by
  rw [replaceThing, hground]
  rfl

theorem replaceThing_add (t : Tile) (index x : ℕ) :
    replaceThing t (index + t.ground.toList.length) x =
      if index < t.topItems.length then { t with items := t.downItems ++ t.topItems.set index x }
      else if index - t.topItems.length < t.creatures.length then t
      else if index - t.topItems.length - t.creatures.length < t.downItems.length then
        { t with
          items := t.downItems.set (index - t.topItems.length - t.creatures.length) x ++ t.topItems }
      else t := by
  obtain ⟨info, isField, canTransform, ground, items, downItemCount, creatures⟩ := t
  cases ground <;> rfl

/-- **`Item::transform`** puts the new item in the place of the old one. -/
theorem Well.replaceThing_eq (h : Well rules t) {x fresh index : ℕ} (item : Item)
    (hindex : getThingIndex rules t (.item x) = some index) :
    replaceThing (t.setItem fresh item) index fresh = TileStack.exchange t x fresh item := by
  have hlength : t.downItems.length = t.downItemCount := by
    rw [Tile.downItems, List.length_take, min_eq_left h.count]
  have hitems := h.nodup_items
  rw [← downItems_append_topItems] at hitems
  obtain ⟨hdowns, htops, hdisjoint⟩ := List.nodup_append.1 hitems
  have hstart : ∀ index, replaceThing (t.setItem fresh item) (index + t.ground.toList.length) fresh =
      if index < t.topItems.length then
        { t.setItem fresh item with items := t.downItems ++ t.topItems.set index fresh }
      else if index - t.topItems.length < t.creatures.length then t.setItem fresh item
      else if index - t.topItems.length - t.creatures.length < t.downItems.length then
        { t.setItem fresh item with
          items := t.downItems.set (index - t.topItems.length - t.creatures.length) fresh ++ t.topItems }
      else t.setItem fresh item :=
    fun index => replaceThing_add (t.setItem fresh item) index fresh
  rw [getThingIndex] at hindex
  rw [TileStack.exchange]
  split_ifs at hindex with hground htop
  · cases hindex
    rw [if_pos hground]
    exact replaceThing_zero (t := t.setItem fresh item) hground fresh
  · obtain ⟨i, hi, rfl⟩ := Option.map_eq_some_iff.1 hindex
    obtain ⟨hlt, hget, -⟩ := List.idxOf?_eq_some_iff.1 hi
    have hx : x ∈ t.topItems := hget ▸ List.getElem_mem hlt
    have hnot : x ∉ t.downItems := fun hmem => hdisjoint x hmem x hx rfl
    rw [if_neg hground, hstart, if_pos hlt, map_exchange_of_not_mem hnot,
      set_eq_map htops (by rw [List.getElem?_eq_getElem hlt, hget]), Tile.setLists, hlength]
    rfl
  · obtain ⟨i, hi, rfl⟩ := Option.map_eq_some_iff.1 hindex
    obtain ⟨hlt, hget, -⟩ := List.idxOf?_eq_some_iff.1 hi
    have hx : x ∈ t.downItems := hget ▸ List.getElem_mem hlt
    have hnot : x ∉ t.topItems := fun hmem => hdisjoint x hx x hmem rfl
    have hplace : i + t.creatures.length + t.topItems.length - t.topItems.length - t.creatures.length = i := by
      omega
    rw [if_neg hground, hstart, if_neg (by omega), if_neg (by omega), hplace, if_pos hlt,
      map_exchange_of_not_mem hnot, set_eq_map hdowns (by rw [List.getElem?_eq_getElem hlt, hget]),
      Tile.setLists, List.length_map, hlength]
    rfl

theorem Well.transform (h : Well rules t) {x itemId itemCount fresh : ℕ} (hfresh : ¬ t.Has (.item fresh))
    (hplace : InPlace rules t x (createdId rules.types itemId)) :
    Well rules (transform rules t x itemId itemCount fresh) := by
  rw [TileStack.transform]
  cases hindex : getThingIndex rules t (.item x) with
  | none => exact h
  | some index =>
    dsimp only
    rw [h.replaceThing_eq _ hindex]
    refine h.exchange (Or.inr hfresh) ?_
    rw [rules.create_id]
    exact hplace

theorem Well.updateThing (h : Well rules t) {x itemId : ℕ} (count : ℕ) (hplace : InPlace rules t x itemId) :
    Well rules (updateThing rules t x itemId count) := by
  rw [TileStack.updateThing]
  split_ifs with hindex
  · exact h
  · rw [← exchange_self h.count]
    refine h.exchange (Or.inl rfl) ?_
    rw [id_setSubType]
    exact hplace

theorem id_setDefaultSubtype (types : ItemTypes) (x : Item) : (setDefaultSubtype types x).id = x.id := by
  rw [setDefaultSubtype]
  split_ifs <;> rfl

theorem order_setItem_of_id (rules : Rules) (t : Tile) {x : ℕ} {item : Item} (hid : item.id = (t.info x).id)
    (y : ℕ) : (t.setItem x item).order rules y = t.order rules y := by
  by_cases hyx : y = x
  · rw [hyx, order_setItem_self, hid]
    rfl
  · exact order_setItem_of_ne rules t hyx item

/-- An item that is removed as a whole is not on the tile any more. -/
theorem Well.not_has_removeThing (h : Well rules t) (x : ℕ) :
    ¬ (TileStack.removeThing rules t (.item x) (t.info x).getItemCount).Has (.item x) := by
  have hitems := h.nodup_items
  rw [← downItems_append_topItems] at hitems
  obtain ⟨hdowns, htops, hdisjoint⟩ := List.nodup_append.1 hitems
  rw [TileStack.removeThing]
  split_ifs with hindex
  · intro hx
    obtain ⟨i, hi, -⟩ := h.getElem?_getThingIndex hx
    rw [hindex] at hi
    cases hi
  · rw [TileStack.removeItem]
    split_ifs with hground htop hmem hmem hstack
    · rintro (hnone | hx)
      · cases hnone
      · exact h.not_mem_of_ground hground hx
    · rintro (hsame | hx)
      · exact hground hsame
      · rcases List.mem_append.1 hx with hx | hx
        · exact hdisjoint x hx x hmem rfl
        · exact htops.not_mem_erase hx
    · rintro (hsame | hx)
      · exact hground hsame
      · rcases mem_items.1 hx with hx | hx
        · rw [h.down x hx] at htop
          cases htop
        · exact hmem hx
    · exact absurd rfl hstack.2
    · rintro (hsame | hx)
      · exact hground hsame
      · rcases List.mem_append.1 hx with hx | hx
        · exact hdowns.not_mem_erase hx
        · exact hdisjoint x hmem x hx rfl
    · rintro (hsame | hx)
      · exact hground hsame
      · rcases mem_items.1 hx with hx | hx
        · exact hmem hx
        · exact htop (h.top x hx)

end Transformed

/-! ## Runs -/

section Runs

variable {rules : Rules} {t : Tile}

/-- The steps that keep the tile stacked: things are added that are not on it yet, the items made by
transformations are new, and an item whose place is kept gets a type that may be there. -/
def Fitting (rules : Rules) (t : Tile) : Step → Prop
  | .addThing thing => ¬ t.Has thing
  | .internalAddThing thing => ¬ t.Has thing
  | .removeThing _ _ => True
  | .transformItem x newId newCount _ fresh =>
    match change rules t x newId newCount with
    | .updated itemId _ => InPlace rules t x itemId
    | .replaced itemId _ => ¬ t.Has (.item fresh) ∧ InPlace rules t x (createdId rules.types itemId)
    | _ => True
  | .transform x itemId _ fresh =>
    ¬ t.Has (.item fresh) ∧ InPlace rules t x (createdId rules.types itemId)

theorem Well.transformItem (h : Well rules t) {x newId : ℕ} {newCount : ℤ} {removable : Bool} {fresh : ℕ}
    (hfit : Fitting rules t (.transformItem x newId newCount removable fresh)) :
    Well rules (transformItem rules t x newId newCount removable fresh) := by
  rw [Fitting] at hfit
  rw [TileStack.transformItem]
  cases hchange : change rules t x newId newCount with
  | unchanged => exact h
  | moved =>
    have hless := h.removeThing (.item x) (t.info x).getItemCount
    have hgone := h.not_has_removeThing x
    exact (hless.well.setItem (Or.inr fun hx => hgone (Or.inr hx))).addThing hgone
  | removed =>
    dsimp only
    rw [internalRemoveItem]
    split_ifs
    · exact h
    · exact (h.removeThing _ _).well
  | updated itemId count =>
    rw [hchange] at hfit
    dsimp only at hfit ⊢
    have hid : (if (t.info x).id ≠ newId ∧ (rules.types newId).group ≠ (t.type rules x).group then
        setDefaultSubtype rules.types (t.info x) else t.info x).id = (t.info x).id := by
      split_ifs
      · exact id_setDefaultSubtype rules.types (t.info x)
      · rfl
    refine (h.setItem (Or.inl hid)).updateThing count (hfit.imp id fun hplace => ?_)
    refine ⟨?_, fun below above hsplit => ?_⟩
    · rw [Tile.isAlwaysOnTop, order_setItem_of_id rules t hid]
      exact hplace.1
    · obtain ⟨hbelow, habove⟩ := hplace.2 below above hsplit
      refine ⟨fun y hy => ?_, fun y hy => ?_⟩
      · rw [order_setItem_of_id rules t hid]
        exact hbelow y hy
      · rw [order_setItem_of_id rules t hid]
        exact habove y hy
  | replaced itemId itemCount =>
    rw [hchange] at hfit
    exact h.transform hfit.1 hfit.2

/-- **One step.** A fitting step keeps the vector split and sorted. -/
theorem well_step (h : Well rules t) {a : Step} (hfit : Fitting rules t a) : Well rules (step rules t a) := by
  cases a with
  | addThing thing => exact h.addThing hfit
  | internalAddThing thing => exact h.internalAddThing hfit
  | removeThing thing count => exact (h.removeThing thing count).well
  | transformItem x newId newCount removable fresh => exact h.transformItem hfit
  | transform x itemId itemCount fresh => exact h.transform hfit.1 hfit.2

theorem well_empty (rules : Rules) (info : ℕ → Item) (isField canTransform : ℕ → Bool) :
    Well rules (empty info isField canTransform) :=
  ⟨le_refl _, fun x hx => absurd hx (by simp [Tile.downItems, empty]),
    fun x hx => absurd hx (by simp [Tile.topItems, empty]), by simp [Tile.topItems, empty],
    by simp [empty], by simp [empty]⟩

/-- **Every run of fitting steps**, from a tile without things, leaves the tile stacked in every
state. -/
theorem run_stacked {info : ℕ → Item} {isField canTransform : ℕ → Bool} {l : List Step}
    (hl : Runs.Meets (step rules) (Fitting rules) (empty info isField canTransform) l) :
    ∀ m, m <+: l → Stacked rules (Runs.run (step rules) (empty info isField canTransform) m) :=
  fun _ hm => (Runs.invariant (step rules) (P := Well rules) (fun _ _ h hfit => well_step h hfit)
    (well_empty rules info isField canTransform) (hl.of_prefix (step rules) hm)).stacked

/-- Types that are always on top, of the order that is their id. -/
def border (id : ℕ) : ItemType where
  group := .ITEM_GROUP_NONE
  type := .other
  weaponType := .WEAPON_NONE
  slotPosition := 0
  stackable := false
  stackSize := 1
  charges := 0
  decayTime := 0
  weight := 0
  maxItems := 0
  pickupable := false
  movable := false
  blockSolid := false
  hasHeight := false
  alwaysOnTopOrder := id
  isHangable := false
  supportHangable := false
  replaceable := false
  wareId := 0
  stackable_group := by decide
  stackable_type := by decide

/-- All borders are of one kind. -/
def borders : Rules where
  types := border
  registered := fun _ => true
  typeNumber := fun _ => 0
  decayTo := fun _ => -1
  create := fun id count => ⟨createdId border id, UInt8.ofNat count, [], none, none⟩
  create_id := fun _ _ => rfl

/-- Item 0 is of the order 1, item 1 of the order 2, and so on. -/
def noBorders : Tile := empty (fun x => ⟨x + 1, 1, [], none, none⟩) (fun _ => false) fun _ => true

theorem run_stacked_borders :
    Stacked borders (Runs.run (step borders) noBorders [.addThing (.item 0), .addThing (.item 1)]) := by
  have hfit : Runs.Meets (step borders) (Fitting borders) noBorders
      [.addThing (.item 0), .addThing (.item 1)] := by
    refine ⟨?_, ?_, trivial⟩
    · rintro (h | h)
      · cases h
      · cases h
    · rintro (h | h)
      · cases h
      · exact absurd h (by decide)
  exact run_stacked hfit _ (List.prefix_refl _)

/-- The lower of two borders is transformed, to a type that belongs above the other. -/
theorem not_stacked_transformItem :
    ¬ Stacked borders (Runs.run (step borders) noBorders
      [.addThing (.item 0), .addThing (.item 1), .transformItem 0 3 (-1) true 2]) := by
  intro h
  have hsorted := h.sorted
  revert hsorted
  decide

end Runs

end TiabloServer.TileStack
