import TiabloServer.Items.Queries
import TiabloServer.Items.Things

/-!
# Moving and adding items

`Game::internalMoveItem` and `Game::internalAddItem` (`game/game.cpp`). A move first asks the
cylinders a chain of questions, in the middle of which it may exchange the item at the destination
with the source, and then takes the item out and puts it in.

## Main definitions

* `Items.internalMoveItem` — the move, of its two parts `Items.planMove` and `Items.transferItem`.
* `Items.internalAddItem` — the addition of an item that no cylinder holds.
-/

namespace TiabloServer.Items

open ReturnValue

variable (cfg : Config)

def MAP_MAX_LAYERS : ℕ := 16

/-! ## Moving -/

/-- The loop over `queryDestination` in `internalMoveItem`, at most `MAP_MAX_LAYERS` times. The
flags count for the first cylinder only. -/
def resolveDestination (w : World) (item : ℕ) : ℕ → Destination → Destination
  | 0, d => d
  | n + 1, d =>
    let sub := queryDestination cfg w d.cylinder d.index item d.destItem d.flags
    if sub.cylinder = d.cylinder then sub
    else resolveDestination w item n { sub with flags := 0 }

/-- The arguments of `internalMoveItem`. -/
structure MoveArgs where
  fromCylinder : Cylinder
  toCylinder : Cylinder
  index : ℤ
  item : ℕ
  count : ℕ
  flags : ℕ
  actor : Bool
  tradeItem : Option ℕ

/-- Where `internalMoveItem` moves to. -/
def MoveArgs.destination (a : MoveArgs) (w : World) : Destination :=
  resolveDestination cfg w a.item MAP_MAX_LAYERS ⟨a.toCylinder, a.index, none, a.flags⟩

/-- The fix for the menu option "Move up", for which clients send no count. -/
def MoveArgs.moveCount (a : MoveArgs) (w : World) (toCylinder : Cylinder) : ℕ :=
  if (w.items a.item).isStackable cfg.types ∧ a.count = 255 ∧
      w.getParent a.fromCylinder = some toCylinder then
    (w.items a.item).getItemCount
  else a.count

/-- What `internalMoveItem` has decided when its checks pass: to move `m` of the item in the world
`world`, and to answer `ret`. -/
structure MovePlan where
  world : World
  toCylinder : Cylinder
  index : ℤ
  toItem : Option ℕ
  m : ℕ
  ret : ReturnValue

/-- What the branch for `RETURNVALUE_NEEDEXCHANGE` finds: that the source does not take the item at
the destination, that this item may not be removed, which is no reason to stop, or neither. -/
inductive ExchangeCheck where
  | refuse (ret : ReturnValue)
  | skip
  | exchange
deriving DecidableEq

/-- The checks of the branch for `RETURNVALUE_NEEDEXCHANGE`. -/
def checkExchange (a : MoveArgs) (w : World) (d : Destination) (toItem : ℕ) : ExchangeCheck :=
  let toCount := (w.items toItem).getItemCount
  let ret := queryAdd cfg w a.fromCylinder (w.getThingIndex cfg.types a.fromCylinder a.item) toItem
    toCount 0 false
  if ret ≠ RETURNVALUE_NOERROR then .refuse ret
  else
    let q := queryMaxCount cfg w a.fromCylinder INDEX_WHEREEVER toItem toCount 0
    if q.1 ≠ RETURNVALUE_NOERROR ∧ q.2 = 0 then .refuse q.1
    else if queryRemove cfg w d.cylinder toItem toCount d.flags ≠ RETURNVALUE_NOERROR then .skip
    else .exchange

/-- The exchange: the item at the destination moves to the source. -/
def exchangeItem (a : MoveArgs) (w : World) (d : Destination) (toItem : ℕ) : World :=
  addThingAnywhere cfg.types
    (removeThing cfg.types w d.cylinder toItem (w.items toItem).getItemCount) a.fromCylinder toItem

/-- How many of the item are moved, when there is room for `maxQueryCount`. -/
def MoveArgs.movedCount (a : MoveArgs) (w : World) (count maxQueryCount : ℕ) : ℕ :=
  if (w.items a.item).isStackable cfg.types then min count maxQueryCount else maxQueryCount

/-- The checks of `internalMoveItem` after the item has been found to go in: how much of it, whether
so much may be taken away, and whether the destination is not in the item of a trade. -/
def checkMove (a : MoveArgs) (w : World) (d : Destination) (toItem : Option ℕ) (count : ℕ) :
    World × ReturnValue ⊕ MovePlan :=
  let q := queryMaxCount cfg w d.cylinder d.index a.item count d.flags
  if q.1 ≠ RETURNVALUE_NOERROR ∧ q.2 = 0 then .inl (w, q.1)
  else
    let m := a.movedCount cfg w count q.2
    let ret := queryRemove cfg w a.fromCylinder a.item m d.flags
    if ret ≠ RETURNVALUE_NOERROR then .inl (w, ret)
    else if a.tradeItem.any fun y => .item y ∈ d.cylinder :: w.parents d.cylinder then
      .inl (w, RETURNVALUE_NOTENOUGHROOM)
    else
      .inr ⟨w, d.cylinder, d.index, toItem, m,
        if (w.items a.item).isStackable cfg.types ∧ q.2 < count then q.1 else RETURNVALUE_NOERROR⟩

/-- The checks of `internalMoveItem`: they end it, with a world and an answer, or give a plan. -/
def planMove (a : MoveArgs) (w : World) : World × ReturnValue ⊕ MovePlan :=
  let d := a.destination cfg w
  if d.destItem = some a.item then .inl (w, RETURNVALUE_NOERROR)
  else
    let count := a.moveCount cfg w d.cylinder
    let ret := queryRemove cfg w a.fromCylinder a.item 1 d.flags
    if ret ≠ RETURNVALUE_NOERROR then .inl (w, ret)
    else
      let ret := queryAdd cfg w d.cylinder d.index a.item count d.flags a.actor
      match d.destItem with
      | some toItem =>
        if ret = RETURNVALUE_NEEDEXCHANGE then
          match checkExchange cfg a w d toItem with
          | .refuse ret => .inl (w, ret)
          | .skip => checkMove cfg a w d toItem count
          | .exchange =>
            let w := exchangeItem cfg a w d toItem
            let ret := queryAdd cfg w d.cylinder d.index a.item count d.flags false
            if ret ≠ RETURNVALUE_NOERROR then .inl (w, ret) else checkMove cfg a w d none count
        else if ret ≠ RETURNVALUE_NOERROR then .inl (w, ret)
        else checkMove cfg a w d toItem count
      | none =>
        -- for an exchange the source would read through a null pointer here
        if ret ≠ RETURNVALUE_NOERROR then .inl (w, ret) else checkMove cfg a w d none count

/-- How many of `m` items go on the stack `toItem`. A stack above its size has room for all, as the
difference is unsigned. -/
def stackedCount (w : World) (toItem m : ℕ) : ℕ :=
  min (toUInt32 ((w.items toItem).getStackSize cfg.types - (w.items toItem).getItemCount)) m

/-- The part of `internalMoveItem` that puts `m` items of the stack `item` on the stack `toItem`, if
they are equal: the world and the number of items. -/
def stackOnto (w : World) (toCylinder : Cylinder) (item : ℕ) (toItem : Option ℕ) (m : ℕ) :
    World × ℕ :=
  match toItem.filter fun y => (w.items item).equals (w.items y) with
  | none => (w, 0)
  | some y =>
    let n := stackedCount cfg w y m
    (updateThing cfg.types w toCylinder y (w.items y).id ((w.items y).getItemCount + n), n)

/-- The part of `internalMoveItem` that makes a new stack of `newCount` of the items and adds it. -/
def addClone (w : World) (toCylinder : Cylinder) (index : ℤ) (item newCount : ℕ) : World :=
  addThing cfg.types (w.create (((w.items item).clone cfg.types).setItemCount newCount)) toCylinder
    index w.size

/-- The last part of `internalMoveItem`: removes the item, updates the stack at the destination and
adds what is left. -/
def transferItem (a : MoveArgs) (p : MovePlan) : World :=
  let w := removeThing cfg.types p.world a.fromCylinder a.item p.m
  if (w.items a.item).isStackable cfg.types then
    let s := stackOnto cfg w p.toCylinder a.item p.toItem p.m
    if 0 < p.m - s.2 then addClone cfg s.1 p.toCylinder p.index a.item (p.m - s.2) else s.1
  else addThing cfg.types w p.toCylinder p.index a.item

/-- `Game::internalMoveItem`. -/
def internalMoveItem (a : MoveArgs) (w : World) : World × ReturnValue :=
  match planMove cfg a w with
  | .inl r => r
  | .inr p => (transferItem cfg a p, p.ret)

/-! ## Adding -/

def ITEM_REWARD_CONTAINER : ℕ := 19202

/-- Whether a destination refuses an item for which it has not enough room: when it is an item
itself, but no reward container. -/
def isLimited (w : World) : Cylinder → Bool
  | .item n => (w.items n).id != ITEM_REWARD_CONTAINER
  | _ => false

/-- `Game::internalAddItem`, with at most `fuel` rounds of adding what a stack left over: the world,
the return value and `remainderCount`. -/
def addRounds : ℕ → World → Cylinder → ℕ → ℤ → ℕ → Bool → World × ReturnValue × ℕ
  | 0, w, _, _, _, _, _ => (w, RETURNVALUE_NOTPOSSIBLE, 0)
  | fuel + 1, w, destCylinder, item, index, flags, test =>
    let x := w.items item
    let d := queryDestination cfg w destCylinder index item none flags
    let ret := queryAdd cfg w d.cylinder d.index item x.getItemCount d.flags false
    if ret ≠ RETURNVALUE_NOERROR then (w, ret, 0)
    else
      let q := queryMaxCount cfg w destCylinder INDEX_WHEREEVER item x.getItemCount d.flags
      if q.1 ≠ RETURNVALUE_NOERROR ∧ isLimited w destCylinder then (w, q.1, 0)
      else if test then (w, RETURNVALUE_NOERROR, 0)
      else
        match d.destItem.filter fun y => x.isStackable cfg.types ∧ x.equals (w.items y) with
        | none => (addThing cfg.types w d.cylinder d.index item, RETURNVALUE_NOERROR, 0)
        | some toItem =>
          let m := min x.getItemCount q.2
          let n := stackedCount cfg w toItem m
          let w := updateThing cfg.types w d.cylinder toItem (w.items toItem).id
            ((w.items toItem).getItemCount + n)
          let count := m - n
          if count = 0 then (w, RETURNVALUE_NOERROR, 0)
          else if count = x.getItemCount then
            (addThing cfg.types w d.cylinder d.index item, RETURNVALUE_NOERROR, 0)
          else
            let remainderItem := w.size
            let w := w.create ((x.clone cfg.types).setItemCount count)
            let r := addRounds fuel w destCylinder remainderItem INDEX_WHEREEVER d.flags false
            (r.1, RETURNVALUE_NOERROR, if r.2.1 ≠ RETURNVALUE_NOERROR then count else 0)

/-- `Game::internalAddItem`: the world, the return value and `remainderCount`. Every round leaves
less over, so there are no more rounds than items. -/
def internalAddItem (w : World) (toCylinder : Cylinder) (item : ℕ) (index : ℤ) (flags : ℕ)
    (test : Bool) : World × ReturnValue × ℕ :=
  addRounds cfg ((w.items item).getItemCount + 1) w toCylinder item index flags test

end TiabloServer.Items
