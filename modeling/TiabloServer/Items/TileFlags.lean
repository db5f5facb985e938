import TiabloServer.Items.TileStack

/-!
# The flags of a tile

A tile keeps flags of what its ground and items provide (`items/tile.cpp`): `setTileFlags` sets
those of an item that comes, and `resetTileFlags` takes back those of an item that goes. For some
flags the other items are asked before, for the others they are not.

The things of the tile are those of its stack, so the operations here are those of the stack with
the flags.

## Main definitions

* `TileFlags.Agrees` — a flag is set if and only if the ground or an item provides it.
* `TileFlags.Fair` — the steps after which the flags agree.

## Main results

* `TileFlags.set_reset_iff` — the flags after one item has come for another.
* `TileFlags.stack_addThing`, `TileFlags.stack_removeThing`, … — the stack changes as it does
  without the flags.
* `TileFlags.agrees_step_iff` — the flags agree after exactly the fair steps.
* `TileFlags.run_flags_agree` — they agree in every state of a run of fair steps.
-/

namespace TiabloServer.TileFlags

open TiabloServer.Items (Item ItemType)
open TiabloServer.TileStack (Thing getThing getThingIndex insertTop insertDown)

/-! ## Flags -/

inductive FloorChange where
  | DOWN
  | NORTH
  | SOUTH
  | EAST
  | WEST
  | SOUTH_ALT
  | EAST_ALT
deriving DecidableEq

/-- The flags of `TileFlags_t` that things provide. -/
inductive Flag where
  | FLOORCHANGE (direction : FloorChange)
  | TELEPORT
  | MAGICFIELD
  | MAILBOX
  | TRASHHOLDER
  | BED
  | DEPOT
  | BLOCKSOLID
  | BLOCKPATH
  | IMMOVABLEBLOCKSOLID
  | IMMOVABLEBLOCKPATH
  | IMMOVABLENOFIELDBLOCKPATH
  | NOFIELDBLOCKPATH
  | SUPPORTS_HANGABLE
  | MOVABLE
  | ISHORIZONTAL
  | ISVERTICAL
  | BLOCKPROJECTILE
  | HASHEIGHT
deriving DecidableEq

namespace Flag

def isFloorChange : Flag → Bool
  | FLOORCHANGE _ => true
  | _ => false

/-- The flags for which `resetTileFlags` asks the other items. -/
def isAsked : Flag → Bool
  | BLOCKSOLID | IMMOVABLEBLOCKSOLID | BLOCKPATH | NOFIELDBLOCKPATH | IMMOVABLEBLOCKPATH
  | IMMOVABLENOFIELDBLOCKPATH | MOVABLE | ISHORIZONTAL | ISVERTICAL | BLOCKPROJECTILE | HASHEIGHT => true
  | _ => false

end Flag

abbrev FlagSet := Flag → Bool

namespace FlagSet

/-- `hasFlag(TILESTATE_FLOORCHANGE)`. -/
def hasFloorChange (flags : FlagSet) : Bool :=
  [.DOWN, .NORTH, .SOUTH, .EAST, .WEST, .SOUTH_ALT, .EAST_ALT].any fun d => flags (.FLOORCHANGE d)

/-- `setTileFlags` of an item that provides some flags: a floor change is set where there is none
yet. -/
def set (flags item : FlagSet) : FlagSet := fun f =>
  if f.isFloorChange then flags f || (!flags.hasFloorChange && item f) else flags f || item f

/-- `resetTileFlags` of an item that provides some flags, where `seen` are those that other items
provide. -/
def reset (flags item seen : FlagSet) : FlagSet := fun f =>
  if f.isFloorChange then flags f && !item.hasFloorChange
  else if f.isAsked then flags f && !(item f && !seen f)
  else flags f && !item f

/-- The flags that `resetTileFlags` takes without asking. -/
def takes (item : FlagSet) (f : Flag) : Bool :=
  if f.isFloorChange then item.hasFloorChange else !f.isAsked && item f

end FlagSet

/-- One item comes for another: a flag that is taken without asking, and that a third thing
provides, the new item provides too, and it brings no other floor change. -/
structure FairExchange (old others new : FlagSet) : Prop where
  kept : ∀ f, old.takes f = true → others f = true → new f = true
  fits : old.hasFloorChange = false → others.hasFloorChange = true →
    ∀ f, f.isFloorChange = true → new f = true → others f = true

/-- Some flag that is set is one of the floor changes. -/
theorem hasFloorChange_iff {flags : FlagSet} :
    flags.hasFloorChange = true ↔ ∃ f, f.isFloorChange = true ∧ flags f = true := by
  rw [FlagSet.hasFloorChange, List.any_eq_true]
  constructor
  · rintro ⟨d, -, hd⟩
    exact ⟨.FLOORCHANGE d, rfl, hd⟩
  · rintro ⟨f, hf, hflag⟩
    cases f with
    | FLOORCHANGE d => exact ⟨d, by cases d <;> simp, hflag⟩
    | _ => cases hf

theorem hasFloorChange_eq_false_iff {flags : FlagSet} :
    flags.hasFloorChange = false ↔ ∀ f, f.isFloorChange = true → flags f = false := by
  rw [← Bool.not_eq_true, hasFloorChange_iff]
  simp only [not_exists, not_and, Bool.not_eq_true]

/-- Nothing goes. -/
theorem reset_none (flags seen : FlagSet) : flags.reset (fun _ => false) seen = flags := by
  funext f
  have hnone : FlagSet.hasFloorChange (fun _ => false) = false := rfl
  rw [FlagSet.reset, hnone]
  split_ifs <;> simp

/-- Nothing comes. -/
theorem set_none (flags : FlagSet) : flags.set (fun _ => false) = flags := by
  funext f
  rw [FlagSet.set]
  split_ifs <;> simp

/-- A flag that is no floor change. -/
theorem set_reset_apply {flags old seen others new : FlagSet} (hflags : ∀ f, flags f = (old f || others f))
    (hge : ∀ f, others f = true → seen f = true) (hle : ∀ f, seen f = true → others f = true ∨ new f = true)
    {f : Flag} (hf : f.isFloorChange = false) :
    (flags.reset old seen).set new f = (new f || others f) ↔
      (old.takes f = true → others f = true → new f = true) := by
  have hge := hge f
  have hle := hle f
  have hnot : ¬ f.isFloorChange = true := by rw [hf]; exact Bool.false_ne_true
  rw [FlagSet.set, if_neg hnot, FlagSet.reset, if_neg hnot, FlagSet.takes, if_neg hnot, hflags f]
  revert hge hle
  cases f.isAsked <;> cases old f <;> cases others f <;> cases seen f <;> cases new f <;> decide

/-- **Floor changes** after one item has come for another. -/
theorem set_reset_floorChange_iff {flags old seen others new : FlagSet}
    (hflags : ∀ f, flags f = (old f || others f)) :
    (∀ f, f.isFloorChange = true → (flags.reset old seen).set new f = (new f || others f)) ↔
      (∀ f, f.isFloorChange = true → old.takes f = true → others f = true → new f = true) ∧
        (old.hasFloorChange = false → others.hasFloorChange = true →
          ∀ f, f.isFloorChange = true → new f = true → others f = true) := by
  have hreset : ∀ f, f.isFloorChange = true →
      flags.reset old seen f = ((old f || others f) && !old.hasFloorChange) := by
    intro f hf
    rw [FlagSet.reset, if_pos hf, hflags f]
  cases hold : old.hasFloorChange with
  | true =>
    -- All floor changes are taken, and those of the new item set.
    have hnone : (flags.reset old seen).hasFloorChange = false := by
      rw [hasFloorChange_eq_false_iff]
      intro f hf
      rw [hreset f hf, hold, Bool.not_true, Bool.and_false]
    have hset : ∀ f, f.isFloorChange = true → (flags.reset old seen).set new f = new f := by
      intro f hf
      rw [FlagSet.set, if_pos hf, hnone, hreset f hf, hold]
      simp
    have htakes : ∀ f, f.isFloorChange = true → old.takes f = true := by
      intro f hf
      rw [FlagSet.takes, if_pos hf, hold]
    constructor
    · refine fun h => ⟨fun f hf _ hother => ?_, fun hfalse => absurd hfalse (by simp)⟩
      have := h f hf
      rw [hset f hf, hother, Bool.or_true] at this
      exact this
    · rintro ⟨hkept, -⟩ f hf
      rw [hset f hf]
      have := hkept f hf (htakes f hf)
      revert this
      cases new f <;> cases others f <;> decide
  | false =>
    -- None is taken, and those of the new item are set if there is none.
    have hold' := hasFloorChange_eq_false_iff.1 hold
    have hsame : ∀ f, f.isFloorChange = true → flags.reset old seen f = others f := by
      intro f hf
      rw [hreset f hf, hold, hold' f hf]
      simp
    have hhas : (flags.reset old seen).hasFloorChange = others.hasFloorChange := by
      rw [Bool.eq_iff_iff, hasFloorChange_iff, hasFloorChange_iff]
      exact exists_congr fun f => and_congr_right fun hf => by rw [hsame f hf]
    have htakes : ∀ f, f.isFloorChange = true → old.takes f = false := by
      intro f hf
      rw [FlagSet.takes, if_pos hf, hold]
    have hset : ∀ f, f.isFloorChange = true →
        (flags.reset old seen).set new f = (others f || (!others.hasFloorChange && new f)) := by
      intro f hf
      rw [FlagSet.set, if_pos hf, hhas, hsame f hf]
    constructor
    · refine fun h => ⟨fun f hf htaken => ?_, fun _ hhasOther f hf hnew => ?_⟩
      · rw [htakes f hf] at htaken
        cases htaken
      · have := h f hf
        rw [hset f hf, hhasOther, hnew] at this
        simpa using this
    · rintro ⟨-, hfits⟩ f hf
      rw [hset f hf]
      cases hother : others.hasFloorChange with
      | true =>
        have := hfits rfl hother f hf
        revert this
        cases new f <;> cases others f <;> decide
      | false =>
        rw [hasFloorChange_eq_false_iff.1 hother f hf]
        simp

/-- **An exchange** of one item for another leaves the flags of all things if and only if it is
fair. -/
theorem set_reset_iff {flags old seen others new : FlagSet} (hflags : ∀ f, flags f = (old f || others f))
    (hge : ∀ f, others f = true → seen f = true) (hle : ∀ f, seen f = true → others f = true ∨ new f = true) :
    (∀ f, (flags.reset old seen).set new f = (new f || others f)) ↔ FairExchange old others new := by
  constructor
  · intro h
    obtain ⟨hkept, hfits⟩ := (set_reset_floorChange_iff hflags).1 fun f _ => h f
    refine ⟨fun f => ?_, hfits⟩
    cases hf : f.isFloorChange with
    | true => exact hkept f hf
    | false => exact (set_reset_apply hflags hge hle hf).1 (h f)
  · rintro ⟨hkept, hfits⟩ f
    cases hf : f.isFloorChange with
    | true => exact (set_reset_floorChange_iff hflags).2 ⟨fun f _ => hkept f, hfits⟩ f hf
    | false => exact (set_reset_apply hflags hge hle hf).2 (hkept f)

/-! ## Tiles -/

/-- The classes of item objects that provide a flag, other than magic fields. -/
inductive ItemClass where
  | Teleport
  | Mailbox
  | TrashHolder
  | BedItem
  | DepotLocker
  | other
deriving DecidableEq

/-- What else the flags read of a type. -/
structure TypeFlags where
  floorChange : Option FloorChange
  blockProjectile : Bool
  blockPathFind : Bool
  isVertical : Bool
  isHorizontal : Bool

structure Rules extends TileStack.Rules where
  typeFlags : ℕ → TypeFlags

/-- A tile; of an item it matters too of which class it is, and whether it has a unique id or the
action id that makes it immovable. -/
structure Tile where
  stack : TileStack.Tile
  itemClass : ℕ → ItemClass
  isFixed : ℕ → Bool
  flags : FlagSet

inductive ItemProperty where
  | BLOCKSOLID
  | HASHEIGHT
  | BLOCKPROJECTILE
  | BLOCKPATH
  | ISVERTICAL
  | ISHORIZONTAL
  | MOVABLE
  | IMMOVABLEBLOCKSOLID
  | IMMOVABLEBLOCKPATH
  | IMMOVABLENOFIELDBLOCKPATH
  | NOFIELDBLOCKPATH
  | SUPPORTHANGABLE
deriving DecidableEq

section Operations

variable (rules : Rules) (t : Tile)

namespace Tile

/-- The entry of an item in `Item::items`. -/
abbrev type (x : ℕ) : ItemType := t.stack.type rules.toRules x

def typeFlags (x : ℕ) : TypeFlags := rules.typeFlags (t.stack.info x).id

/-- The ground and the items. -/
def things : List ℕ := t.stack.ground.toList ++ t.stack.items

end Tile

/-- `Item::canBeMoved`. -/
def canBeMoved (x : ℕ) : Bool := !t.isFixed x && (t.type rules x).movable

/-- `Item::hasProperty`. -/
def hasProperty (x : ℕ) : ItemProperty → Bool
  | .BLOCKSOLID => (t.type rules x).blockSolid
  | .HASHEIGHT => (t.type rules x).hasHeight
  | .BLOCKPROJECTILE => (t.typeFlags rules x).blockProjectile
  | .BLOCKPATH => (t.typeFlags rules x).blockPathFind
  | .ISVERTICAL => (t.typeFlags rules x).isVertical
  | .ISHORIZONTAL => (t.typeFlags rules x).isHorizontal
  | .MOVABLE => canBeMoved rules t x
  | .IMMOVABLEBLOCKSOLID => (t.type rules x).blockSolid && !canBeMoved rules t x
  | .IMMOVABLEBLOCKPATH => (t.typeFlags rules x).blockPathFind && !canBeMoved rules t x
  | .IMMOVABLENOFIELDBLOCKPATH =>
    (t.type rules x).type ≠ .ITEM_TYPE_MAGICFIELD && (t.typeFlags rules x).blockPathFind &&
      !canBeMoved rules t x
  | .NOFIELDBLOCKPATH =>
    (t.type rules x).type ≠ .ITEM_TYPE_MAGICFIELD && (t.typeFlags rules x).blockPathFind
  | .SUPPORTHANGABLE => (t.typeFlags rules x).isHorizontal || (t.typeFlags rules x).isVertical

/-- Whether an item provides a flag: the conditions of `setTileFlags` and `resetTileFlags`. -/
def provides (x : ℕ) : FlagSet
  | .FLOORCHANGE d => (t.typeFlags rules x).floorChange = some d
  | .TELEPORT => t.itemClass x = .Teleport
  | .MAGICFIELD => t.stack.isField x
  | .MAILBOX => t.itemClass x = .Mailbox
  | .TRASHHOLDER => t.itemClass x = .TrashHolder
  | .BED => t.itemClass x = .BedItem
  | .DEPOT => t.itemClass x = .DepotLocker
  | .BLOCKSOLID => hasProperty rules t x .BLOCKSOLID
  | .BLOCKPATH => hasProperty rules t x .BLOCKPATH
  | .IMMOVABLEBLOCKSOLID => hasProperty rules t x .IMMOVABLEBLOCKSOLID
  | .IMMOVABLEBLOCKPATH => hasProperty rules t x .IMMOVABLEBLOCKPATH
  | .IMMOVABLENOFIELDBLOCKPATH => hasProperty rules t x .IMMOVABLENOFIELDBLOCKPATH
  | .NOFIELDBLOCKPATH => hasProperty rules t x .NOFIELDBLOCKPATH
  | .SUPPORTS_HANGABLE => hasProperty rules t x .SUPPORTHANGABLE
  | .MOVABLE => hasProperty rules t x .MOVABLE
  | .ISHORIZONTAL => hasProperty rules t x .ISHORIZONTAL
  | .ISVERTICAL => hasProperty rules t x .ISVERTICAL
  | .BLOCKPROJECTILE => hasProperty rules t x .BLOCKPROJECTILE
  | .HASHEIGHT => hasProperty rules t x .HASHEIGHT

/-- `Tile::hasProperty` with an item that is excluded. -/
def hasPropertyExcluding (exclude : ℕ) : FlagSet := fun f =>
  t.things.any fun y => y ≠ exclude && provides rules t y f

def setTileFlags (x : ℕ) : Tile := { t with flags := t.flags.set (provides rules t x) }

def resetTileFlags (x : ℕ) : Tile :=
  { t with flags := t.flags.reset (provides rules t x) (hasPropertyExcluding rules t x) }

/-- `Tile::removeThing`, of an item that has an index. -/
def removeItem (x count : ℕ) : Tile :=
  if t.stack.ground = some x then
    resetTileFlags rules { t with stack := { t.stack with ground := none } } x
  else if t.stack.isAlwaysOnTop rules.toRules x then
    if x ∈ t.stack.topItems then
      resetTileFlags rules
        { t with stack := { t.stack with items := t.stack.downItems ++ t.stack.topItems.erase x } } x
    else t
  else if x ∈ t.stack.downItems then
    if (t.type rules x).stackable ∧ count ≠ (t.stack.info x).getItemCount then
      { t with
        stack := t.stack.setItem x ((t.stack.info x).setItemCount ((t.stack.info x).getItemCount - count)) }
    else
      resetTileFlags rules
        { t with
          stack := { t.stack with
            items := t.stack.downItems.erase x ++ t.stack.topItems
            downItemCount := t.stack.downItemCount - 1 } } x
  else t

/-- `Tile::removeThing`. -/
def removeThing (thing : Thing) (count : ℕ) : Tile :=
  match thing with
  | .creature _ => { t with stack := TileStack.removeThing rules.toRules t.stack thing count }
  | .item x => if getThingIndex rules.toRules t.stack (.item x) = none then t else removeItem rules t x count

/-- An item is inserted, and its flags are set: `insert` is where. -/
def insertItem (insert : TileStack.Tile → ℕ → TileStack.Tile) (x : ℕ) : Tile :=
  setTileFlags rules { t with stack := insert t.stack x } x

/-- The item that goes when another one is added on the tile. -/
def oldItem (x : ℕ) : Option ℕ :=
  if t.stack.isAlwaysOnTop rules.toRules x then
    if (t.type rules x).group = .ITEM_GROUP_SPLASH then
      t.stack.topItems.find? fun y => (t.type rules y).group = .ITEM_GROUP_SPLASH
    else none
  else if (t.type rules x).type = .ITEM_TYPE_MAGICFIELD then t.stack.downItems.find? t.stack.isField
  else none

/-- `Tile::addThing`. -/
def addThing (thing : Thing) : Tile :=
  match thing with
  | .creature _ => { t with stack := TileStack.addThing rules.toRules t.stack thing }
  | .item x =>
    if t.stack.items.length ≥ 0xFFFF then t
    else if (t.type rules x).group = .ITEM_GROUP_GROUND then
      let added : Tile := { t with stack := { t.stack with ground := some x } }
      match t.stack.ground with
      | none => setTileFlags rules added x
      | some oldGround => setTileFlags rules (resetTileFlags rules added oldGround) x
    else if t.stack.isAlwaysOnTop rules.toRules x then
      let insert (stack : TileStack.Tile) :=
        insertTop stack (fun y => stack.order rules.toRules y < stack.order rules.toRules x)
      match oldItem rules t x with
      | none => insertItem rules t insert x
      | some oldSplash => insertItem rules (removeThing rules t (.item oldSplash) 1) insert x
    else
      match oldItem rules t x with
      | none => insertItem rules t insertDown x
      | some oldField =>
        if (t.type rules oldField).replaceable then
          insertItem rules (removeThing rules t (.item oldField) 1) insertDown x
        else t

/-- `Tile::internalAddThing`. -/
def internalAddThing (thing : Thing) : Tile :=
  match thing with
  | .creature _ => { t with stack := TileStack.internalAddThing rules.toRules t.stack thing }
  | .item x =>
    if (t.type rules x).group = .ITEM_GROUP_GROUND then
      if t.stack.ground = none then
        setTileFlags rules { t with stack := { t.stack with ground := some x } } x
      else t
    else if t.stack.items.length ≥ 0xFFFF then t
    else if t.stack.isAlwaysOnTop rules.toRules x then
      insertItem rules t (fun stack => insertTop stack
        (fun y => stack.order rules.toRules y ≤ stack.order rules.toRules x)) x
    else insertItem rules t insertDown x

/-- An item gets another id and subtype. -/
def setItemId (x itemId count : ℕ) : Tile :=
  { t with
    stack := t.stack.setItem x ({ t.stack.info x with id := itemId }.setSubType rules.types (count % 0x10000)) }

/-- `Tile::updateThing`, of an item. -/
def updateThing (x itemId count : ℕ) : Tile :=
  if getThingIndex rules.toRules t.stack (.item x) = none then t
  else setTileFlags rules (setItemId rules (resetTileFlags rules t x) x itemId count) x

/-- `Tile::replaceThing`, with another item: at the place of an item, which the index leads to. -/
def replaceThing (index x : ℕ) : Tile :=
  match getThing t.stack index with
  | some (.item old) =>
    setTileFlags rules
      (resetTileFlags rules { t with stack := TileStack.replaceThing t.stack index x } old) x
  | _ => t

/-! ## Runs -/

/-- The operations on a tile. -/
inductive Step where
  | addThing (thing : Thing)
  | internalAddThing (thing : Thing)
  | updateThing (x itemId count : ℕ)
  | replaceThing (index x : ℕ)
  | removeThing (thing : Thing) (count : ℕ)

def step : Step → Tile
  | .addThing thing => addThing rules t thing
  | .internalAddThing thing => internalAddThing rules t thing
  | .updateThing x itemId count => updateThing rules t x itemId count
  | .replaceThing index x => replaceThing rules t index x
  | .removeThing thing count => removeThing rules t thing count

/-- A tile without things. -/
def empty (info : ℕ → Item) (isField canTransform : ℕ → Bool) (itemClass : ℕ → ItemClass)
    (isFixed : ℕ → Bool) : Tile :=
  ⟨TileStack.empty info isField canTransform, itemClass, isFixed, fun _ => false⟩

/-- **The flags agree**: those are set that the ground or an item provides. -/
def Agrees : Prop := ∀ f, t.flags f = true ↔ ∃ y ∈ t.things, provides rules t y f = true

/-! ## Fair steps -/

/-- Whether `removeThing` takes an item from the tile: it is found, and a stack is taken whole. -/
def removes (x count : ℕ) : Bool :=
  (getThingIndex rules.toRules t.stack (.item x)).isSome &&
    (t.stack.ground = some x || t.stack.isAlwaysOnTop rules.toRules x ||
      !((t.type rules x).stackable && count ≠ (t.stack.info x).getItemCount))

/-- Whether an item that is added comes to the tile: there is place, and no field that stays. -/
def accepts (x : ℕ) : Bool :=
  t.stack.items.length < 0xFFFF &&
    ((t.type rules x).group = .ITEM_GROUP_GROUND || t.stack.isAlwaysOnTop rules.toRules x ||
      (oldItem rules t x).all fun oldField => (t.type rules oldField).replaceable)

/-- The item that goes in a step. -/
def goes : Step → Option ℕ
  | .addThing (.item x) =>
    if !accepts rules t x then none
    else if (t.type rules x).group = .ITEM_GROUP_GROUND then t.stack.ground
    else (oldItem rules t x).filter fun y => removes rules t y 1
  | .updateThing x _ _ => if getThingIndex rules.toRules t.stack (.item x) = none then none else some x
  | .replaceThing index _ =>
    match getThing t.stack index with
    | some (.item old) => some old
    | _ => none
  | .removeThing (.item x) count => if removes rules t x count then some x else none
  | _ => none

/-- The item that comes in a step. -/
def comes : Step → Option ℕ
  | .addThing (.item x) => if accepts rules t x then some x else none
  | .internalAddThing (.item x) =>
    if (t.type rules x).group = .ITEM_GROUP_GROUND then if t.stack.ground = none then some x else none
    else if t.stack.items.length ≥ 0xFFFF then none else some x
  | .updateThing x _ _ => if getThingIndex rules.toRules t.stack (.item x) = none then none else some x
  | .replaceThing index x =>
    match getThing t.stack index with
    | some (.item _) => some x
    | _ => none
  | _ => none

/-- The fields of the items after a step. -/
def renewed : Step → Tile
  | .updateThing x itemId count =>
    if getThingIndex rules.toRules t.stack (.item x) = none then t else setItemId rules t x itemId count
  | _ => t

/-- What one item provides, or none. -/
def given (x : Option ℕ) : FlagSet := x.elim (fun _ => false) (provides rules t)

/-- What the things provide that stay when one goes. -/
def staying (old : Option ℕ) : FlagSet := fun f =>
  t.things.any fun y => old ≠ some y && provides rules t y f

/-- **Fair steps**: an item that comes is not on the tile already, and the exchange is fair. -/
structure Fair (a : Step) : Prop where
  fresh : ∀ x, comes rules t a = some x → x ∈ t.things → goes rules t a = some x
  exchange : FairExchange (given rules t (goes rules t a)) (staying rules t (goes rules t a))
    (given rules (renewed rules t a) (comes rules t a))

end Operations

/-! ## The stack -/

section Stack

variable (rules : Rules) (t : Tile)

theorem type_eq (x : ℕ) : t.type rules x = t.stack.type rules.toRules x := rfl

theorem stack_removeItem (x count : ℕ) :
    (removeItem rules t x count).stack = TileStack.removeItem rules.toRules t.stack x count := by
  rw [removeItem, TileStack.removeItem, type_eq]
  split_ifs <;> rfl

theorem stack_removeThing (thing : Thing) (count : ℕ) :
    (removeThing rules t thing count).stack = TileStack.removeThing rules.toRules t.stack thing count := by
  cases thing with
  | creature c => rfl
  | item x =>
    rw [removeThing, TileStack.removeThing]
    split_ifs
    · rfl
    · exact stack_removeItem rules t x count

theorem stack_addThing (thing : Thing) :
    (addThing rules t thing).stack = TileStack.addThing rules.toRules t.stack thing := by
  cases thing with
  | creature c => rfl
  | item x =>
    rw [addThing, TileStack.addThing, oldItem]
    simp only [type_eq]
    by_cases hfull : t.stack.items.length ≥ 0xFFFF
    · rw [if_pos hfull, if_pos hfull]
    rw [if_neg hfull, if_neg hfull]
    by_cases hground : (t.stack.type rules.toRules x).group = .ITEM_GROUP_GROUND
    · rw [if_pos hground, if_pos hground]
      cases t.stack.ground <;> rfl
    rw [if_neg hground, if_neg hground]
    by_cases htop : t.stack.isAlwaysOnTop rules.toRules x = true
    · rw [if_pos htop, if_pos htop, if_pos htop]
      by_cases hsplash : (t.stack.type rules.toRules x).group = .ITEM_GROUP_SPLASH
      · rw [if_pos hsplash, if_pos hsplash, TileStack.removeSplash]
        generalize (t.stack.topItems.find? fun y =>
          (t.stack.type rules.toRules y).group = .ITEM_GROUP_SPLASH) = found
        cases found with
        | none => rfl
        | some old =>
          dsimp only [insertItem, setTileFlags]
          rw [stack_removeThing]
      · rw [if_neg hsplash, if_neg hsplash]
        rfl
    rw [if_neg htop, if_neg htop, if_neg htop]
    by_cases hfield : (t.stack.type rules.toRules x).type = .ITEM_TYPE_MAGICFIELD
    · rw [if_pos hfield, if_pos hfield]
      cases t.stack.downItems.find? t.stack.isField with
      | none => rfl
      | some old =>
        dsimp only
        split_ifs
        · dsimp only [insertItem, setTileFlags]
          rw [stack_removeThing]
        · rfl
    · rw [if_neg hfield, if_neg hfield]
      rfl

theorem stack_internalAddThing (thing : Thing) :
    (internalAddThing rules t thing).stack = TileStack.internalAddThing rules.toRules t.stack thing := by
  cases thing with
  | creature c => rfl
  | item x =>
    rw [internalAddThing, TileStack.internalAddThing, type_eq]
    split_ifs <;> rfl

theorem stack_updateThing (x itemId count : ℕ) : (updateThing rules t x itemId count).stack =
      TileStack.updateThing rules.toRules t.stack x itemId count := by
  rw [updateThing, TileStack.updateThing]
  split_ifs <;> rfl

/-- `replaceThing` leaves the stack where the index leads to no item. -/
theorem replaceThing_of_getThing {stack : TileStack.Tile} {index : ℕ} (x : ℕ)
    (h : ∀ old, getThing stack index ≠ some (.item old)) : TileStack.replaceThing stack index x = stack := by
  have habove : ∀ pos, (∀ old, (if pos < stack.topItems.length then stack.topItems[pos]?.map Thing.item
      else if pos - stack.topItems.length < stack.creatures.length then
        stack.creatures[pos - stack.topItems.length]?.map Thing.creature
      else stack.downItems[pos - stack.topItems.length - stack.creatures.length]?.map Thing.item) ≠
        some (.item old)) →
      ¬ pos < stack.topItems.length ∧ (¬ pos - stack.topItems.length < stack.creatures.length →
        ¬ pos - stack.topItems.length - stack.creatures.length < stack.downItems.length) := by
    intro pos hpos
    have htop : ¬ pos < stack.topItems.length := by
      intro hlt
      have := hpos stack.topItems[pos]
      rw [if_pos hlt, List.getElem?_eq_getElem hlt] at this
      exact this rfl
    refine ⟨htop, fun hcreature hlt => ?_⟩
    have := hpos (stack.downItems[pos - stack.topItems.length - stack.creatures.length])
    rw [if_neg htop, if_neg hcreature, List.getElem?_eq_getElem hlt] at this
    exact this rfl
  rw [TileStack.replaceThing]
  cases hground : stack.ground with
  | none =>
    have := habove index fun old => by simpa [getThing, hground] using h old
    dsimp only
    rw [if_neg this.1]
    split_ifs with hcreature hdown
    · rfl
    · exact absurd hdown (this.2 hcreature)
    · rfl
  | some ground =>
    by_cases hzero : index = 0
    · exact absurd (by simp [getThing, hground, hzero]) (h ground)
    · have := habove (index - 1) fun old => by simpa [getThing, hground, hzero] using h old
      dsimp only
      rw [if_neg hzero, if_neg this.1]
      split_ifs with hcreature hdown
      · rfl
      · exact absurd hdown (this.2 hcreature)
      · rfl

theorem stack_replaceThing (index x : ℕ) :
    (replaceThing rules t index x).stack = TileStack.replaceThing t.stack index x := by
  rw [replaceThing]
  cases hthing : getThing t.stack index with
  | none => exact (replaceThing_of_getThing x fun old => by simp [hthing]).symm
  | some thing =>
    cases thing with
    | item old => rfl
    | creature c => exact (replaceThing_of_getThing x fun old => by simp [hthing]).symm

end Stack

/-! ## Exchanges -/

section Exchange

variable {rules : Rules} {t t' u : Tile} {old new : Option ℕ}

/-- What provides an item depends on its id and its object. -/
theorem provides_congr {y : ℕ} (hid : (u.stack.info y).id = (t.stack.info y).id)
    (hfield : u.stack.isField y = t.stack.isField y) (hclass : u.itemClass y = t.itemClass y)
    (hfixed : u.isFixed y = t.isFixed y) : provides rules u y = provides rules t y := by
  have htype : u.type rules y = t.type rules y := by
    rw [Tile.type, TileStack.Tile.type, Item.type, hid]
    rfl
  have hflags : u.typeFlags rules y = t.typeFlags rules y := by rw [Tile.typeFlags, hid, Tile.typeFlags]
  have hmoved : canBeMoved rules u y = canBeMoved rules t y := by
    rw [canBeMoved, canBeMoved, hfixed, htype]
  funext f
  cases f <;> simp only [provides, hasProperty, htype, hflags, hmoved, hfield, hclass]

/-- **An exchange**: at most one item goes and at most one comes, whose flags are taken back and
set. The fields of the items are those of `u` then. -/
structure Exchanged (rules : Rules) (t t' u : Tile) (old new : Option ℕ) : Prop where
  provides_eq : ∀ y, provides rules t' y = provides rules u y
  stays : ∀ y, old ≠ some y → provides rules u y = provides rules t y
  things : ∃ rest, t.things.Perm (old.toList ++ rest) ∧ t'.things.Perm (new.toList ++ rest)
  flags : ∃ seen : FlagSet, (∀ f, staying rules t old f = true → seen f = true) ∧
    (∀ f, seen f = true → staying rules t old f = true ∨ given rules u new f = true) ∧
    t'.flags = (t.flags.reset (given rules t old) seen).set (given rules u new)

theorem given_iff {x : Option ℕ} {f : Flag} :
    given rules t x f = true ↔ ∃ y ∈ x.toList, provides rules t y f = true := by
  cases x <;> simp [given]

/-- What stays is what is left of the things without the one that goes. -/
theorem staying_iff (old : Option ℕ) {rest : List ℕ} (hperm : t.things.Perm (old.toList ++ rest)) (hnodup : t.things.Nodup)
    {f : Flag} : staying rules t old f = true ↔ ∃ y ∈ rest, provides rules t y f = true := by
  have hdisjoint := (List.nodup_append.1 (hperm.nodup_iff.1 hnodup)).2.2
  simp only [staying, List.any_eq_true, Bool.and_eq_true, decide_eq_true_iff]
  constructor
  · rintro ⟨y, hy, hne, hflag⟩
    rcases List.mem_append.1 (hperm.mem_iff.1 hy) with hold | hrest
    · exact absurd (Option.mem_toList.1 hold) hne
    · exact ⟨y, hrest, hflag⟩
  · rintro ⟨y, hy, hflag⟩
    refine ⟨y, hperm.mem_iff.2 (List.mem_append_right _ hy), fun hold => ?_, hflag⟩
    exact hdisjoint y (Option.mem_toList.2 hold) y hy rfl

/-- **The flags agree after an exchange** if and only if it is fair. -/
theorem Exchanged.flags_agree_iff (h : Exchanged rules t t' u old new) (hagrees : Agrees rules t)
    (hnodup : t.things.Nodup) :
    Agrees rules t' ↔ FairExchange (given rules t old) (staying rules t old) (given rules u new) := by
  obtain ⟨rest, hbefore, hafter⟩ := h.things
  obtain ⟨seen, hge, hle, hflags⟩ := h.flags
  have hdisjoint := (List.nodup_append.1 (hbefore.nodup_iff.1 hnodup)).2.2
  have hstart : ∀ f, t.flags f = (given rules t old f || staying rules t old f) := by
    intro f
    rw [Bool.eq_iff_iff, hagrees f, Bool.or_eq_true, given_iff, staying_iff old hbefore hnodup]
    simp only [hbefore.mem_iff, List.mem_append, or_and_right, exists_or]
  rw [← set_reset_iff hstart hge hle, Agrees]
  refine forall_congr' fun f => ?_
  have hend : (∃ y ∈ t'.things, provides rules t' y f = true) ↔
      given rules u new f = true ∨ staying rules t old f = true := by
    rw [given_iff, staying_iff old hbefore hnodup]
    simp only [hafter.mem_iff, List.mem_append, or_and_right, exists_or]
    refine or_congr ?_ ?_
    · simp only [h.provides_eq]
    · refine exists_congr fun y => and_congr_right fun hy => ?_
      rw [h.provides_eq, h.stays y fun hold => hdisjoint y (Option.mem_toList.2 hold) y hy rfl]
  rw [hend, hflags, ← Bool.or_eq_true]
  exact Bool.eq_iff_iff.symm

/-- What comes was not there, or is what goes. -/
theorem Exchanged.nodup (h : Exchanged rules t t' u old new) (hnodup : t.things.Nodup)
    (hfresh : ∀ x, new = some x → x ∈ t.things → old = some x) : t'.things.Nodup := by
  obtain ⟨rest, hbefore, hafter⟩ := h.things
  obtain ⟨-, hrest, hdisjoint⟩ := List.nodup_append.1 (hbefore.nodup_iff.1 hnodup)
  rw [hafter.nodup_iff]
  cases new with
  | none => exact hrest
  | some x =>
    refine List.nodup_cons.2 ⟨fun hx => ?_, hrest⟩
    have hold := hfresh x rfl (hbefore.mem_iff.2 (List.mem_append_right _ hx))
    exact hdisjoint x (Option.mem_toList.2 hold) x hx rfl

/-- Nothing of the flags changes. -/
theorem Exchanged.unchanged (hprovides : ∀ y, provides rules t' y = provides rules t y)
    (hthings : t'.things = t.things) (hflags : t'.flags = t.flags) : Exchanged rules t t' t none none where
  provides_eq := hprovides
  stays _ _ := rfl
  things := ⟨t.things, List.Perm.refl _, by rw [hthings]; exact List.Perm.refl _⟩
  flags := ⟨staying rules t none, fun _ => id, fun _ => Or.inl, by
    rw [given, Option.elim_none, reset_none, set_none, hflags]⟩

/-- After something may have gone, an item comes. -/
theorem Exchanged.insert (h : Exchanged rules t u t old none) {x : ℕ}
    (hprovides : ∀ y, provides rules t' y = provides rules u y) (hthings : t'.things.Perm (x :: u.things))
    (hflags : t'.flags = u.flags) : Exchanged rules t (setTileFlags rules t' x) t old (some x) where
  provides_eq y := (hprovides y).trans (h.provides_eq y)
  stays _ _ := rfl
  things := by
    obtain ⟨rest, hbefore, hafter⟩ := h.things
    exact ⟨rest, hbefore, hthings.trans (hafter.cons x)⟩
  flags := by
    obtain ⟨seen, hge, hle, hseen⟩ := h.flags
    refine ⟨seen, hge, fun f hf => Or.inl ((hle f hf).resolve_right (by simp [given])), ?_⟩
    rw [setTileFlags, hflags, hseen, hprovides, h.provides_eq]
    rw [given, given, Option.elim_none, set_none]
    rfl

/-- An item comes. -/
theorem exchanged_set {x : ℕ} (hprovides : ∀ y, provides rules t' y = provides rules t y)
    (hthings : t'.things.Perm (x :: t.things)) (hflags : t'.flags = t.flags) :
    Exchanged rules t (setTileFlags rules t' x) t none (some x) :=
  (Exchanged.unchanged (fun _ => rfl) rfl rfl).insert hprovides hthings hflags

/-- What is seen besides the item that goes. -/
theorem hasPropertyExcluding_iff {x : ℕ} {f : Flag} : hasPropertyExcluding rules t x f = true ↔
    ∃ y ∈ t.things, y ≠ x ∧ provides rules t y f = true := by
  simp [hasPropertyExcluding]

/-- An item goes. -/
theorem exchanged_reset {x : ℕ} (hnodup : t.things.Nodup)
    (hprovides : ∀ y, provides rules t' y = provides rules t y) (hthings : t.things.Perm (x :: t'.things))
    (hflags : t'.flags = t.flags) : Exchanged rules t (resetTileFlags rules t' x) t (some x) none where
  provides_eq := hprovides
  stays _ _ := rfl
  things := ⟨t'.things, hthings, List.Perm.refl _⟩
  flags := by
    have hnot : x ∉ t'.things := (List.nodup_cons.1 (hthings.nodup_iff.1 hnodup)).1
    have hseen : ∀ f, hasPropertyExcluding rules t' x f = true ↔ staying rules t (some x) f = true := by
      intro f
      rw [hasPropertyExcluding_iff, staying_iff (some x) hthings hnodup]
      refine exists_congr fun y => and_congr_right fun hy => ?_
      rw [hprovides]
      exact and_iff_right fun hyx => hnot (hyx ▸ hy)
    refine ⟨hasPropertyExcluding rules t' x, fun f => (hseen f).2, fun f hf => Or.inl ((hseen f).1 hf), ?_⟩
    rw [given, given, Option.elim_none, set_none, resetTileFlags, hflags, hprovides]
    rfl

/-- An item takes the place of another. -/
theorem exchanged_replace {x y : ℕ} {rest : List ℕ} (hnodup : t.things.Nodup)
    (hprovides : ∀ y, provides rules t' y = provides rules t y) (hbefore : t.things.Perm (y :: rest))
    (hafter : t'.things.Perm (x :: rest)) (hflags : t'.flags = t.flags) :
    Exchanged rules t (setTileFlags rules (resetTileFlags rules t' y) x) t (some y) (some x) where
  provides_eq := hprovides
  stays _ _ := rfl
  things := ⟨rest, hbefore, hafter⟩
  flags := by
    have hnot : y ∉ rest := (List.nodup_cons.1 (hbefore.nodup_iff.1 hnodup)).1
    refine ⟨hasPropertyExcluding rules t' y, fun f hf => ?_, fun f hf => ?_, ?_⟩
    · rw [staying_iff (some y) hbefore hnodup] at hf
      obtain ⟨z, hz, hflag⟩ := hf
      refine hasPropertyExcluding_iff.2 ⟨z, hafter.mem_iff.2 (List.mem_cons_of_mem _ hz), ?_, ?_⟩
      · exact fun hzy => hnot (hzy ▸ hz)
      · rwa [hprovides]
    · obtain ⟨z, hz, hzy, hflag⟩ := hasPropertyExcluding_iff.1 hf
      rw [hprovides] at hflag
      rcases List.mem_cons.1 (hafter.mem_iff.1 hz) with rfl | hz
      · exact Or.inr hflag
      · exact Or.inl ((staying_iff (some y) hbefore hnodup).2 ⟨z, hz, hflag⟩)
    · have hsame : provides rules (resetTileFlags rules t' y) x = provides rules t x := hprovides x
      rw [setTileFlags, hsame, resetTileFlags, hflags, hprovides]
      rfl

end Exchange

/-! ## Steps -/

section Steps

variable {rules : Rules} {t : Tile}

theorem perm_insertTop (stack : TileStack.Tile) (above : ℕ → Bool) (x : ℕ) :
    (stack.ground.toList ++ (insertTop stack above x).items).Perm (x :: (stack.ground.toList ++ stack.items)) := by
  have hitems : (stack.topItems.takeWhile above ++ x :: stack.topItems.dropWhile above).Perm
      (x :: stack.topItems) := by
    refine List.perm_middle.trans ?_
    rw [List.takeWhile_append_dropWhile]
  rw [insertTop]
  dsimp only
  calc (stack.ground.toList ++ (stack.downItems ++
        (stack.topItems.takeWhile above ++ x :: stack.topItems.dropWhile above))).Perm
        (stack.ground.toList ++ (stack.downItems ++ x :: stack.topItems)) :=
          (hitems.append_left _).append_left _
    List.Perm _ (stack.ground.toList ++ x :: (stack.downItems ++ stack.topItems)) :=
          List.perm_middle.append_left _
    List.Perm _ (x :: (stack.ground.toList ++ (stack.downItems ++ stack.topItems))) := List.perm_middle
    List.Perm _ (x :: (stack.ground.toList ++ stack.items)) := by
          rw [TileStack.downItems_append_topItems]

theorem perm_insertDown (stack : TileStack.Tile) (x : ℕ) : (stack.ground.toList ++ (insertDown stack x).items).Perm
      (x :: (stack.ground.toList ++ stack.items)) := List.perm_middle

/-- An item that is removed from its part of the vector. -/
theorem perm_erase (l : List ℕ) (down top : List ℕ) {x : ℕ} :
    (x ∈ top → (l ++ (down ++ top)).Perm (x :: (l ++ (down ++ top.erase x)))) ∧
      (x ∈ down → (l ++ (down ++ top)).Perm (x :: (l ++ (down.erase x ++ top)))) := by
  constructor
  · intro hx
    have := (List.perm_cons_erase hx).append_left down
    exact ((this.trans List.perm_middle).append_left l).trans List.perm_middle
  · intro hx
    have := (List.perm_cons_erase hx).append_right top
    exact (this.append_left l).trans List.perm_middle

/-- An item that keeps its id. -/
theorem id_setItem {stack : TileStack.Tile} {x : ℕ} {item : Item} (hid : item.id = (stack.info x).id) (y : ℕ) :
    ((stack.setItem x item).info y).id = (stack.info y).id := by
  rw [TileStack.Tile.setItem]
  dsimp only
  by_cases hyx : y = x
  · rw [hyx, Function.update_self, hid]
  · rw [Function.update_of_ne hyx]

theorem getThingIndex_isSome (rules : Rules) (t : Tile) {x : ℕ} :
    (getThingIndex rules.toRules t.stack (.item x)).isSome = true ↔ t.stack.ground = some x ∨
      (if t.stack.isAlwaysOnTop rules.toRules x then x ∈ t.stack.topItems else x ∈ t.stack.downItems) := by
  rw [getThingIndex]
  split_ifs with hground htop <;> simp [hground, List.isSome_idxOf?]

theorem exchanged_removeThing (hnodup : t.things.Nodup) (x count : ℕ) :
    Exchanged rules t (removeThing rules t (.item x) count) t (if removes rules t x count then some x else none)
      none := by
  have hthings : t.things = t.stack.ground.toList ++ (t.stack.downItems ++ t.stack.topItems) := by
    rw [TileStack.downItems_append_topItems, Tile.things]
  have hindex := getThingIndex_isSome rules t (x := x)
  rw [removeThing, removes]
  by_cases hnone : getThingIndex rules.toRules t.stack (.item x) = none
  · rw [if_pos hnone, hnone]
    exact .unchanged (fun _ => rfl) rfl rfl
  rw [if_neg hnone, Option.isSome_iff_ne_none.2 hnone, Bool.true_and]
  rw [Option.isSome_iff_ne_none, iff_true_left hnone] at hindex
  rw [removeItem]
  by_cases hground : t.stack.ground = some x
  · rw [if_pos hground, hground]
    simp only [decide_true, Bool.true_or, if_true]
    refine exchanged_reset hnodup (fun _ => rfl) ?_ rfl
    rw [Tile.things, hground]
    exact List.Perm.refl _
  rw [if_neg hground]
  have hplace := hindex.resolve_left hground
  by_cases htop : t.stack.isAlwaysOnTop rules.toRules x = true
  · rw [if_pos htop] at hplace ⊢
    rw [if_pos hplace, htop]
    simp only [Bool.or_true, Bool.true_or, if_true]
    refine exchanged_reset hnodup (fun _ => rfl) ?_ rfl
    rw [hthings]
    exact (perm_erase _ _ _).1 hplace
  rw [if_neg htop] at hplace ⊢
  rw [if_pos hplace]
  by_cases hstack : (t.type rules x).stackable = true ∧ count ≠ (t.stack.info x).getItemCount
  · rw [if_pos hstack, if_neg (by simp [hground, htop, hstack])]
    have hid : ∀ n, ((t.stack.info x).setItemCount n).id = (t.stack.info x).id := fun _ => rfl
    exact .unchanged (fun y => provides_congr (id_setItem (hid _) y) rfl rfl rfl) rfl rfl
  · rw [if_neg hstack, if_pos (by simpa [hground, htop, imp_iff_not_or] using hstack)]
    refine exchanged_reset hnodup (fun _ => rfl) ?_ rfl
    rw [hthings]
    exact (perm_erase _ _ _).2 hplace

theorem exchanged_addThing (hnodup : t.things.Nodup) (x : ℕ) :
    Exchanged rules t (addThing rules t (.item x)) t (goes rules t (.addThing (.item x)))
      (comes rules t (.addThing (.item x))) := by
  have hremoved : ∀ y, Exchanged rules t (removeThing rules t (.item y) 1) t
      ((some y).filter fun y => removes rules t y 1) none := by
    intro y
    rw [Option.filter_some]
    exact exchanged_removeThing hnodup y 1
  rw [addThing, goes, comes]
  by_cases hfull : t.stack.items.length ≥ 0xFFFF
  · have haccepts : accepts rules t x = false := by
      rw [accepts, decide_eq_false (Nat.not_lt.2 hfull), Bool.false_and]
    rw [if_pos hfull, haccepts]
    exact .unchanged (fun _ => rfl) rfl rfl
  have hplace : decide (t.stack.items.length < 0xFFFF) = true := decide_eq_true (Nat.not_le.1 hfull)
  rw [if_neg hfull]
  by_cases hground : (t.type rules x).group = .ITEM_GROUP_GROUND
  · have haccepts : accepts rules t x = true := by
      rw [accepts, hplace, decide_eq_true hground]
      rfl
    rw [if_pos hground, if_pos hground, haccepts]
    cases hold : t.stack.ground with
    | none =>
      have hthings : t.things = t.stack.items := by rw [Tile.things, hold]; rfl
      exact exchanged_set (fun _ => rfl) (by rw [hthings]; exact List.Perm.refl _) rfl
    | some old =>
      have hbefore : t.things.Perm (old :: t.stack.items) := by
        rw [Tile.things, hold]
        exact List.Perm.refl _
      exact exchanged_replace hnodup (fun _ => rfl) hbefore (List.Perm.refl _) rfl
  rw [if_neg hground, if_neg hground]
  by_cases htop : t.stack.isAlwaysOnTop rules.toRules x = true
  · have haccepts : accepts rules t x = true := by
      rw [accepts, hplace, htop, Bool.or_true, Bool.true_or, Bool.true_and]
    rw [if_pos htop, haccepts]
    cases hold : oldItem rules t x with
    | none => exact exchanged_set (fun _ => rfl) (perm_insertTop t.stack _ x) rfl
    | some old =>
      exact (hremoved old).insert (fun _ => rfl)
        (perm_insertTop (removeThing rules t (.item old) 1).stack _ x) rfl
  · rw [if_neg htop]
    have haccepts : accepts rules t x =
        (oldItem rules t x).all fun oldField => (t.type rules oldField).replaceable := by
      rw [accepts, hplace, decide_eq_false hground, eq_false_of_ne_true htop]
      rfl
    cases hold : oldItem rules t x with
    | none =>
      rw [hold, Option.all_none] at haccepts
      rw [haccepts]
      exact exchanged_set (fun _ => rfl) (perm_insertDown t.stack x) rfl
    | some old =>
      rw [hold, Option.all_some] at haccepts
      rw [haccepts]
      dsimp only
      cases hreplaceable : (t.type rules old).replaceable with
      | true =>
        rw [if_pos rfl]
        exact (hremoved old).insert (fun _ => rfl)
          (perm_insertDown (removeThing rules t (.item old) 1).stack x) rfl
      | false =>
        rw [if_neg Bool.false_ne_true]
        exact .unchanged (fun _ => rfl) rfl rfl

theorem exchanged_internalAddThing (x : ℕ) : Exchanged rules t (internalAddThing rules t (.item x)) t none
      (comes rules t (.internalAddThing (.item x))) := by
  rw [internalAddThing, comes]
  split_ifs with hground hnone hfull htop
  · have hthings : t.things = t.stack.items := by rw [Tile.things, hnone]; rfl
    exact exchanged_set (fun _ => rfl) (by rw [hthings]; exact List.Perm.refl _) rfl
  · exact .unchanged (fun _ => rfl) rfl rfl
  · exact .unchanged (fun _ => rfl) rfl rfl
  · exact exchanged_set (fun _ => rfl) (perm_insertTop t.stack _ x) rfl
  · exact exchanged_set (fun _ => rfl) (perm_insertDown t.stack x) rfl

/-- The item that is changed stays where it is. -/
theorem exchanged_updateThing (hnodup : t.things.Nodup) (x itemId count : ℕ) :
    Exchanged rules t (updateThing rules t x itemId count) (renewed rules t (.updateThing x itemId count))
      (goes rules t (.updateThing x itemId count)) (comes rules t (.updateThing x itemId count)) := by
  rw [updateThing, renewed, goes, comes]
  by_cases hnone : getThingIndex rules.toRules t.stack (.item x) = none
  · rw [if_pos hnone, if_pos hnone, if_pos hnone]
    exact .unchanged (fun _ => rfl) rfl rfl
  rw [if_neg hnone, if_neg hnone, if_neg hnone]
  have hmem : x ∈ t.things := by
    rw [Tile.things, List.mem_append, TileStack.mem_items, Option.mem_toList]
    have hindex := (getThingIndex_isSome rules t).1 (Option.isSome_iff_ne_none.2 hnone)
    refine hindex.imp id fun hplace => ?_
    split_ifs at hplace with htop
    · exact Or.inr hplace
    · exact Or.inl hplace
  have hperm : t.things.Perm (x :: t.things.erase x) := List.perm_cons_erase hmem
  have hnot : x ∉ t.things.erase x := (List.nodup_cons.1 (hperm.nodup_iff.1 hnodup)).1
  refine ⟨fun _ => rfl, fun y hy => ?_, ⟨t.things.erase x, hperm, hperm⟩, hasPropertyExcluding rules t x,
    fun f hf => ?_, fun f hf => Or.inl ?_, rfl⟩
  · have hyx : y ≠ x := fun hyx => hy (congrArg some hyx.symm)
    exact provides_congr (congrArg Item.id (Function.update_of_ne hyx _ _)) rfl rfl rfl
  · obtain ⟨y, hy, hflag⟩ := (staying_iff (some x) hperm hnodup).1 hf
    exact hasPropertyExcluding_iff.2 ⟨y, List.mem_of_mem_erase hy, fun hyx => hnot (hyx ▸ hy), hflag⟩
  · obtain ⟨y, hy, hyx, hflag⟩ := hasPropertyExcluding_iff.1 hf
    exact (staying_iff (some x) hperm hnodup).2 ⟨y, (List.mem_erase_of_ne hyx).2 hy, hflag⟩

/-- `replaceThing` above the ground: an item that a number leads to is at a place of its own. -/
theorem replaceAbove_perm {stack : TileStack.Tile} {pos old : ℕ} (x : ℕ)
    (h : (if pos < stack.topItems.length then stack.topItems[pos]?.map Thing.item
      else if pos - stack.topItems.length < stack.creatures.length then
        stack.creatures[pos - stack.topItems.length]?.map Thing.creature
      else stack.downItems[pos - stack.topItems.length - stack.creatures.length]?.map Thing.item) =
        some (.item old)) :
    ∃ rest items, stack.items.Perm (old :: rest) ∧ items.Perm (x :: rest) ∧
      (if pos < stack.topItems.length then { stack with items := stack.downItems ++ stack.topItems.set pos x }
        else if pos - stack.topItems.length < stack.creatures.length then stack
        else if pos - stack.topItems.length - stack.creatures.length < stack.downItems.length then
          { stack with
            items := stack.downItems.set (pos - stack.topItems.length - stack.creatures.length) x ++
              stack.topItems }
        else stack) = { stack with items := items } := by
  have hplace : ∀ (l : List ℕ) (i : ℕ), l[i]? = some old →
      l.Perm (old :: l.eraseIdx i) ∧ (l.set i x).Perm (x :: l.eraseIdx i) := by
    intro l i hi
    obtain ⟨hlt, hget⟩ := List.getElem?_eq_some_iff.1 hi
    exact ⟨hget ▸ (List.getElem_cons_eraseIdx_perm hlt).symm, List.set_perm_cons_eraseIdx hlt x⟩
  rw [← TileStack.downItems_append_topItems stack]
  split_ifs at h with htop hcreature
  · obtain ⟨y, hy, hold⟩ := Option.map_eq_some_iff.1 h
    obtain rfl := Thing.item.inj hold
    obtain ⟨hbefore, hafter⟩ := hplace _ _ hy
    exact ⟨stack.downItems ++ stack.topItems.eraseIdx pos, stack.downItems ++ stack.topItems.set pos x,
      (hbefore.append_left _).trans List.perm_middle, (hafter.append_left _).trans List.perm_middle,
      if_pos htop⟩
  · obtain ⟨y, -, hold⟩ := Option.map_eq_some_iff.1 h
    cases hold
  · obtain ⟨y, hy, hold⟩ := Option.map_eq_some_iff.1 h
    obtain rfl := Thing.item.inj hold
    obtain ⟨hlt, -⟩ := List.getElem?_eq_some_iff.1 hy
    obtain ⟨hbefore, hafter⟩ := hplace _ _ hy
    exact ⟨_, _, hbefore.append_right _, hafter.append_right _,
      by rw [if_neg htop, if_neg hcreature, if_pos hlt]⟩

/-- `replaceThing`, of an item that an index leads to. -/
theorem replaceThing_perm {stack : TileStack.Tile} {index old : ℕ} (x : ℕ)
    (h : getThing stack index = some (.item old)) :
    ∃ rest ground items, (stack.ground.toList ++ stack.items).Perm (old :: rest) ∧
      (ground.toList ++ items).Perm (x :: rest) ∧
      TileStack.replaceThing stack index x = { stack with ground := ground, items := items } := by
  obtain ⟨info, isField, canTransform, ground, items, downItemCount, creatures⟩ := stack
  cases ground with
  | none =>
    obtain ⟨rest, items', hbefore, hafter, heq⟩ := replaceAbove_perm x h
    exact ⟨rest, none, items', hbefore, hafter, heq⟩
  | some ground =>
    by_cases hzero : index = 0
    · subst hzero
      obtain rfl := Thing.item.inj (Option.some.inj h)
      exact ⟨items, some x, items, List.Perm.refl _, List.Perm.refl _, rfl⟩
    · rw [getThing] at h
      dsimp only at h
      rw [if_neg hzero] at h
      obtain ⟨rest, items', hbefore, hafter, heq⟩ := replaceAbove_perm x h
      refine ⟨ground :: rest, some ground, items', (hbefore.append_left [ground]).trans (List.Perm.swap _ _ _),
        (hafter.append_left [ground]).trans (List.Perm.swap _ _ _), ?_⟩
      rw [TileStack.replaceThing]
      dsimp only
      rw [if_neg hzero]
      exact heq

theorem exchanged_replaceThing (hnodup : t.things.Nodup) (index x : ℕ) :
    Exchanged rules t (replaceThing rules t index x) t (goes rules t (.replaceThing index x))
      (comes rules t (.replaceThing index x)) := by
  rw [replaceThing, goes, comes]
  cases hthing : getThing t.stack index with
  | none => exact .unchanged (fun _ => rfl) rfl rfl
  | some thing =>
    cases thing with
    | creature c => exact .unchanged (fun _ => rfl) rfl rfl
    | item old =>
      obtain ⟨rest, ground, items, hbefore, hafter, heq⟩ := replaceThing_perm x hthing
      dsimp only
      rw [heq]
      exact exchanged_replace hnodup (fun _ => rfl) hbefore hafter rfl

/-- **What a step does**: it exchanges the item that goes for the one that comes. -/
theorem exchanged_step (hnodup : t.things.Nodup) (a : Step) :
    Exchanged rules t (step rules t a) (renewed rules t a) (goes rules t a) (comes rules t a) := by
  cases a with
  | addThing thing =>
    cases thing with
    | item x => exact exchanged_addThing hnodup x
    | creature c => exact .unchanged (fun _ => rfl) rfl rfl
  | internalAddThing thing =>
    cases thing with
    | item x => exact exchanged_internalAddThing x
    | creature c => exact .unchanged (fun _ => rfl) rfl rfl
  | updateThing x itemId count => exact exchanged_updateThing hnodup x itemId count
  | replaceThing index x => exact exchanged_replaceThing hnodup index x
  | removeThing thing count =>
    cases thing with
    | item x => exact exchanged_removeThing hnodup x count
    | creature c => exact .unchanged (fun _ => rfl) rfl rfl

/-- **One step**: the flags agree afterwards if and only if the exchange is fair. -/
theorem agrees_step_iff (hagrees : Agrees rules t) (hnodup : t.things.Nodup) (a : Step) :
    Agrees rules (step rules t a) ↔ FairExchange (given rules t (goes rules t a)) (staying rules t (goes rules t a))
        (given rules (renewed rules t a) (comes rules t a)) :=
  (exchanged_step hnodup a).flags_agree_iff hagrees hnodup

end Steps

/-! ## Runs -/

section Runs

variable {rules : Rules}

/-- **Every run of fair steps** from a tile without things has the flags of its things in every
state. -/
theorem run_flags_agree {info : ℕ → Item} {isField canTransform : ℕ → Bool} {itemClass : ℕ → ItemClass}
    {isFixed : ℕ → Bool} {steps : List Step}
    (hfair : Runs.Meets (step rules) (Fair rules) (empty info isField canTransform itemClass isFixed) steps) :
    ∀ before, before <+: steps →
      Agrees rules (Runs.run (step rules) (empty info isField canTransform itemClass isFixed) before) := by
  intro before hbefore
  have hstart : Agrees rules (empty info isField canTransform itemClass isFixed) ∧
      (empty info isField canTransform itemClass isFixed).things.Nodup := by
    refine ⟨fun f => iff_of_false Bool.false_ne_true ?_, List.nodup_nil⟩
    rintro ⟨y, hy, -⟩
    exact absurd hy List.not_mem_nil
  refine (Runs.invariant (step rules) (P := fun t => Agrees rules t ∧ t.things.Nodup) ?_ hstart
    (hfair.of_prefix (step rules) hbefore)).1
  rintro t a ⟨hagrees, hnodup⟩ hstep
  exact ⟨(agrees_step_iff hagrees hnodup a).2 hstep.exchange,
    (exchanged_step hnodup a).nodup hnodup hstep.fresh⟩

/-- Walls: the type with an odd id are vertical. -/
def walls : Rules where
  toRules := TileStack.borders
  typeFlags id := ⟨none, false, false, id % 2 = 1, false⟩

/-- Item 0 is a wall, item 1 something else, and so on. -/
def noWalls : Tile := empty (fun x => ⟨x + 1, 1, [], none, none⟩) (fun _ => false) (fun _ => true)
  (fun _ => .other) fun _ => false

theorem fair_add_wall : Fair walls noWalls (.addThing (.item 0)) where
  fresh _ _ hmem := absurd hmem List.not_mem_nil
  exchange := ⟨fun _ _ hother => absurd hother Bool.false_ne_true,
    fun _ hother => absurd hother (by decide)⟩

theorem fair_add_other : Fair walls (step walls noWalls (.addThing (.item 0))) (.addThing (.item 1)) where
  fresh x hcomes hmem := by
    obtain rfl : 1 = x := Option.some.inj hcomes
    exact absurd hmem (by decide)
  exchange := by
    refine ⟨fun f => ?_, fun _ hother => absurd hother (by decide)⟩
    cases f with
    | FLOORCHANGE d => cases d <;> decide
    | _ => decide

theorem run_flags_agree_walls : Agrees walls
    (Runs.run (step walls) noWalls [.addThing (.item 0), .addThing (.item 1)]) := by
  have hfair : Runs.Meets (step walls) (Fair walls) noWalls [.addThing (.item 0), .addThing (.item 1)] :=
    ⟨fair_add_wall, fair_add_other, trivial⟩
  exact run_flags_agree hfair _ (List.prefix_refl _)

/-- One of two walls is taken away: the other does not support hanging items any more. -/
theorem not_agrees_walls : ¬ ∀ before,
    before <+: [.addThing (.item 0), .addThing (.item 2), .removeThing (.item 2) 1] →
      Agrees walls (Runs.run (step walls) noWalls before) := by
  intro hall
  have hagrees := hall _ (List.prefix_refl _) .SUPPORTS_HANGABLE
  exact absurd (hagrees.2 ⟨0, by decide, by decide⟩) (by decide)

end Runs

end TiabloServer.TileFlags
