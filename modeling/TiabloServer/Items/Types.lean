import Mathlib

/-!
# Items and their types

The table `Item::items` of item types, as far as the cylinders read it, the attributes of an item
and the items themselves (`items/items.hpp`, `items/item.cpp`).

## Main definitions

* `Items.Item.equals` — whether two items may be stacked.
* `Items.createStack`, `Items.Item.clone` — new stacks, with the ids that `Item::CreateItem`
  transforms.
-/

namespace TiabloServer.Items

/-- The members of `ReturnValue` that the cylinders and the moves return. -/
inductive ReturnValue where
  | RETURNVALUE_NOERROR
  | RETURNVALUE_NOTPOSSIBLE
  | RETURNVALUE_NOTENOUGHROOM
  | RETURNVALUE_NOTMOVABLE
  | RETURNVALUE_DROPTWOHANDEDITEM
  | RETURNVALUE_BOTHHANDSNEEDTOBEFREE
  | RETURNVALUE_CANONLYUSEONEWEAPON
  | RETURNVALUE_NEEDEXCHANGE
  | RETURNVALUE_CANNOTBEDRESSED
  | RETURNVALUE_PUTTHISOBJECTINBOTHHANDS
  | RETURNVALUE_CONTAINERNOTENOUGHROOM
  | RETURNVALUE_ONLYAMMOINQUIVER
  | RETURNVALUE_NOTENOUGHCAPACITY
  | RETURNVALUE_CANNOTPICKUP
  | RETURNVALUE_THISISIMPOSSIBLE
  | RETURNVALUE_DEPOTISFULL
  | RETURNVALUE_CONTAINERISFULL
  | RETURNVALUE_CANONLYUSEONESHIELD
  | RETURNVALUE_ITEMISNOTYOURS
deriving DecidableEq

/-- `ItemGroup_t`. -/
inductive ItemGroup where
  | ITEM_GROUP_NONE
  | ITEM_GROUP_GROUND
  | ITEM_GROUP_CONTAINER
  | ITEM_GROUP_SPLASH
  | ITEM_GROUP_FLUID
deriving DecidableEq

/-- The members of `ItemTypes_t` that the cylinders ask for, and all others. -/
inductive ItemKind where
  | ITEM_TYPE_NONE
  | ITEM_TYPE_AMMO
  | ITEM_TYPE_QUIVER
  | ITEM_TYPE_DEPOT
  | ITEM_TYPE_REWARDCHEST
  | ITEM_TYPE_TELEPORT
  | ITEM_TYPE_MAGICFIELD
  | ITEM_TYPE_DOOR
  | ITEM_TYPE_TRASHHOLDER
  | ITEM_TYPE_MAILBOX
  | ITEM_TYPE_BED
  | ITEM_TYPE_CARPET
  | other
deriving DecidableEq

/-- The members of `WeaponType_t` that the inventory asks for, and all others. -/
inductive WeaponType where
  | WEAPON_NONE
  | WEAPON_SHIELD
  | WEAPON_DISTANCE
  | WEAPON_AMMO
  | other
deriving DecidableEq

/-! ## Flags, indices and slots -/

/-- `CylinderFlags_t`. -/
def FLAG_NOLIMIT : ℕ := 1 <<< 0
def FLAG_IGNOREBLOCKCREATURE : ℕ := 1 <<< 2
def FLAG_CHILDISOWNER : ℕ := 1 <<< 3
def FLAG_IGNORENOTMOVABLE : ℕ := 1 <<< 6
def FLAG_IGNOREAUTOSTACK : ℕ := 1 <<< 7

def hasBitSet (flag flags : ℕ) : Bool := flags &&& flag != 0

def INDEX_WHEREEVER : ℤ := -1

/-- `Slots_t`. -/
def CONST_SLOT_WHEREEVER : ℕ := 0
def CONST_SLOT_HEAD : ℕ := 1
def CONST_SLOT_NECKLACE : ℕ := 2
def CONST_SLOT_BACKPACK : ℕ := 3
def CONST_SLOT_ARMOR : ℕ := 4
def CONST_SLOT_RIGHT : ℕ := 5
def CONST_SLOT_LEFT : ℕ := 6
def CONST_SLOT_LEGS : ℕ := 7
def CONST_SLOT_FEET : ℕ := 8
def CONST_SLOT_RING : ℕ := 9
def CONST_SLOT_AMMO : ℕ := 10
def CONST_SLOT_BELT : ℕ := 12
def CONST_SLOT_GLOVES : ℕ := 13
def CONST_SLOT_FIRST : ℕ := CONST_SLOT_HEAD
def CONST_SLOT_LAST : ℕ := CONST_SLOT_GLOVES

/-- `SlotPositionBits`. -/
def SLOTP_HEAD : ℕ := 1 <<< 0
def SLOTP_NECKLACE : ℕ := 1 <<< 1
def SLOTP_BACKPACK : ℕ := 1 <<< 2
def SLOTP_ARMOR : ℕ := 1 <<< 3
def SLOTP_RIGHT : ℕ := 1 <<< 4
def SLOTP_LEFT : ℕ := 1 <<< 5
def SLOTP_LEGS : ℕ := 1 <<< 6
def SLOTP_FEET : ℕ := 1 <<< 7
def SLOTP_RING : ℕ := 1 <<< 8
def SLOTP_TWO_HAND : ℕ := 1 <<< 11
def SLOTP_BELT : ℕ := 1 <<< 12
def SLOTP_GLOVES : ℕ := 1 <<< 13

/-! ## Item types -/

/-- An entry of `Item::items`. A type that stacks is no ground, container, splash or fluid and no
magic field. -/
structure ItemType where
  group : ItemGroup
  type : ItemKind
  weaponType : WeaponType
  slotPosition : ℕ
  stackable : Bool
  stackSize : UInt8
  charges : ℕ
  decayTime : ℕ
  weight : ℕ
  maxItems : ℕ
  pickupable : Bool
  movable : Bool
  blockSolid : Bool
  hasHeight : Bool
  alwaysOnTopOrder : ℕ
  isHangable : Bool
  supportHangable : Bool
  replaceable : Bool
  wareId : ℕ
  stackable_group : stackable = true → group = .ITEM_GROUP_NONE
  stackable_type : stackable = true → type ≠ .ITEM_TYPE_MAGICFIELD

/-- `Item::items`. -/
abbrev ItemTypes := ℕ → ItemType

/-! ## Items -/

/-- The attributes that the cylinders read or write, and all others. -/
inductive AttributeType where
  | STORE
  | OWNER
  | WEIGHT
  | CHARGES
  | FLUIDTYPE
  | DURATION
  | TIER
  | other (n : ℕ)
deriving DecidableEq

/-- The value of an attribute: an integer or a string, as its type says. A string is given by the
object that holds it, since `equals` compares those. -/
inductive AttributeValue where
  | integer (n : ℤ)
  | string (object : ℕ)
deriving DecidableEq

/-- The integer of an attribute value; 0 where there is none, as `getAttribute` answers. -/
def AttributeValue.toInt : AttributeValue → ℤ
  | .integer n => n
  | .string _ => 0

/-- A place that holds items: an item that is a container, a player or a tile. -/
inductive Cylinder where
  | item (n : ℕ)
  | player (n : ℕ)
  | tile (n : ℕ)
deriving DecidableEq

/-- The classes of containers that are told apart. Of the others, `DepotChest`, `DepotLocker` and
`RewardChest` have a `queryAdd` of their own, too, and are left out. -/
inductive ContainerKind where
  | container
  | reward
  | inbox
deriving DecidableEq

/-- The fields of a `Container`; its items are given by their places in the heap. -/
structure Container where
  kind : ContainerKind
  maxSize : ℕ
  maxItems : ℕ
  unlocked : Bool
  pagination : Bool
  itemlist : List ℕ

/-- The fields of an `Item`. -/
structure Item where
  id : ℕ
  count : UInt8
  attributes : List (AttributeType × AttributeValue)
  parent : Option Cylinder
  container : Option Container

namespace Item

variable (types : ItemTypes) (x : Item)

/-- The entry of the item in `Item::items`. -/
def type : ItemType := types x.id

/-- `Item::getItemCount`. -/
def getItemCount : ℕ := x.count.toNat

/-- `Item::isStackable`. -/
def isStackable : Bool := (x.type types).stackable

/-- `Item::getStackSize`. -/
def getStackSize : ℕ := if x.isStackable types then (x.type types).stackSize.toNat else 1

/-- `getAttribute<int64_t>`. -/
def getAttribute (a : AttributeType) : ℤ := ((x.attributes.lookup a).map (·.toInt)).getD 0

def setAttribute (a : AttributeType) (v : AttributeValue) : Item :=
  { x with attributes := (a, v) :: x.attributes.filter (·.1 ≠ a) }

/-- `Item::isStoreItem`. -/
def isStoreItem : Bool := 0 < x.getAttribute .STORE

/-- `Item::getOwnerId`. -/
def getOwnerId : ℤ := x.getAttribute .OWNER

/-- `Item::hasOwner`. -/
def hasOwner : Bool := x.getOwnerId ≠ 0

/-- `Item::getBaseWeight`. -/
def getBaseWeight : ℕ :=
  match x.attributes.lookup .WEIGHT with
  | some v => v.toInt.toNat
  | none => (x.type types).weight

/-- `Item::getWeight`, without what a container holds. -/
def getWeight : ℕ :=
  if x.isStackable types then x.getBaseWeight types * max 1 x.getItemCount
  else x.getBaseWeight types

/-- `Item::setItemCount`. -/
def setItemCount (n : ℕ) : Item := { x with count := UInt8.ofNat n }

/-- `Item::setSubType`. -/
def setSubType (n : ℕ) : Item :=
  let it := x.type types
  if it.group = .ITEM_GROUP_FLUID ∨ it.group = .ITEM_GROUP_SPLASH then
    x.setAttribute .FLUIDTYPE (.integer n)
  else if it.stackable then x.setItemCount n
  else if it.charges ≠ 0 then x.setAttribute .CHARGES (.integer n)
  else x.setItemCount n

/-- `Item::equals`: the same id, store mark and owner, and no attribute, but the store mark, that
both have with different values. -/
def equals (y : Item) : Bool :=
  x.id == y.id && x.isStoreItem == y.isStoreItem && x.getOwnerId == y.getOwnerId &&
    x.attributes.all fun a => a.1 == .STORE ||
      y.attributes.all fun b => a.1 != b.1 || a.2 == b.2

end Item

/-! ## Creating items -/

/-- `ItemTransformationMap` of `Item::CreateItem`: the activated rings and boots, and the old
diamond arrow. -/
def itemTransformationMap : List (ℕ × ℕ) :=
  [(3094, 3091), (3096, 3093), (3099, 3097), (3100, 3098), (3086, 3049), (3090, 3053),
    (3549, 6529), (6300, 6299), (16264, 16114), (25757, 35901)]

/-- The types for which `Item::CreateItem` makes an object of a class of its own. -/
def ItemType.hasClass (it : ItemType) : Bool :=
  it.group = .ITEM_GROUP_CONTAINER ∨ it.type ∈ [.ITEM_TYPE_DEPOT, .ITEM_TYPE_REWARDCHEST,
    .ITEM_TYPE_TELEPORT, .ITEM_TYPE_MAGICFIELD, .ITEM_TYPE_DOOR, .ITEM_TYPE_TRASHHOLDER,
    .ITEM_TYPE_MAILBOX, .ITEM_TYPE_BED]

/-- The id of the item that `Item::CreateItem` makes. -/
def createdId (types : ItemTypes) (type : ℕ) : ℕ :=
  if (types type).hasClass then type else (itemTransformationMap.lookup type).getD type

/-- What has been transformed is not transformed again. -/
theorem createdId_createdId (types : ItemTypes) (type : ℕ) :
    createdId types (createdId types type) = createdId types type := by
  have hstays : ∀ a ∈ itemTransformationMap, itemTransformationMap.lookup a.2 = none := by decide
  by_cases hclass : (types type).hasClass
  · simp [createdId, hclass]
  · cases hlookup : itemTransformationMap.lookup type with
    | none => simp [createdId, hclass, hlookup]
    | some b =>
      have hb : (type, b) ∈ itemTransformationMap := by
        obtain ⟨l, l', hsplit, -⟩ := List.lookup_eq_some_iff.1 hlookup
        simp [hsplit]
      simp [createdId, hclass, hlookup, hstays _ hb]

/-- The attributes that the constructor of `Item` sets: the default duration. -/
def defaultAttributes (types : ItemTypes) (type : ℕ) : List (AttributeType × AttributeValue) :=
  if (types type).decayTime = 0 then []
  else [(.DURATION, .integer ((types type).decayTime * 1000))]

/-- `Item::CreateItem` for a type that stacks: a new stack of `count` items. -/
def createStack (types : ItemTypes) (type count : ℕ) : Item where
  id := createdId types type
  count := UInt8.ofNat (if count = 0 then 1 else count)
  attributes := defaultAttributes types (createdId types type)
  parent := none
  container := none

/-- `Item::clone` of a stack: a new stack with the attributes of the old one, if it has any. -/
def Item.clone (types : ItemTypes) (x : Item) : Item :=
  let y := createStack types x.id x.getItemCount
  if x.attributes = [] then y else { y with attributes := x.attributes }

end TiabloServer.Items
