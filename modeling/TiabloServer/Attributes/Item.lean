import TiabloServer.Items.Types
import TiabloServer.Lib.Wire

/-!
# The attributes of an item and their bytes

`Item::serializeAttr`, `Item::readAttr` and `Item::unserializeAttr` (`items/item.cpp`), the
attributes they go through (`items/functions/item/attribute.cpp`, `custom_attribute.cpp`) and the
streams `PropWriteStream` and `PropStream` (`io/fileloader.hpp`).

A vector of attributes has at most one of each type, and is a partial map from the types. A custom
attribute is its value; the key it was made with is never read. A `double` is its 64 bits.

## Main definitions

* `Attributes.Item.serializeAttr` — the bytes of an item.
* `Attributes.Item.readAttr`, `Attributes.unserializeAttr` — reading them into an item.
-/

namespace TiabloServer.Attributes

open Items (ItemGroup)

/-- `std::string`. -/
abbrev Str : Type := List UInt8

/-! ## Integers -/

/-- The integer types that attributes are read and written as. -/
inductive IntType where
  | int8
  | uint8
  | uint16
  | int32
  | uint32
  | int64
  | uint64
deriving DecidableEq

/-- `sizeof(T)`. -/
def IntType.size : IntType → ℕ
  | .int8 => 1
  | .uint8 => 1
  | .uint16 => 2
  | .int32 => 4
  | .uint32 => 4
  | .int64 => 8
  | .uint64 => 8

/-- `std::is_signed_v<T>`. -/
def IntType.signed : IntType → Bool
  | .int8 | .int32 | .int64 => true
  | .uint8 | .uint16 | .uint32 | .uint64 => false

/-- The value with the bits of `n`, as the `int64_t` it converts to. -/
def IntType.value (T : IntType) (n : ℕ) : Int64 :=
  if T.signed then Int64.ofInt ((n : ℤ).bmod (2 ^ (8 * T.size))) else Int64.ofInt n

/-- `static_cast<T>` of an `int64_t`. -/
def IntType.cast (T : IntType) (v : Int64) : Int64 := T.value (v.toUInt64.toNat % 2 ^ (8 * T.size))

/-! ## Streams -/

/-- `PropWriteStream::write<T>`. -/
def write (T : IntType) (add : Int64) : Str := Wire.leBytes T.size add.toUInt64.toNat

/-- `PropWriteStream::writeString`. -/
def writeString (str : Str) : Str :=
  if 65535 < str.length then write .uint16 0 else write .uint16 (Int64.ofNat str.length) ++ str

/-- `PropStream::read<T>`. -/
def read (T : IntType) (s : Str) : Option Int64 × Str :=
  match Wire.readBytes T.size s with
  | (none, s) => (none, s)
  | (some bytes, s) => (some (T.value (Wire.ofLE bytes)), s)

/-- `PropStream::readString`. -/
def readString (s : Str) : Option Str × Str :=
  match read .uint16 s with
  | (none, s) => (none, s)
  | (some strLen, s) => Wire.readBytes strLen.toUInt64.toNat s

/-- `PropStream::skip`. -/
def skip (n : ℕ) (s : Str) : Option Unit × Str :=
  match Wire.readBytes n s with
  | (none, s) => (none, s)
  | (some _, s) => (some (), s)

/-! ## Attributes -/

/-- The members of `ItemAttribute_t` for which `isAttributeInteger` holds. -/
inductive IntegerAttribute where
  | STORE
  | ACTIONID
  | UNIQUEID
  | DATE
  | WEIGHT
  | ATTACK
  | DEFENSE
  | EXTRADEFENSE
  | ARMOR
  | HITCHANCE
  | SHOOTRANGE
  | OWNER
  | DURATION
  | DECAYSTATE
  | CORPSEOWNER
  | CHARGES
  | FLUIDTYPE
  | DOORID
  | IMBUEMENT_SLOT
  | OPENCONTAINER
  | QUICKLOOTCONTAINER
  | OBTAINCONTAINER
  | DURATION_TIMESTAMP
  | TIER
  | AMOUNT
deriving DecidableEq

/-- The members of `ItemAttribute_t` for which `isAttributeString` holds. -/
inductive StringAttribute where
  | DESCRIPTION
  | TEXT
  | WRITER
  | NAME
  | ARTICLE
  | PLURALNAME
  | SPECIAL
  | LOOTMESSAGE_SUFFIX
  | STORE_INBOX_CATEGORY
deriving DecidableEq

/-- `tolower`, in the C locale. -/
def tolower (c : UInt8) : UInt8 := if 65 ≤ c ∧ c ≤ 90 then c + 32 else c

def asLowerCaseString (source : Str) : Str := source.map tolower

/-- The value of a `CustomAttribute`. -/
inductive CustomAttribute where
  | integer (value : Int64)
  | string (value : Str)
  | double (bits : UInt64)
  | bool (value : Bool)
deriving DecidableEq

/-- `std::less<>` on strings: lexicographic, by unsigned characters. -/
def less (key key' : Str) : Prop := key.map UInt8.toNat < key'.map UInt8.toNat

instance (key key' : Str) : Decidable (less key key') :=
  inferInstanceAs (Decidable (key.map UInt8.toNat < key'.map UInt8.toNat))

/-- `map[key] = value`. -/
def assign (key : Str) (value : CustomAttribute) :
    List (Str × CustomAttribute) → List (Str × CustomAttribute)
  | [] => [(key, value)]
  | e :: map =>
    if less key e.1 then (key, value) :: e :: map
    else if key = e.1 then (key, value) :: map
    else e :: assign key value map

/-- The fields of an `ItemType` that the attributes depend on. -/
structure ItemType where
  group : ItemGroup
  stackable : Bool
  charges : UInt32
  movable : Bool
  decayTime : UInt32

/-- `isFluidContainer() || isSplash()`. -/
def ItemType.isFluid (it : ItemType) : Bool :=
  it.group = .ITEM_GROUP_FLUID || it.group = .ITEM_GROUP_SPLASH

/-- What is outside of an item: the table `Item::items`, `FORGE_MAX_ITEM_TIER`, the clocks and
`Game::addUniqueItem`. -/
structure Server where
  items : UInt16 → ItemType
  maxItemTier : ℤ
  OTSYS_TIME : Int64
  getTimeNow : Int64
  addUniqueItem : UInt16 → Bool

/-- An `Item` with its attributes. A text that is set is not empty; the map of custom attributes is
in the order of its keys, which are in lower case. -/
structure Item where
  id : UInt16
  count : UInt8
  integers : IntegerAttribute → Option Int64
  strings : StringAttribute → Option Str
  customAttributeMap : List (Str × CustomAttribute)

def HIRELING_LAMP : UInt16 := 29432
def FLUID_INK : UInt16 := 18

/-- `ItemDecayState_t`. -/
def DECAYING_TRUE : Int64 := 1
def DECAYING_PENDING : Int64 := 2
def DECAYING_STOPPING : Int64 := 3

namespace Item

/-! ## Reading and setting attributes -/

def getInteger (item : Item) (type : IntegerAttribute) : Int64 := (item.integers type).getD 0

def getString (item : Item) (type : StringAttribute) : Str := (item.strings type).getD []

/-- `getAttribute<T>`: what `static_cast<T>` gives is between the bounds of `T` already. -/
def getAttribute (T : IntType) (item : Item) (type : IntegerAttribute) : Int64 :=
  T.cast (item.getInteger type)

/-- `hasAttribute`, of an integer. -/
def hasInteger (item : Item) (type : IntegerAttribute) : Bool := (item.integers type).isSome

/-- `hasAttribute`, of a text. -/
def hasString (item : Item) (type : StringAttribute) : Bool := (item.strings type).isSome

/-- `ItemAttribute::setAttribute`, of an integer. -/
def setInteger (type : IntegerAttribute) (value : Int64) (item : Item) : Item :=
  { item with integers := Function.update item.integers type (some value) }

/-- `ItemAttribute::setAttribute`, of a text: an empty one is not set. -/
def setString (type : StringAttribute) (value : Str) (item : Item) : Item :=
  if value = [] then item
  else { item with strings := Function.update item.strings type (some value) }

/-- `removeAttribute`, of a text. -/
def removeString (type : StringAttribute) (item : Item) : Item :=
  { item with strings := Function.update item.strings type none }

/-- `addCustomAttribute` and `setCustomAttribute`. -/
def addCustomAttribute (key : Str) (value : CustomAttribute) (item : Item) : Item :=
  { item with customAttributeMap := assign (asLowerCaseString key) value item.customAttributeMap }

/-- Whether `getCustomAttribute` finds something. -/
def hasCustomAttribute (item : Item) (attributeName : Str) : Bool :=
  item.customAttributeMap.any fun e => e.1 = asLowerCaseString attributeName

def setItemCount (n : Int64) (item : Item) : Item :=
  { item with count := UInt8.ofNat n.toUInt64.toNat }

def getItemCount (item : Item) : Int64 := Int64.ofNat item.count.toNat

variable (sv : Server)

def getSubType (item : Item) : Int64 :=
  let it := sv.items item.id
  if it.isFluid then item.getAttribute .uint16 .FLUIDTYPE
  else if it.stackable then item.getItemCount
  else if it.charges ≠ 0 then item.getAttribute .uint16 .CHARGES
  else item.getItemCount

/-- `Item::setSubType`. -/
def setSubType (n : Int64) (item : Item) : Item :=
  let it := sv.items item.id
  if it.isFluid then item.setInteger .FLUIDTYPE n
  else if it.stackable then item.setItemCount n
  else if it.charges ≠ 0 then item.setInteger .CHARGES n
  else item.setItemCount n

/-- `getDecaying`: the enumeration has 8 bits. -/
def getDecaying (item : Item) : Int64 := IntType.uint8.cast (item.getInteger .DECAYSTATE)

/-- `setDecaying`, to a state other than `DECAYING_FALSE`. -/
def setDecaying (decayState : Int64) (item : Item) : Item := item.setInteger .DECAYSTATE decayState

def getDuration (item : Item) : Int64 :=
  if item.getDecaying = DECAYING_TRUE ∨ item.getDecaying = DECAYING_STOPPING then
    max 0 (IntType.int32.cast
      (item.getAttribute .int32 .DURATION_TIMESTAMP - IntType.int32.cast sv.OTSYS_TIME))
  else item.getAttribute .int32 .DURATION

def setDuration (time : Int64) (item : Item) : Item := item.setInteger .DURATION (max 0 time)

def getTier (item : Item) : Int64 :=
  if item.hasInteger .TIER then
    let tier := item.getAttribute .uint8 .TIER
    if sv.maxItemTier < tier.toInt then 0 else tier
  else 0

def addUniqueId (uniqueId : Int64) (item : Item) : Item :=
  if item.hasInteger .UNIQUEID then item
  else if sv.addUniqueItem (UInt16.ofNat uniqueId.toUInt64.toNat) then
    item.setInteger .UNIQUEID uniqueId
  else item

def setDefaultDuration (item : Item) : Item :=
  let duration := (sv.items item.id).decayTime * 1000
  if duration ≠ 0 then item.setDuration (IntType.int32.cast (Int64.ofNat duration.toNat)) else item

/-- `Item::Item`, with the count `0` that it has by default. -/
def new (id : UInt16) : Item :=
  let item : Item :=
    { id, count := 1, integers := fun _ => none, strings := fun _ => none, customAttributeMap := [] }
  let it := sv.items id
  let charges := Int64.ofNat it.charges.toNat
  setDefaultDuration sv <|
    if it.isFluid then item.setInteger .FLUIDTYPE (Int64.ofNat (max 1 (min 0 FLUID_INK)).toNat)
    else if it.stackable then if it.charges ≠ 0 then item.setItemCount charges else item
    else if it.charges ≠ 0 then item.setInteger .CHARGES charges
    else item

end Item

end TiabloServer.Attributes
