import TiabloServer.Attributes.Item

/-!
# Writing and reading the attributes of an item

`Item::serializeAttr` writes fields, each with a tag in front; `Item::unserializeAttr` reads a tag
and hands the field to `Item::readAttr`. A read that fails leaves the stream where it stopped.

## Main definitions

* `Attributes.readAttr` — one field.
* `Attributes.unserializeAttr` — all fields.
-/

namespace TiabloServer.Attributes

variable (sv : Server)

/-! ## Tags -/

/-- The members of `AttrTypes_t` that `readAttr` has a case for, and all other values. -/
inductive AttrType where
  | ATTR_STORE
  | ATTR_ACTION_ID
  | ATTR_UNIQUE_ID
  | ATTR_TEXT
  | ATTR_DESC
  | ATTR_TELE_DEST
  | ATTR_DEPOT_ID
  | ATTR_RUNE_CHARGES
  | ATTR_HOUSEDOORID
  | ATTR_COUNT
  | ATTR_DURATION
  | ATTR_DECAYING_STATE
  | ATTR_WRITTENDATE
  | ATTR_WRITTENBY
  | ATTR_SLEEPERGUID
  | ATTR_SLEEPSTART
  | ATTR_CHARGES
  | ATTR_CONTAINER_ITEMS
  | ATTR_NAME
  | ATTR_ARTICLE
  | ATTR_PLURALNAME
  | ATTR_WEIGHT
  | ATTR_ATTACK
  | ATTR_DEFENSE
  | ATTR_EXTRADEFENSE
  | ATTR_ARMOR
  | ATTR_HITCHANCE
  | ATTR_SHOOTRANGE
  | ATTR_SPECIAL
  | ATTR_IMBUEMENT_SLOT
  | ATTR_OPENCONTAINER
  | ATTR_CUSTOM_ATTRIBUTES
  | ATTR_QUICKLOOTCONTAINER
  | ATTR_AMOUNT
  | ATTR_TIER
  | ATTR_CUSTOM
  | ATTR_STORE_INBOX_CATEGORY
  | ATTR_OWNER
  | ATTR_OBTAINCONTAINER
  | other
deriving DecidableEq

/-- The value of a tag. -/
def AttrType.value : AttrType → ℕ
  | .ATTR_STORE => 1
  | .ATTR_ACTION_ID => 4
  | .ATTR_UNIQUE_ID => 5
  | .ATTR_TEXT => 6
  | .ATTR_DESC => 7
  | .ATTR_TELE_DEST => 8
  | .ATTR_DEPOT_ID => 10
  | .ATTR_RUNE_CHARGES => 12
  | .ATTR_HOUSEDOORID => 14
  | .ATTR_COUNT => 15
  | .ATTR_DURATION => 16
  | .ATTR_DECAYING_STATE => 17
  | .ATTR_WRITTENDATE => 18
  | .ATTR_WRITTENBY => 19
  | .ATTR_SLEEPERGUID => 20
  | .ATTR_SLEEPSTART => 21
  | .ATTR_CHARGES => 22
  | .ATTR_CONTAINER_ITEMS => 23
  | .ATTR_NAME => 24
  | .ATTR_ARTICLE => 25
  | .ATTR_PLURALNAME => 26
  | .ATTR_WEIGHT => 27
  | .ATTR_ATTACK => 28
  | .ATTR_DEFENSE => 29
  | .ATTR_EXTRADEFENSE => 30
  | .ATTR_ARMOR => 31
  | .ATTR_HITCHANCE => 32
  | .ATTR_SHOOTRANGE => 33
  | .ATTR_SPECIAL => 34
  | .ATTR_IMBUEMENT_SLOT => 35
  | .ATTR_OPENCONTAINER => 36
  | .ATTR_CUSTOM_ATTRIBUTES => 37
  | .ATTR_QUICKLOOTCONTAINER => 38
  | .ATTR_AMOUNT => 39
  | .ATTR_TIER => 40
  | .ATTR_CUSTOM => 41
  | .ATTR_STORE_INBOX_CATEGORY => 42
  | .ATTR_OWNER => 43
  | .ATTR_OBTAINCONTAINER => 44
  | .other => 255

/-- The tags that `readAttr` has a case for. -/
def AttrType.all : List AttrType :=
  [.ATTR_STORE, .ATTR_ACTION_ID, .ATTR_UNIQUE_ID, .ATTR_TEXT, .ATTR_DESC, .ATTR_TELE_DEST,
    .ATTR_DEPOT_ID, .ATTR_RUNE_CHARGES, .ATTR_HOUSEDOORID, .ATTR_COUNT, .ATTR_DURATION,
    .ATTR_DECAYING_STATE, .ATTR_WRITTENDATE, .ATTR_WRITTENBY, .ATTR_SLEEPERGUID, .ATTR_SLEEPSTART,
    .ATTR_CHARGES, .ATTR_CONTAINER_ITEMS, .ATTR_NAME, .ATTR_ARTICLE, .ATTR_PLURALNAME,
    .ATTR_WEIGHT, .ATTR_ATTACK, .ATTR_DEFENSE, .ATTR_EXTRADEFENSE, .ATTR_ARMOR, .ATTR_HITCHANCE,
    .ATTR_SHOOTRANGE, .ATTR_SPECIAL, .ATTR_IMBUEMENT_SLOT, .ATTR_OPENCONTAINER,
    .ATTR_CUSTOM_ATTRIBUTES, .ATTR_QUICKLOOTCONTAINER, .ATTR_AMOUNT, .ATTR_TIER, .ATTR_CUSTOM,
    .ATTR_STORE_INBOX_CATEGORY, .ATTR_OWNER, .ATTR_OBTAINCONTAINER]

/-- `static_cast<AttrTypes_t>`. -/
def AttrType.ofValue (n : ℕ) : AttrType :=
  (AttrType.all.find? fun tag => tag.value = n).getD .other

/-- `write<uint8_t>` of a tag. -/
def writeTag (tag : AttrType) : Str := write .uint8 (Int64.ofNat tag.value)

/-! ## Custom attributes -/

/-- `write<double>`: the 64 bits. -/
def writeDouble (bits : UInt64) : Str := write .uint64 bits.toInt64

/-- `CustomAttribute::serialize`. -/
def CustomAttribute.serialize : CustomAttribute → Str
  | .string value => write .uint8 1 ++ writeString value
  | .integer value => write .uint8 2 ++ write .int64 value
  | .double bits => write .uint8 3 ++ writeDouble bits
  | .bool value => write .uint8 4 ++ write .uint8 (if value then 1 else 0)

/-- A read whose result is turned into another. -/
def mapRead {α β : Type} (f : α → β) : Option α × Str → Option β × Str
  | (a, s) => (a.map f, s)

/-- `CustomAttribute::unserialize`. -/
def CustomAttribute.unserialize (s : Str) : Option CustomAttribute × Str :=
  match read .uint8 s with
  | (none, s) => (none, s)
  | (some type, s) =>
    if type = 1 then mapRead .string (readString s)
    else if type = 2 then mapRead .integer (read .int64 s)
    else if type = 3 then mapRead (fun v => .double v.toUInt64) (read .uint64 s)
    else if type = 4 then mapRead (fun v => .bool (v != 0)) (read .uint8 s)
    else (none, s)

/-! ## Writing -/

namespace Item

variable (item : Item)

/-- Writes an integer that is not zero. -/
def writeNonzero (type : IntegerAttribute) (T : IntType) (tag : AttrType) : Str :=
  if item.getAttribute T type ≠ 0 then writeTag tag ++ write T (item.getAttribute T type) else []

/-- Writes an integer that is set. -/
def writeInteger (type : IntegerAttribute) (T : IntType) (tag : AttrType) : Str :=
  if item.hasInteger type then writeTag tag ++ write T (item.getAttribute T type) else []

/-- Writes a text that is not empty. -/
def writeText (type : StringAttribute) (tag : AttrType) : Str :=
  if item.getString type ≠ [] then writeTag tag ++ writeString (item.getString type) else []

/-- Writes a text that is set. -/
def writeSet (type : StringAttribute) (tag : AttrType) : Str :=
  if item.hasString type then writeTag tag ++ writeString (item.getString type) else []

/-- The block for `ATTR_COUNT`. -/
def writeCount : Str :=
  let it := sv.items item.id
  if it.stackable ∨ it.isFluid then
    writeTag .ATTR_COUNT ++ write .uint8 (item.getSubType sv)
  else []

/-- The block for `ATTR_ACTION_ID`. -/
def writeActionId : Str :=
  if (sv.items item.id).movable then item.writeNonzero .ACTIONID .uint16 .ATTR_ACTION_ID else []

/-- The block for `ATTR_DURATION`. -/
def writeDuration : Str :=
  if item.hasInteger .DURATION then
    writeTag .ATTR_DURATION ++ write .int32 (item.getDuration sv)
  else []

/-- The block for `ATTR_DECAYING_STATE`. -/
def writeDecaying : Str :=
  if item.getDecaying = DECAYING_TRUE ∨ item.getDecaying = DECAYING_PENDING then
    writeTag .ATTR_DECAYING_STATE ++ write .uint8 item.getDecaying
  else []

/-- The block for `ATTR_TIER`. -/
def writeTier : Str :=
  if item.hasInteger .TIER then writeTag .ATTR_TIER ++ write .uint8 (item.getTier sv) else []

/-- The loop over the custom attributes. -/
def writeEntries (map : List (Str × CustomAttribute)) : Str :=
  map.flatMap fun e => writeString e.1 ++ e.2.serialize

/-- The block for `ATTR_CUSTOM`. -/
def writeCustom : Str :=
  if item.customAttributeMap ≠ [] then
    writeTag .ATTR_CUSTOM ++ (write .uint64 (Int64.ofNat item.customAttributeMap.length) ++
      writeEntries item.customAttributeMap)
  else []

/-- `Item::serializeAttr`. -/
def serializeAttr : Str :=
  item.writeNonzero .STORE .int64 .ATTR_STORE ++
  item.writeCount sv ++
  item.writeNonzero .CHARGES .uint16 .ATTR_CHARGES ++
  item.writeActionId sv ++
  item.writeText .TEXT .ATTR_TEXT ++
  item.writeNonzero .DATE .uint64 .ATTR_WRITTENDATE ++
  item.writeText .WRITER .ATTR_WRITTENBY ++
  item.writeText .DESCRIPTION .ATTR_DESC ++
  item.writeDuration sv ++
  item.writeDecaying ++
  item.writeSet .NAME .ATTR_NAME ++
  item.writeSet .ARTICLE .ATTR_ARTICLE ++
  item.writeSet .PLURALNAME .ATTR_PLURALNAME ++
  item.writeInteger .WEIGHT .uint32 .ATTR_WEIGHT ++
  item.writeInteger .ATTACK .int32 .ATTR_ATTACK ++
  item.writeInteger .DEFENSE .int32 .ATTR_DEFENSE ++
  item.writeInteger .EXTRADEFENSE .int32 .ATTR_EXTRADEFENSE ++
  item.writeInteger .IMBUEMENT_SLOT .int32 .ATTR_IMBUEMENT_SLOT ++
  item.writeInteger .OPENCONTAINER .uint8 .ATTR_OPENCONTAINER ++
  item.writeInteger .ARMOR .int32 .ATTR_ARMOR ++
  item.writeInteger .HITCHANCE .int8 .ATTR_HITCHANCE ++
  item.writeInteger .SHOOTRANGE .uint8 .ATTR_SHOOTRANGE ++
  item.writeSet .SPECIAL .ATTR_SPECIAL ++
  item.writeInteger .QUICKLOOTCONTAINER .uint32 .ATTR_QUICKLOOTCONTAINER ++
  item.writeTier sv ++
  item.writeInteger .AMOUNT .uint16 .ATTR_AMOUNT ++
  item.writeSet .STORE_INBOX_CATEGORY .ATTR_STORE_INBOX_CATEGORY ++
  item.writeInteger .OWNER .uint32 .ATTR_OWNER ++
  item.writeCustom ++
  item.writeInteger .OBTAINCONTAINER .uint32 .ATTR_OBTAINCONTAINER

end Item

/-! ## Reading -/

inductive Attr_ReadValue where
  | ATTR_READ_CONTINUE
  | ATTR_READ_ERROR
  | ATTR_READ_END
deriving DecidableEq

/-- A case of `readAttr` that reads a value and then sets it. -/
def readField {α : Type} (item : Item) (set : α → Item → Item) :
    Option α × Str → Attr_ReadValue × Item × Str
  | (none, s) => (.ATTR_READ_ERROR, item, s)
  | (some a, s) => (.ATTR_READ_CONTINUE, set a item, s)

/-- The bytes of a text of the source. -/
def ofString (s : String) : Str := s.toList.map fun c => UInt8.ofNat c.toNat

/-- The number of leading decimal digits, from `n` on. -/
def digits (n : ℕ) : Str → ℕ
  | [] => n
  | c :: s => if 48 ≤ c ∧ c ≤ 57 then digits (10 * n + (c.toNat - 48)) s else n

/-- `std::atoi`: space, a sign and digits. What does not fit `int` wraps around. -/
def atoi (s : Str) : Int64 :=
  let s := s.dropWhile fun c => c = 32 || 9 ≤ c && c ≤ 13
  match s with
  | [] => 0
  | c :: s' =>
    if c = 45 then IntType.int32.cast (-Int64.ofNat (digits 0 s'))
    else if c = 43 then IntType.int32.cast (Int64.ofNat (digits 0 s'))
    else IntType.int32.cast (Int64.ofNat (digits 0 s))

/-- The case `ATTR_SPECIAL`, with the text it has read. -/
def setSpecial (special : Str) (item : Item) : Item :=
  let item := item.setString .SPECIAL special
  if item.id = HIRELING_LAMP then
    (item.removeString .SPECIAL).addCustomAttribute (ofString "Hireling") (.integer (atoi special))
  else item

/-- The case `ATTR_DECAYING_STATE`, with the state it has read. -/
def setDecayingState (state : Int64) (item : Item) : Item :=
  if state ≠ 0 then item.setDecaying DECAYING_PENDING else item

/-- What the deprecated case does to items that can be wrapped. -/
def migrateStore (item : Item) : Item :=
  if item.hasCustomAttribute (ofString "unWrapId") ∧ item.getAttribute .int64 .STORE = 0 then
    item.setInteger .STORE sv.getTimeNow
  else item

/-- The loop over `n` custom attributes; `after` is done once an attribute has been added. -/
def readCustom (after : Item → Item) : ℕ → Item → Str → Attr_ReadValue × Item × Str
  | 0, item, s => (.ATTR_READ_CONTINUE, item, s)
  | n + 1, item, s =>
    match readString s with
    | (none, s) => (.ATTR_READ_ERROR, item, s)
    | (some key, s) =>
      match CustomAttribute.unserialize s with
      | (none, s) => (.ATTR_READ_ERROR, item, s)
      | (some value, s) => readCustom after n (after (item.addCustomAttribute key value)) s

/-- The cases `ATTR_CUSTOM` and `ATTR_CUSTOM_ATTRIBUTES`. -/
def readCustomMap (after : Item → Item) (item : Item) (s : Str) : Attr_ReadValue × Item × Str :=
  match read .uint64 s with
  | (none, s) => (.ATTR_READ_ERROR, item, s)
  | (some size, s) => readCustom after size.toUInt64.toNat item s

/-- `Item::readAttr`. -/
def readAttr (attr : AttrType) (item : Item) (s : Str) : Attr_ReadValue × Item × Str :=
  match attr with
  | .ATTR_STORE => readField item (Item.setInteger .STORE) (read .int64 s)
  | .ATTR_COUNT => readField item (Item.setSubType sv) (read .uint8 s)
  | .ATTR_RUNE_CHARGES => readField item (Item.setSubType sv) (read .uint8 s)
  | .ATTR_ACTION_ID => readField item (Item.setInteger .ACTIONID) (read .uint16 s)
  | .ATTR_UNIQUE_ID => readField item (Item.addUniqueId sv) (read .uint16 s)
  | .ATTR_TEXT => readField item (Item.setString .TEXT) (readString s)
  | .ATTR_WRITTENDATE => readField item (Item.setInteger .DATE) (read .uint64 s)
  | .ATTR_WRITTENBY => readField item (Item.setString .WRITER) (readString s)
  | .ATTR_DESC => readField item (Item.setString .DESCRIPTION) (readString s)
  | .ATTR_CHARGES => readField item (Item.setSubType sv) (read .uint16 s)
  | .ATTR_DURATION => readField item Item.setDuration (read .int32 s)
  | .ATTR_DECAYING_STATE => readField item setDecayingState (read .uint8 s)
  | .ATTR_NAME => readField item (Item.setString .NAME) (readString s)
  | .ATTR_ARTICLE => readField item (Item.setString .ARTICLE) (readString s)
  | .ATTR_PLURALNAME => readField item (Item.setString .PLURALNAME) (readString s)
  | .ATTR_WEIGHT => readField item (Item.setInteger .WEIGHT) (read .uint32 s)
  | .ATTR_ATTACK => readField item (Item.setInteger .ATTACK) (read .int32 s)
  | .ATTR_DEFENSE => readField item (Item.setInteger .DEFENSE) (read .int32 s)
  | .ATTR_EXTRADEFENSE => readField item (Item.setInteger .EXTRADEFENSE) (read .int32 s)
  | .ATTR_IMBUEMENT_SLOT => readField item (Item.setInteger .IMBUEMENT_SLOT) (read .int32 s)
  | .ATTR_OPENCONTAINER => readField item (Item.setInteger .OPENCONTAINER) (read .uint8 s)
  | .ATTR_ARMOR => readField item (Item.setInteger .ARMOR) (read .int32 s)
  | .ATTR_HITCHANCE => readField item (Item.setInteger .HITCHANCE) (read .int8 s)
  | .ATTR_SHOOTRANGE => readField item (Item.setInteger .SHOOTRANGE) (read .uint8 s)
  | .ATTR_SPECIAL => readField item setSpecial (readString s)
  | .ATTR_QUICKLOOTCONTAINER =>
    readField item (Item.setInteger .QUICKLOOTCONTAINER) (read .uint32 s)
  | .ATTR_DEPOT_ID => readField item (fun _ => id) (skip 2 s)
  | .ATTR_HOUSEDOORID => readField item (fun _ => id) (skip 1 s)
  | .ATTR_SLEEPERGUID => readField item (fun _ => id) (skip 4 s)
  | .ATTR_SLEEPSTART => readField item (fun _ => id) (skip 4 s)
  | .ATTR_TELE_DEST => readField item (fun _ => id) (skip 5 s)
  | .ATTR_CONTAINER_ITEMS => (.ATTR_READ_ERROR, item, s)
  | .ATTR_CUSTOM_ATTRIBUTES => readCustomMap (migrateStore sv) item s
  | .ATTR_TIER => readField item (Item.setInteger .TIER) (read .uint8 s)
  | .ATTR_AMOUNT => readField item (Item.setInteger .AMOUNT) (read .uint16 s)
  | .ATTR_CUSTOM => readCustomMap id item s
  | .ATTR_STORE_INBOX_CATEGORY =>
    readField item (Item.setString .STORE_INBOX_CATEGORY) (readString s)
  | .ATTR_OWNER => readField item (Item.setInteger .OWNER) (read .uint32 s)
  | .ATTR_OBTAINCONTAINER => readField item (Item.setInteger .OBTAINCONTAINER) (read .uint32 s)
  | .other => (.ATTR_READ_ERROR, item, s)

/-- `Item::unserializeAttr`, at most `fuel` times round. -/
def unserializeAttr : ℕ → Item → Str → Bool × Item × Str
  | 0, item, s => (true, item, s)
  | fuel + 1, item, s =>
    match read .uint8 s with
    | (none, s) => (true, item, s)
    | (some attr_type, s) =>
      if attr_type = 0 then (true, item, s)
      else
        match readAttr sv (AttrType.ofValue attr_type.toUInt64.toNat) item s with
        | (.ATTR_READ_ERROR, item, s) => (false, item, s)
        | (.ATTR_READ_END, item, s) => (true, item, s)
        | (.ATTR_READ_CONTINUE, item, s) => unserializeAttr fuel item s

end TiabloServer.Attributes
