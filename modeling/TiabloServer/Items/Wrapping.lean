import TiabloServer.Attributes.Item

/-!
# Wrapping

`Game::wrapItem` turns an item on the tile of a house into a decoration kit, and `Game::unwrapItem`
turns the kit into an item again (`game/game.cpp`). Between them `Game::transformItem` changes an
item in place, takes it from the tile and puts it back, or replaces it by a new one.

An item is one that lies on the tile, where it is found and has room; all ids are registered. What
the decay of items does is given by a function that changes nothing but the attributes of its clock.

## Main definitions

* `Wrapping.Restored` — what unwrapping should give back.
* `Wrapping.Kept` — the condition on the item before it is wrapped.

## Main results

* `Wrapping.roundTrip_agrees` — the item after both calls, apart from its clock.
* `Wrapping.roundTrip_restored_iff` — an item comes back only when the condition holds, and then it
  does if its decay is not running.
-/

namespace TiabloServer.Wrapping

open Attributes (IntegerAttribute StringAttribute)
open Items (ItemGroup)

/-! ## Items -/

/-- The fields of an `ItemType` that are read here. -/
structure ItemType where
  group : ItemGroup
  /-- The number in `ItemTypes_t`. -/
  type : ℕ
  stackable : Bool
  charges : ℕ
  alwaysOnTopOrder : ℕ
  decayTime : ℕ
  decayTo : ℤ
  stopTime : Bool
  /-- `CreateItem` makes an `Item` with the count, not a container, a bed or another class without
  it. -/
  createdWithCount : Bool
  /-- The id of the item that `CreateItem` makes. -/
  createdId : UInt16

/-- `isFluidContainer() || isSplash()`. -/
def ItemType.isFluid (it : ItemType) : Bool := it.group = .ITEM_GROUP_FLUID || it.group = .ITEM_GROUP_SPLASH

/-- `ItemType::hasSubType`. -/
def ItemType.hasSubType (it : ItemType) : Bool := it.isFluid || it.stackable || it.charges != 0

/-- The value of a custom attribute. -/
inductive CustomAttribute where
  | integer (value : ℤ)
  | string (value : String)
  | double (bits : UInt64)
  | bool (value : Bool)
deriving DecidableEq

/-- An `Item` with its attributes. -/
structure Item where
  id : UInt16
  count : UInt8
  integers : IntegerAttribute → Option ℤ
  strings : StringAttribute → Option String
  custom : String → Option CustomAttribute

namespace Item

variable (x : Item)

/-- `setAttribute`, of an integer. -/
def setInteger (a : IntegerAttribute) (v : ℤ) : Item := { x with integers := Function.update x.integers a (some v) }

/-- `removeAttribute`, of an integer. -/
def removeInteger (a : IntegerAttribute) : Item := { x with integers := Function.update x.integers a none }

/-- `setAttribute`, of a text. -/
def setString (a : StringAttribute) (v : String) : Item := { x with strings := Function.update x.strings a (some v) }

/-- `removeAttribute`, of a text. -/
def removeString (a : StringAttribute) : Item := { x with strings := Function.update x.strings a none }

/-- `setCustomAttribute`. -/
def setCustom (key : String) (v : CustomAttribute) : Item := { x with custom := Function.update x.custom key (some v) }

/-- `removeCustomAttribute`. -/
def removeCustom (key : String) : Item := { x with custom := Function.update x.custom key none }

/-- `getAttribute<uint16_t>`. -/
def getAttribute (a : IntegerAttribute) : ℕ := (((x.integers a).getD 0) % 2 ^ 16).toNat

def setItemCount (n : ℕ) : Item := { x with count := UInt8.ofNat n }

/-- The attributes of the clock of the decay. -/
def clock : IntegerAttribute → Bool
  | .DURATION | .DECAYSTATE | .DURATION_TIMESTAMP => true
  | _ => false

end Item

/-- Two items have the same data, apart from their clocks. -/
structure Agrees (x y : Item) : Prop where
  id : x.id = y.id
  count : x.count = y.count
  strings : x.strings = y.strings
  custom : x.custom = y.custom
  integers : ∀ a, Item.clock a = false → x.integers a = y.integers a

def ITEM_DECORATION_KIT : UInt16 := 23398

/-- The key of `unWrapId`. -/
def unWrapId : String := "unwrapid"

def isCaskItem (itemId : UInt16) : Bool :=
  (25879 ≤ itemId && itemId ≤ 25883) || (25889 ≤ itemId && itemId ≤ 25893) ||
    (25899 ≤ itemId && itemId ≤ 25902)

/-- The types of items, the decay and the time. The decoration kit is a plain item that does not
decay. -/
structure Server where
  types : UInt16 → ItemType
  startDecaying : Item → Item
  OTSYS_TIME : ℤ
  getName : UInt16 → String
  startDecaying_agrees : ∀ x, Agrees (startDecaying x) x
  kit_group : (types ITEM_DECORATION_KIT).group = .ITEM_GROUP_NONE
  kit_stackable : (types ITEM_DECORATION_KIT).stackable = false
  kit_charges : (types ITEM_DECORATION_KIT).charges = 0
  kit_createdId : (types ITEM_DECORATION_KIT).createdId = ITEM_DECORATION_KIT

/-! ## The functions of the source -/

section Source

variable (sv : Server)

def getSubType (x : Item) : ℕ :=
  if (sv.types x.id).isFluid then x.getAttribute .FLUIDTYPE
  else if (sv.types x.id).stackable then x.count.toNat
  else if (sv.types x.id).charges ≠ 0 then x.getAttribute .CHARGES
  else x.count.toNat

def setSubType (n : ℕ) (x : Item) : Item :=
  if (sv.types x.id).isFluid then x.setInteger .FLUIDTYPE n
  else if (sv.types x.id).stackable then x.setItemCount n
  else if (sv.types x.id).charges ≠ 0 then x.setInteger .CHARGES n
  else x.setItemCount n

def setDefaultSubtype (x : Item) : Item :=
  let it := sv.types x.id
  let x := x.setItemCount 1
  if it.charges ≠ 0 then
    if it.stackable then x.setItemCount it.charges else x.setInteger .CHARGES it.charges
  else x

def isRewardCorpse (x : Item) : Bool := (x.integers .CORPSEOWNER).getD 0 % 2 ^ 32 == 2 ^ 31 - 1

/-- The clock in `setID`, where the new type does not decay. -/
def stopClock (newid : UInt16) (x : Item) : Item :=
  let it := sv.types newid
  if it.decayTime * 1000 = 0 ∧ it.stopTime = false ∧ it.decayTo < 0 then
    (if (x.integers .DECAYSTATE).isSome then x.setInteger .DECAYSTATE 3 else x).removeInteger .DURATION
  else x

/-- The owner of a corpse in `setID`. -/
def dropCorpseOwner (x : Item) : Item := if isRewardCorpse x then x else x.removeInteger .CORPSEOWNER

def setID (newid : UInt16) (x : Item) : Item :=
  let prevIt := sv.types x.id
  let newDuration := (sv.types newid).decayTime * 1000
  let x := dropCorpseOwner (stopClock sv newid { x with id := newid })
  if 0 < newDuration ∧ (prevIt.stopTime = false ∨ (x.integers .DURATION).isNone) then
    (x.setInteger .DECAYSTATE 2).setInteger .DURATION newDuration
  else x

/-- The conversion to `int32_t`. -/
def toInt32 (v : ℤ) : ℤ := v.bmod (2 ^ 32)

def getDuration (x : Item) : ℤ :=
  let decayState := (x.integers .DECAYSTATE).getD 0
  if decayState = 1 ∨ decayState = 3 then
    max 0 (toInt32 (toInt32 ((x.integers .DURATION_TIMESTAMP).getD 0) - toInt32 sv.OTSYS_TIME))
  else toInt32 ((x.integers .DURATION).getD 0)

def setDefaultDuration (x : Item) : Item :=
  let duration := (sv.types x.id).decayTime * 1000
  if duration ≠ 0 then x.setInteger .DURATION duration else x

/-- The constructor of `Item`. -/
def newItem (id : UInt16) (itemCount : ℕ) : Item :=
  let it := sv.types id
  let x : Item := ⟨id, 1, fun _ => none, fun _ => none, fun _ => none⟩
  setDefaultDuration sv <|
    if it.isFluid then x.setInteger .FLUIDTYPE (min (max itemCount 1) 18 : ℕ)
    else if it.stackable then
      if itemCount ≠ 0 then x.setItemCount itemCount
      else if it.charges ≠ 0 then x.setItemCount it.charges
      else x
    else if it.charges ≠ 0 then x.setInteger .CHARGES (if itemCount ≠ 0 then itemCount else it.charges : ℕ)
    else x

/-- The count that the constructor gets in `CreateItem`. -/
def createdCount (type : UInt16) (count : ℕ) : ℕ :=
  let it := sv.types type
  if it.createdWithCount then if it.stackable ∧ count = 0 then 1 else count else 0

/-- `Item::CreateItem`. -/
def CreateItem (type : UInt16) (count : ℕ) : Item := newItem sv (sv.types type).createdId (createdCount sv type count)

/-- The conversion to `uint16_t`. -/
def toUInt16 (n : ℤ) : ℕ := (n % 2 ^ 16).toNat

/-- `Tile::updateThing`. -/
def updateThing (itemId : UInt16) (count : ℕ) (x : Item) : Item := setSubType sv (count % 2 ^ 16) (setID sv itemId x)

/-- `Item::transform`: the new item. -/
def transform (itemId : UInt16) (itemCount : ℕ) (x : Item) : Item :=
  let new := CreateItem sv itemId itemCount
  let duration := getDuration sv x
  sv.startDecaying (if 0 < duration then new.setInteger .DURATION duration else new)

/-- `isAlwaysOnTop`, of an id. -/
def isAlwaysOnTop (id : UInt16) : Bool := (sv.types id).alwaysOnTopOrder != 0

/-- `Game::transformItem`, with a count other than 0. -/
def transformItem (newId : UInt16) (newCount : ℤ) (x : Item) : Item :=
  let curType := sv.types x.id
  let newType := sv.types newId
  if x.id = newId ∧ (newCount = -1 ∨ newCount = getSubType sv x) then x
  else if isAlwaysOnTop sv x.id ≠ isAlwaysOnTop sv newId then
    let x' := setID sv newId x
    sv.startDecaying (if newCount = -1 then x' else setSubType sv (toUInt16 newCount) x')
  else if curType.type = newType.type then
    let x' := if x.id ≠ newId ∧ newType.group ≠ curType.group then setDefaultSubtype sv x else x
    let count := if newCount ≠ -1 ∧ newType.hasSubType then toUInt16 newCount else getSubType sv x
    sv.startDecaying (updateThing sv newId count x')
  else transform sv newId (toUInt16 newCount) x

/-- `Game::wrapItem`. -/
def wrapItem (x : Item) : Item :=
  let hiddenCharges := if isCaskItem x.id then getSubType sv x else 0
  let amount := x.count.toNat
  let kit := transformItem sv ITEM_DECORATION_KIT (-1) x
  let kit := kit.setCustom unWrapId (.integer x.id.toNat)
  let kit := kit.setString .DESCRIPTION
    ("Unwrap it in your own house to create a <" ++ sv.getName x.id ++ ">.")
  let kit := if 0 < hiddenCharges then kit.setInteger .DATE hiddenCharges else kit
  let kit := if 0 < amount then kit.setInteger .AMOUNT amount else kit
  sv.startDecaying kit

/-- `Game::unwrapItem`, after the checks of the owner and of the number of beds. -/
def unwrapItem (newId : UInt16) (kit : Item) : Item :=
  let hiddenCharges := kit.getAttribute .DATE
  let amount := if kit.getAttribute .AMOUNT = 0 then 1 else kit.getAttribute .AMOUNT
  let x := transformItem sv newId amount kit
  let x := if 0 < hiddenCharges ∧ isCaskItem newId then setSubType sv hiddenCharges x else x
  sv.startDecaying ((x.removeCustom unWrapId).removeString .DESCRIPTION)

/-- The id that is stored in a kit. -/
def storedId (kit : Item) : UInt16 :=
  match kit.custom unWrapId with
  | some (.integer id) => .ofNat (toUInt16 id)
  | _ => 0

/-- An item is wrapped, and its kit is unwrapped with the id that is stored there. -/
def roundTrip (x : Item) : Item := unwrapItem sv (storedId (wrapItem sv x)) (wrapItem sv x)

end Source

/-! ## The item after both calls -/

section Clock

variable {sv : Server} {x y z : Item}

theorem Agrees.refl (x : Item) : Agrees x x := ⟨rfl, rfl, rfl, rfl, fun _ _ => rfl⟩

theorem Agrees.trans (h : Agrees x y) (h' : Agrees y z) : Agrees x z :=
  ⟨h.id.trans h'.id, h.count.trans h'.count, h.strings.trans h'.strings, h.custom.trans h'.custom,
    fun a ha => (h.integers a ha).trans (h'.integers a ha)⟩

theorem Agrees.setInteger (h : Agrees x y) (a : IntegerAttribute) (v : ℤ) :
    Agrees (x.setInteger a v) (y.setInteger a v) := by
  refine ⟨h.id, h.count, h.strings, h.custom, fun a' ha' => ?_⟩
  by_cases heq : a' = a
  · subst heq
    simp [Item.setInteger]
  · simp [Item.setInteger, heq, h.integers a' ha']

theorem Agrees.removeInteger (h : Agrees x y) (a : IntegerAttribute) :
    Agrees (x.removeInteger a) (y.removeInteger a) := by
  refine ⟨h.id, h.count, h.strings, h.custom, fun a' ha' => ?_⟩
  by_cases heq : a' = a
  · subst heq
    simp [Item.removeInteger]
  · simp [Item.removeInteger, heq, h.integers a' ha']

/-- The clock is not compared. -/
theorem Agrees.setClock (h : Agrees x y) {a : IntegerAttribute} (ha : Item.clock a = true) (v : ℤ) :
    Agrees (x.setInteger a v) y := by
  refine ⟨h.id, h.count, h.strings, h.custom, fun a' ha' => ?_⟩
  have hne : a' ≠ a := fun heq => by rw [heq, ha] at ha'; cases ha'
  simp [Item.setInteger, hne, h.integers a' ha']

theorem Agrees.removeClock (h : Agrees x y) {a : IntegerAttribute} (ha : Item.clock a = true) :
    Agrees (x.removeInteger a) y := by
  refine ⟨h.id, h.count, h.strings, h.custom, fun a' ha' => ?_⟩
  have hne : a' ≠ a := fun heq => by rw [heq, ha] at ha'; cases ha'
  simp [Item.removeInteger, hne, h.integers a' ha']

theorem Agrees.setItemCount (h : Agrees x y) (n : ℕ) : Agrees (x.setItemCount n) (y.setItemCount n) :=
  ⟨h.id, rfl, h.strings, h.custom, h.integers⟩

theorem Agrees.withId (h : Agrees x y) (id : UInt16) : Agrees { x with id := id } { y with id := id } :=
  ⟨rfl, h.count, h.strings, h.custom, h.integers⟩

theorem Agrees.getAttribute (h : Agrees x y) {a : IntegerAttribute} (ha : Item.clock a = false) :
    x.getAttribute a = y.getAttribute a := by
  rw [Item.getAttribute, Item.getAttribute, h.integers a ha]

theorem Agrees.getSubType (h : Agrees x y) : getSubType sv x = getSubType sv y := by
  unfold Wrapping.getSubType
  rw [h.id, h.count, h.getAttribute (a := .FLUIDTYPE) rfl, h.getAttribute (a := .CHARGES) rfl]

theorem Agrees.setSubType (h : Agrees x y) (n : ℕ) : Agrees (setSubType sv n x) (setSubType sv n y) := by
  unfold Wrapping.setSubType
  rw [h.id]
  split_ifs
  · exact h.setInteger _ _
  · exact h.setItemCount _
  · exact h.setInteger _ _
  · exact h.setItemCount _

theorem Agrees.setDefaultSubtype (h : Agrees x y) : Agrees (setDefaultSubtype sv x) (setDefaultSubtype sv y) := by
  unfold Wrapping.setDefaultSubtype
  dsimp only
  rw [h.id]
  split_ifs
  · exact (h.setItemCount _).setItemCount _
  · exact (h.setItemCount _).setInteger _ _
  · exact h.setItemCount _

theorem Agrees.isRewardCorpse (h : Agrees x y) : isRewardCorpse x = isRewardCorpse y := by
  rw [Wrapping.isRewardCorpse, Wrapping.isRewardCorpse, h.integers .CORPSEOWNER rfl]

theorem Agrees.dropCorpseOwner (h : Agrees x y) : Agrees (dropCorpseOwner x) (dropCorpseOwner y) := by
  unfold Wrapping.dropCorpseOwner
  rw [h.isRewardCorpse]
  split_ifs
  · exact h
  · exact h.removeInteger _

/-- The item with another id, without the owner of a corpse. -/
def renamed (newid : UInt16) (x : Item) : Item := dropCorpseOwner { x with id := newid }

theorem setID_agrees (newid : UInt16) (h : Agrees x y) : Agrees (setID sv newid x) (renamed newid y) := by
  have hid := h.withId newid
  have hstop : Agrees (stopClock sv newid { x with id := newid }) { y with id := newid } := by
    unfold stopClock
    dsimp only
    split_ifs
    · exact (hid.setClock rfl _).removeClock rfl
    · exact hid.removeClock rfl
    · exact hid
  unfold setID
  dsimp only
  split_ifs
  · exact (hstop.dropCorpseOwner.setClock rfl _).setClock rfl _
  · exact hstop.dropCorpseOwner

variable (sv) in
/-- What `transformItem` makes of an item, apart from the clock. -/
def changed (newId : UInt16) (newCount : ℤ) (x : Item) : Item :=
  let curType := sv.types x.id
  let newType := sv.types newId
  if isAlwaysOnTop sv x.id ≠ isAlwaysOnTop sv newId then
    if newCount = -1 then renamed newId x else setSubType sv (toUInt16 newCount) (renamed newId x)
  else if curType.type = newType.type then
    let x' := if newType.group ≠ curType.group then setDefaultSubtype sv x else x
    let count := if newCount ≠ -1 ∧ newType.hasSubType then toUInt16 newCount else getSubType sv x
    setSubType sv (count % 2 ^ 16) (renamed newId x')
  else CreateItem sv newId (toUInt16 newCount)

theorem transform_agrees (itemId : UInt16) (itemCount : ℕ) (x : Item) :
    Agrees (transform sv itemId itemCount x) (CreateItem sv itemId itemCount) := by
  unfold transform
  dsimp only
  split_ifs
  · exact (sv.startDecaying_agrees _).trans ((Agrees.refl _).setClock rfl _)
  · exact sv.startDecaying_agrees _

variable (sv) in
theorem transformItem_agrees (newId : UInt16) (newCount : ℤ) (h : Agrees x y) (hid : y.id ≠ newId) :
    Agrees (transformItem sv newId newCount x) (changed sv newId newCount y) := by
  unfold transformItem changed
  dsimp only
  rw [h.id, h.getSubType, if_neg fun hsame => hid hsame.1]
  by_cases htop : isAlwaysOnTop sv y.id ≠ isAlwaysOnTop sv newId
  · rw [if_pos htop, if_pos htop]
    refine (sv.startDecaying_agrees _).trans ?_
    split_ifs
    · exact setID_agrees newId h
    · exact (setID_agrees newId h).setSubType _
  rw [if_neg htop, if_neg htop]
  by_cases htype : (sv.types y.id).type = (sv.types newId).type
  · rw [if_pos htype, if_pos htype]
    refine (sv.startDecaying_agrees _).trans ((setID_agrees newId ?_).setSubType _)
    simp only [ne_eq, hid, not_false_eq_true, true_and]
    split_ifs
    · exact h
    · exact h.setDefaultSubtype
  · rw [if_neg htype, if_neg htype]
    exact transform_agrees newId _ x

/-- What `wrapItem` sets in a kit. -/
def decorated (name : String) (id : UInt16) (hiddenCharges amount : ℕ) (kit : Item) : Item :=
  let kit := kit.setCustom unWrapId (.integer id.toNat)
  let kit := kit.setString .DESCRIPTION ("Unwrap it in your own house to create a <" ++ name ++ ">.")
  let kit := if 0 < hiddenCharges then kit.setInteger .DATE hiddenCharges else kit
  if 0 < amount then kit.setInteger .AMOUNT amount else kit

theorem Agrees.decorated (h : Agrees x y) (name : String) (id : UInt16) (hiddenCharges amount : ℕ) :
    Agrees (decorated name id hiddenCharges amount x) (decorated name id hiddenCharges amount y) := by
  have hcustom : Agrees (x.setCustom unWrapId (.integer id.toNat)) (y.setCustom unWrapId (.integer id.toNat)) :=
    ⟨h.id, h.count, h.strings, by rw [Item.setCustom, Item.setCustom, h.custom], h.integers⟩
  have hstring (text : String) : Agrees ((x.setCustom unWrapId (.integer id.toNat)).setString .DESCRIPTION text)
      ((y.setCustom unWrapId (.integer id.toNat)).setString .DESCRIPTION text) :=
    ⟨h.id, h.count, by rw [Item.setString, Item.setString, hcustom.strings], hcustom.custom, h.integers⟩
  unfold Wrapping.decorated
  dsimp only
  split_ifs
  · exact ((hstring _).setInteger _ _).setInteger _ _
  · exact (hstring _).setInteger _ _
  · exact (hstring _).setInteger _ _
  · exact hstring _

variable (sv) in
/-- The charges that `wrapItem` hides. -/
def hidden (x : Item) : ℕ := if isCaskItem x.id then getSubType sv x else 0

variable (sv) in
/-- The kit, apart from the clock. -/
def kitOf (x : Item) : Item :=
  decorated (sv.getName x.id) x.id (hidden sv x) x.count.toNat (changed sv ITEM_DECORATION_KIT (-1) x)

theorem wrapItem_agrees (hid : x.id ≠ ITEM_DECORATION_KIT) : Agrees (wrapItem sv x) (kitOf sv x) :=
  (sv.startDecaying_agrees _).trans ((transformItem_agrees sv _ (-1) (Agrees.refl x) hid).decorated _ _ _ _)

/-- The end of `unwrapItem`. -/
def finished (x : Item) : Item := (x.removeCustom unWrapId).removeString .DESCRIPTION

theorem Agrees.finished (h : Agrees x y) : Agrees (finished x) (finished y) := by
  refine ⟨h.id, h.count, ?_, ?_, h.integers⟩
  · simp only [Wrapping.finished, Item.removeCustom, Item.removeString, h.strings]
  · simp only [Wrapping.finished, Item.removeCustom, Item.removeString, h.custom]

variable (sv) in
/-- What `unwrapItem` makes of a kit, apart from the clock. -/
def unwrapped (newId : UInt16) (kit : Item) : Item :=
  let amount := if kit.getAttribute .AMOUNT = 0 then 1 else kit.getAttribute .AMOUNT
  let x := changed sv newId amount kit
  let x := if 0 < kit.getAttribute .DATE ∧ isCaskItem newId then setSubType sv (kit.getAttribute .DATE) x else x
  finished x

theorem unwrapItem_agrees (newId : UInt16) (h : Agrees x y) (hid : y.id ≠ newId) :
    Agrees (unwrapItem sv newId x) (unwrapped sv newId y) := by
  unfold unwrapItem unwrapped
  dsimp only
  rw [h.getAttribute (a := .AMOUNT) rfl, h.getAttribute (a := .DATE) rfl]
  refine (sv.startDecaying_agrees _).trans (Agrees.finished ?_)
  generalize (if y.getAttribute .AMOUNT = 0 then 1 else y.getAttribute .AMOUNT) = amount
  have hchanged := transformItem_agrees sv newId amount h hid
  split_ifs
  · exact hchanged.setSubType _
  · exact hchanged

/-- The kit is a kit, and keeps the id of the item. -/
theorem kitOf_id : (kitOf sv x).id = ITEM_DECORATION_KIT := by
  have hrenamed (y : Item) : (renamed ITEM_DECORATION_KIT y).id = ITEM_DECORATION_KIT := by
    unfold renamed dropCorpseOwner
    split_ifs <;> rfl
  have hsub (n : ℕ) (y : Item) : (setSubType sv n y).id = y.id := by
    unfold setSubType
    split_ifs <;> rfl
  have hnew (id : UInt16) (n : ℕ) : (newItem sv id n).id = id := by
    unfold newItem setDefaultDuration
    dsimp only
    split_ifs <;> rfl
  have hchanged : (changed sv ITEM_DECORATION_KIT (-1) x).id = ITEM_DECORATION_KIT := by
    unfold changed
    dsimp only
    split_ifs <;> first
      | exact hrenamed _
      | exact (hsub _ _).trans (hrenamed _)
      | exact (hnew _ _).trans sv.kit_createdId
  unfold kitOf decorated
  dsimp only
  split_ifs <;> exact hchanged

theorem kitOf_custom : (kitOf sv x).custom unWrapId = some (.integer x.id.toNat) := by
  unfold kitOf decorated
  dsimp only
  split_ifs <;> simp [Item.setInteger, Item.setString, Item.setCustom]

/-- **The item after both calls**, apart from the clock. -/
theorem roundTrip_agrees (hid : x.id ≠ ITEM_DECORATION_KIT) :
    Agrees (roundTrip sv x) (unwrapped sv x.id (kitOf sv x)) := by
  have hwrap : Agrees (wrapItem sv x) (kitOf sv x) := wrapItem_agrees hid
  have hstored : storedId (wrapItem sv x) = x.id := by
    have hlt := x.id.toNat_lt
    unfold storedId
    rw [hwrap.custom, kitOf_custom]
    show UInt16.ofNat (toUInt16 x.id.toNat) = x.id
    have htoNat : toUInt16 x.id.toNat = x.id.toNat := by
      unfold toUInt16
      omega
    rw [htoNat, UInt16.ofNat_toNat]
  unfold roundTrip
  rw [hstored]
  exact unwrapItem_agrees x.id hwrap (by rw [kitOf_id]; exact hid.symm)

end Clock

/-! ## Numbers -/

section Numbers

variable {sv : Server} {x y : Item}

/-- The attribute that has the number of an item, if it is not its count. -/
def numberAttribute (it : ItemType) : Option IntegerAttribute :=
  if it.isFluid then some .FLUIDTYPE
  else if it.stackable then none
  else if it.charges ≠ 0 then some .CHARGES
  else none

theorem setSubType_eq (n : ℕ) (x : Item) : setSubType sv n x =
    match numberAttribute (sv.types x.id) with
    | some a => x.setInteger a n
    | none => x.setItemCount n := by
  unfold setSubType numberAttribute
  split_ifs <;> rfl

theorem getSubType_eq (x : Item) : getSubType sv x =
    match numberAttribute (sv.types x.id) with
    | some a => x.getAttribute a
    | none => x.count.toNat := by
  unfold getSubType numberAttribute
  split_ifs <;> rfl

theorem numberAttribute_cases (it : ItemType) : numberAttribute it = none ∨
    (numberAttribute it = some .FLUIDTYPE ∧ it.isFluid = true) ∨
      numberAttribute it = some .CHARGES ∧ it.isFluid = false ∧ it.stackable = false ∧ it.charges ≠ 0 := by
  unfold numberAttribute
  split_ifs with hfluid hstackable hcharges
  · exact .inr (.inl ⟨rfl, hfluid⟩)
  · exact .inl rfl
  · exact .inr (.inr ⟨rfl, by simpa using hfluid, by simpa using hstackable, hcharges⟩)
  · exact .inl rfl

theorem numberAttribute_clock {it : ItemType} {a : IntegerAttribute} (h : numberAttribute it = some a) :
    Item.clock a = false := by
  rcases numberAttribute_cases it with hnone | ⟨hfluid, -⟩ | ⟨hcharges, -⟩
  · rw [hnone] at h
    cases h
  · rw [hfluid] at h
    cases h
    rfl
  · rw [hcharges] at h
    cases h
    rfl

theorem numberAttribute_kit (sv : Server) : numberAttribute (sv.types ITEM_DECORATION_KIT) = none := by
  simp [numberAttribute, ItemType.isFluid, sv.kit_group, sv.kit_stackable, sv.kit_charges]

theorem getAttribute_lt (x : Item) (a : IntegerAttribute) : x.getAttribute a < 2 ^ 16 := by
  unfold Item.getAttribute
  omega

theorem getSubType_lt (x : Item) : getSubType sv x < 2 ^ 16 := by
  rw [getSubType_eq]
  have hcount := x.count.toNat_lt
  split
  · exact getAttribute_lt x _
  · omega

theorem toUInt16_natCast {n : ℕ} (h : n < 2 ^ 16) : toUInt16 n = n := by
  unfold toUInt16
  omega

variable (sv x) in
/-- The item `y` has the id of `x`, the number `n`, and all else from `b`. -/
structure Comes (n : ℕ) (b y : Item) : Prop where
  id : y.id = x.id
  strings : y.strings = b.strings
  custom : y.custom = b.custom
  integers : ∀ a, y.integers a = if numberAttribute (sv.types x.id) = some a then some (n : ℤ) else b.integers a
  count : numberAttribute (sv.types x.id) = none → y.count = UInt8.ofNat n

variable (sv) in
theorem comes_setSubType (n : ℕ) (h : y.id = x.id) : Comes sv x n y (setSubType sv n y) := by
  rw [setSubType_eq, h]
  cases hattribute : numberAttribute (sv.types x.id) with
  | none => exact ⟨h, rfl, rfl, fun a => by simp [hattribute, Item.setItemCount], fun _ => rfl⟩
  | some a =>
    refine ⟨h, rfl, rfl, fun a' => ?_, fun hnone => by rw [hattribute] at hnone; cases hnone⟩
    by_cases heq : a' = a
    · subst heq
      simp [hattribute, Item.setInteger]
    · simp [hattribute, Item.setInteger, heq, Ne.symm heq]

/-- A second number takes the place of the first one. -/
theorem Comes.setSubType {n : ℕ} {b : Item} (h : Comes sv x n b y) (m : ℕ) :
    Comes sv x m b (setSubType sv m y) := by
  have hnext := comes_setSubType sv m h.id
  refine ⟨hnext.id, hnext.strings.trans h.strings, hnext.custom.trans h.custom, fun a => ?_, hnext.count⟩
  rw [hnext.integers, h.integers]
  split_ifs <;> rfl

theorem Comes.finished {n : ℕ} {b : Item} (h : Comes sv x n b y) : Comes sv x n (finished b) (finished y) := by
  refine ⟨h.id, ?_, ?_, h.integers, h.count⟩
  · simp only [Wrapping.finished, Item.removeCustom, Item.removeString, h.strings]
  · simp only [Wrapping.finished, Item.removeCustom, Item.removeString, h.custom]

end Numbers

/-! ## Whether the item comes back -/

section Restored

variable (sv : Server) (x : Item)

/-- What unwrapping should give back: the id, the count or the charges, and all attributes, without
the id that the kit has stored. -/
structure Restored (x' : Item) : Prop where
  id : x'.id = x.id
  subType : getSubType sv x' = getSubType sv x
  unWrapId : x'.custom unWrapId = none
  integers : ∀ a v, x.integers a = some v → x'.integers a = some v
  strings : ∀ a v, x.strings a = some v → x'.strings a = some v
  custom : ∀ key v, key ≠ Wrapping.unWrapId → x.custom key = some v → x'.custom key = some v

/-- The same, apart from the clock of the item. -/
structure RestoredFace (x' : Item) : Prop where
  id : x'.id = x.id
  subType : getSubType sv x' = getSubType sv x
  unWrapId : x'.custom unWrapId = none
  integers : ∀ a v, Item.clock a = false → x.integers a = some v → x'.integers a = some v
  strings : ∀ a v, x.strings a = some v → x'.strings a = some v
  custom : ∀ key v, key ≠ Wrapping.unWrapId → x.custom key = some v → x'.custom key = some v

/-- The decay of the item is not running. -/
def NoClock : Prop := ∀ a, Item.clock a = true → x.integers a = none

/-- The item is taken from the tile and put back, since items of its type are always on top. -/
def Moved : Prop := isAlwaysOnTop sv x.id ≠ isAlwaysOnTop sv ITEM_DECORATION_KIT

/-- The item itself becomes the kit: it is moved, or its type has the number of the kit's. -/
def InPlace : Prop := Moved sv x ∨ (sv.types x.id).type = (sv.types ITEM_DECORATION_KIT).type

instance : Decidable (Moved sv x) := inferInstanceAs (Decidable (_ ≠ _))

instance : Decidable (InPlace sv x) := inferInstanceAs (Decidable (_ ∨ _))

/-- The amount that comes back. -/
def amountBack : ℕ :=
  if x.count ≠ 0 then x.count.toNat
  else if InPlace sv x ∧ x.getAttribute .AMOUNT ≠ 0 then x.getAttribute .AMOUNT
  else 1

/-- The charges that come back. -/
def chargesBack : ℕ :=
  if hidden sv x ≠ 0 then hidden sv x else if InPlace sv x then x.getAttribute .DATE else 0

/-- The number of a new item whose constructor gets a count. -/
def newNumber (it : ItemType) (n : ℕ) : ℕ :=
  if it.isFluid then min (max n 1) 18
  else if it.stackable ∨ it.charges ≠ 0 then
    if n ≠ 0 then n else if it.charges ≠ 0 then it.charges else 1
  else 1

/-- The number that the item gets in the end, as a count, as charges or as a fluid. -/
def numberBack : ℕ :=
  if isCaskItem x.id ∧ chargesBack sv x ≠ 0 then chargesBack sv x
  else if ¬ InPlace sv x then newNumber (sv.types x.id) (createdCount sv x.id (amountBack sv x))
  else if Moved sv x ∨ (sv.types x.id).hasSubType then amountBack sv x
  else x.count.toNat

/-- The item has that number already, as an attribute where its type asks for one; one that is
absent is read as 0. -/
def HasNumber (n : ℕ) : Prop :=
  match numberAttribute (sv.types x.id) with
  | some a => x.integers a = some (n : ℤ) ∨ x.integers a = none ∧ n % 2 ^ 16 = 0
  | none => x.count = UInt8.ofNat n

/-- Nothing that is written into the item itself was there before. -/
structure KeptInPlace : Prop where
  description : x.strings .DESCRIPTION = none
  amount : x.count ≠ 0 → ∀ v, x.integers .AMOUNT = some v → v = x.count.toNat
  date : hidden sv x ≠ 0 → ∀ v, x.integers .DATE = some v → v = hidden sv x
  corpseOwner : isRewardCorpse x = true ∨ x.integers .CORPSEOWNER = none
  charges : ¬ Moved sv x → (sv.types x.id).isFluid = true → (sv.types x.id).stackable = false →
    (sv.types x.id).charges ≠ 0 → ∀ v, x.integers .CHARGES = some v → v = (sv.types x.id).charges

/-- The item has nothing but what `CreateItem` gives to a new one. -/
structure AsCreated : Prop where
  id : (sv.types x.id).createdId = x.id
  strings : ∀ a, x.strings a = none
  custom : ∀ key ≠ unWrapId, x.custom key = none
  integers : ∀ a v, Item.clock a = false → x.integers a = some v →
    a = .FLUIDTYPE ∧ (sv.types x.id).isFluid = true ∨
    a = .CHARGES ∧ (sv.types x.id).isFluid = false ∧ (sv.types x.id).stackable = false ∧ (sv.types x.id).charges ≠ 0

/-- The condition on the item before it is wrapped. -/
structure Kept : Prop where
  number : HasNumber sv x (numberBack sv x)
  inPlace : InPlace sv x → KeptInPlace sv x
  replaced : ¬ InPlace sv x → AsCreated sv x

variable {sv x} {y z : Item}

theorem Restored.face (h : Restored sv x y) : RestoredFace sv x y :=
  ⟨h.id, h.subType, h.unWrapId, fun a v _ hv => h.integers a v hv, h.strings, h.custom⟩

theorem RestoredFace.restored (h : RestoredFace sv x y) (hclock : NoClock x) : Restored sv x y := by
  refine ⟨h.id, h.subType, h.unWrapId, fun a v hv => h.integers a v ?_ hv, h.strings, h.custom⟩
  by_contra htrue
  rw [hclock a (Bool.eq_true_of_not_eq_false htrue)] at hv
  cases hv

/-- The clock does not matter. -/
theorem restoredFace_congr (h : Agrees y z) : RestoredFace sv x y ↔ RestoredFace sv x z := by
  constructor
  · intro hr
    exact ⟨h.id ▸ hr.id, h.getSubType ▸ hr.subType, h.custom ▸ hr.unWrapId,
      fun a v ha hv => (h.integers a ha) ▸ hr.integers a v ha hv, h.strings ▸ hr.strings, h.custom ▸ hr.custom⟩
  · intro hr
    exact ⟨h.id.trans hr.id, h.getSubType.trans hr.subType, (congrFun h.custom _).trans hr.unWrapId,
      fun a v ha hv => (h.integers a ha).trans (hr.integers a v ha hv),
      fun a v hv => (congrFun h.strings a).trans (hr.strings a v hv),
      fun key v hne hv => (congrFun h.custom key).trans (hr.custom key v hne hv)⟩

/-- Whether an item comes back, by its number and all else. -/
theorem Comes.restoredFace {n : ℕ} {b : Item} (h : Comes sv x n b y) : RestoredFace sv x y ↔
    HasNumber sv x n ∧ b.custom unWrapId = none ∧
    (∀ a v, Item.clock a = false → numberAttribute (sv.types x.id) ≠ some a → x.integers a = some v →
      b.integers a = some v) ∧ (∀ a v, x.strings a = some v → b.strings a = some v) ∧
    ∀ key v, key ≠ unWrapId → x.custom key = some v → b.custom key = some v := by
  have hnumber : (getSubType sv y = getSubType sv x ∧
      ∀ a v, numberAttribute (sv.types x.id) = some a → x.integers a = some v → v = (n : ℤ)) ↔ HasNumber sv x n := by
    rw [getSubType_eq, getSubType_eq, h.id, HasNumber]
    cases hattribute : numberAttribute (sv.types x.id) with
    | none =>
      rw [h.count hattribute]
      simp [← UInt8.toNat_inj, eq_comm]
    | some a =>
      have hy : y.integers a = some (n : ℤ) := by rw [h.integers, if_pos hattribute]
      simp only [Item.getAttribute, hy, Option.getD_some]
      cases hx : x.integers a with
      | none =>
        simp only [Option.getD_none, Option.some.injEq]
        constructor
        · rintro ⟨heq, -⟩
          refine .inr ⟨trivial, ?_⟩
          omega
        · rintro (heq | ⟨-, hzero⟩)
          · cases heq
          · refine ⟨by omega, fun a' v heq hv => ?_⟩
            subst heq
            rw [hx] at hv
            cases hv
      | some v =>
        constructor
        · rintro ⟨-, hall⟩
          exact .inl (by rw [hall a v rfl hx])
        · rintro (heq | ⟨heq, -⟩)
          · obtain rfl := Option.some.inj heq
            refine ⟨rfl, fun a' v' heq hv => ?_⟩
            obtain rfl := Option.some.inj heq
            rw [hx] at hv
            exact (Option.some.inj hv).symm
          · cases heq
  rw [← hnumber]
  constructor
  · intro hr
    refine ⟨⟨hr.subType, fun a v ha hv => ?_⟩, h.custom ▸ hr.unWrapId, fun a v hclock ha hv => ?_,
      h.strings ▸ hr.strings, h.custom ▸ hr.custom⟩
    · have hy := hr.integers a v (numberAttribute_clock ha) hv
      rw [h.integers, if_pos ha] at hy
      exact (Option.some.inj hy).symm
    · have hy := hr.integers a v hclock hv
      rwa [h.integers, if_neg ha] at hy
  · rintro ⟨⟨hsub, hnumber⟩, hunwrap, hintegers, hstrings, hcustom⟩
    refine ⟨h.id, hsub, h.custom ▸ hunwrap, fun a v hclock hv => ?_, h.strings ▸ hstrings, h.custom ▸ hcustom⟩
    rw [h.integers]
    split_ifs with ha
    · rw [hnumber a v ha hv]
    · exact hintegers a v hclock ha hv

/-! ## The kit of an item that stays -/

theorem renamed_integers (newid : UInt16) (y : Item) (a : IntegerAttribute) : (renamed newid y).integers a =
    if a = .CORPSEOWNER ∧ isRewardCorpse y = false then none else y.integers a := by
  have hreward : isRewardCorpse { y with id := newid } = isRewardCorpse y := rfl
  unfold renamed dropCorpseOwner
  rw [hreward]
  cases isRewardCorpse y with
  | true => simp
  | false =>
    by_cases ha : a = .CORPSEOWNER
    · simp [ha, Item.removeInteger]
    · simp [ha, Item.removeInteger]

@[simp] theorem renamed_id (newid : UInt16) (y : Item) : (renamed newid y).id = newid := by
  unfold renamed dropCorpseOwner
  split_ifs <;> rfl

@[simp] theorem renamed_strings (newid : UInt16) (y : Item) : (renamed newid y).strings = y.strings := by
  unfold renamed dropCorpseOwner
  split_ifs <;> rfl

@[simp] theorem renamed_custom (newid : UInt16) (y : Item) : (renamed newid y).custom = y.custom := by
  unfold renamed dropCorpseOwner
  split_ifs <;> rfl

theorem setDefaultSubtype_integers (y : Item) (a : IntegerAttribute) : (setDefaultSubtype sv y).integers a =
    if a = .CHARGES ∧ (sv.types y.id).stackable = false ∧ (sv.types y.id).charges ≠ 0 then
      some ((sv.types y.id).charges : ℤ) else y.integers a := by
  unfold setDefaultSubtype
  dsimp only
  by_cases ha : a = .CHARGES <;> split_ifs <;> simp_all [Item.setInteger, Item.setItemCount]

@[simp] theorem setDefaultSubtype_strings (y : Item) : (setDefaultSubtype sv y).strings = y.strings := by
  unfold setDefaultSubtype
  dsimp only
  split_ifs <;> rfl

@[simp] theorem setDefaultSubtype_custom (y : Item) : (setDefaultSubtype sv y).custom = y.custom := by
  unfold setDefaultSubtype
  dsimp only
  split_ifs <;> rfl

variable (sv x) in
/-- The default charges are written into the item, as its group is not that of the kit. -/
def Defaulted : Prop := ¬ Moved sv x ∧ (sv.types x.id).group ≠ .ITEM_GROUP_NONE ∧
  (sv.types x.id).stackable = false ∧ (sv.types x.id).charges ≠ 0

instance : Decidable (Defaulted sv x) := inferInstanceAs (Decidable (_ ∧ _ ∧ _ ∧ _))

variable (sv x) in
/-- An item that has become a kit in its place. -/
structure BecomesKit (kit : Item) : Prop where
  strings : kit.strings = x.strings
  custom : kit.custom = x.custom
  integers : ∀ a, kit.integers a =
    if a = .CORPSEOWNER ∧ isRewardCorpse x = false then none
    else if a = .CHARGES ∧ Defaulted sv x then some ((sv.types x.id).charges : ℤ) else x.integers a
  count : ¬ Moved sv x → kit.count = UInt8.ofNat (getSubType sv x)

theorem becomesKit (h : InPlace sv x) : BecomesKit sv x (changed sv ITEM_DECORATION_KIT (-1) x) := by
  unfold changed
  dsimp only
  by_cases hmoved : Moved sv x
  · have hdefault : ¬ Defaulted sv x := fun h => h.1 hmoved
    have htop : isAlwaysOnTop sv x.id ≠ isAlwaysOnTop sv ITEM_DECORATION_KIT := hmoved
    rw [if_pos htop, if_pos rfl]
    refine ⟨by simp, by simp, fun a => ?_, fun hnot => absurd hmoved hnot⟩
    rw [renamed_integers]
    simp [hdefault]
  have htype := h.resolve_left hmoved
  have htop : ¬ isAlwaysOnTop sv x.id ≠ isAlwaysOnTop sv ITEM_DECORATION_KIT := hmoved
  rw [if_neg htop, if_pos htype]
  have hcount : (if (-1 : ℤ) ≠ -1 ∧ (sv.types ITEM_DECORATION_KIT).hasSubType then toUInt16 (-1)
      else getSubType sv x) % 2 ^ 16 = getSubType sv x := by
    rw [if_neg (by simp)]
    exact Nat.mod_eq_of_lt (getSubType_lt x)
  -- what the default charges change
  have hdefault : ∃ x', (if (sv.types ITEM_DECORATION_KIT).group ≠ (sv.types x.id).group then
      setDefaultSubtype sv x else x) = x' ∧ x'.strings = x.strings ∧ x'.custom = x.custom ∧
      ∀ a, x'.integers a =
        if a = .CHARGES ∧ Defaulted sv x then some ((sv.types x.id).charges : ℤ) else x.integers a := by
    refine ⟨_, rfl, ?_⟩
    rw [sv.kit_group]
    by_cases hgroup : (sv.types x.id).group = .ITEM_GROUP_NONE
    · have hnot : ¬ Defaulted sv x := fun h => h.2.1 hgroup
      rw [if_neg (not_not.2 hgroup.symm)]
      exact ⟨rfl, rfl, fun a => by rw [if_neg fun h => hnot h.2]⟩
    · have hiff : Defaulted sv x ↔ (sv.types x.id).stackable = false ∧ (sv.types x.id).charges ≠ 0 :=
        ⟨fun h => h.2.2, fun h => ⟨hmoved, hgroup, h⟩⟩
      rw [if_pos (Ne.symm hgroup)]
      refine ⟨by simp, by simp, fun a => ?_⟩
      rw [setDefaultSubtype_integers]
      simp only [hiff]
  obtain ⟨x', hx', hstrings, hcustom, hintegers⟩ := hdefault
  have hreward : isRewardCorpse x' = isRewardCorpse x := by
    rw [isRewardCorpse, hintegers, isRewardCorpse, if_neg (by simp)]
  rw [hcount, hx', setSubType_eq, renamed_id, numberAttribute_kit]
  refine ⟨(renamed_strings _ _).trans hstrings, (renamed_custom _ _).trans hcustom, fun a => ?_, fun _ => rfl⟩
  show (renamed _ _).integers a = _
  rw [renamed_integers, hreward, hintegers]

/-- What is written into a kit. -/
theorem decorated_integers (name : String) (id : UInt16) (hiddenCharges amount : ℕ) (kit : Item)
    (a : IntegerAttribute) : (decorated name id hiddenCharges amount kit).integers a =
    if a = .AMOUNT ∧ amount ≠ 0 then some (amount : ℤ)
    else if a = .DATE ∧ hiddenCharges ≠ 0 then some (hiddenCharges : ℤ) else kit.integers a := by
  unfold decorated
  dsimp only
  simp only [Nat.pos_iff_ne_zero]
  by_cases hamount : a = .AMOUNT
  · subst hamount
    split_ifs <;> simp_all [Item.setInteger, Item.setString, Item.setCustom]
  · by_cases hdate : a = .DATE
    · subst hdate
      split_ifs <;> simp_all [Item.setInteger, Item.setString, Item.setCustom]
    · split_ifs <;> simp_all [Item.setInteger, Item.setString, Item.setCustom]

theorem decorated_strings (name : String) (id : UInt16) (hiddenCharges amount : ℕ) (kit : Item)
    {a : StringAttribute} (ha : a ≠ .DESCRIPTION) :
    (decorated name id hiddenCharges amount kit).strings a = kit.strings a := by
  unfold decorated
  dsimp only
  split_ifs <;> simp [Item.setInteger, Item.setString, Item.setCustom, ha]

theorem decorated_custom (name : String) (id : UInt16) (hiddenCharges amount : ℕ) (kit : Item)
    {key : String} (hkey : key ≠ unWrapId) :
    (decorated name id hiddenCharges amount kit).custom key = kit.custom key := by
  unfold decorated
  dsimp only
  split_ifs <;> simp [Item.setInteger, Item.setString, Item.setCustom, hkey]

theorem decorated_count (name : String) (id : UInt16) (hiddenCharges amount : ℕ) (kit : Item) :
    (decorated name id hiddenCharges amount kit).count = kit.count := by
  unfold decorated
  dsimp only
  split_ifs <;> rfl

/-! ## The item that stays -/

variable (sv x) in
/-- What is left of an item that stays, besides its number. -/
structure Stays (b : Item) : Prop where
  strings : b.strings = Function.update x.strings .DESCRIPTION none
  custom : b.custom = Function.update x.custom unWrapId none
  integers : ∀ a, b.integers a =
    if a = .AMOUNT ∧ x.count ≠ 0 then some (x.count.toNat : ℤ)
    else if a = .DATE ∧ hidden sv x ≠ 0 then some (hidden sv x : ℤ)
    else if a = .CORPSEOWNER ∧ isRewardCorpse x = false then none
    else if a = .CHARGES ∧ Defaulted sv x then some ((sv.types x.id).charges : ℤ) else x.integers a

variable (sv x) in
theorem hidden_lt : hidden sv x < 2 ^ 16 := by
  unfold hidden
  split_ifs
  · exact getSubType_lt x
  · exact Nat.pow_pos (by decide)

theorem count_ne_zero : x.count.toNat ≠ 0 ↔ x.count ≠ 0 := by
  rw [ne_eq, ne_eq, ← UInt8.toNat_inj]
  rfl

/-- The amount that is read from the kit. -/
theorem amount_kitOf (hkit : ¬ InPlace sv x → ∀ a, Item.clock a = false →
      (changed sv ITEM_DECORATION_KIT (-1) x).integers a = none) :
    (if (kitOf sv x).getAttribute .AMOUNT = 0 then 1 else (kitOf sv x).getAttribute .AMOUNT) = amountBack sv x := by
  have hlt := x.count.toNat_lt
  have hint : (kitOf sv x).integers .AMOUNT = if x.count ≠ 0 then some (x.count.toNat : ℤ)
      else (changed sv ITEM_DECORATION_KIT (-1) x).integers .AMOUNT := by
    rw [kitOf, decorated_integers]
    simp [← count_ne_zero]
  have hread : (kitOf sv x).getAttribute .AMOUNT = if x.count ≠ 0 then x.count.toNat
      else if InPlace sv x then x.getAttribute .AMOUNT else 0 := by
    rw [Item.getAttribute, hint]
    by_cases hcount : x.count ≠ 0
    · rw [if_pos hcount, if_pos hcount, Option.getD_some]
      omega
    rw [if_neg hcount, if_neg hcount]
    by_cases hplace : InPlace sv x
    · rw [if_pos hplace, (becomesKit hplace).integers]
      simp [Item.getAttribute]
    · rw [if_neg hplace, hkit hplace .AMOUNT rfl]
      rfl
  rw [hread, amountBack]
  have hcount := count_ne_zero (x := x)
  split_ifs <;> simp_all

/-- The charges that are read from the kit. -/
theorem charges_kitOf (hkit : ¬ InPlace sv x → ∀ a, Item.clock a = false →
      (changed sv ITEM_DECORATION_KIT (-1) x).integers a = none) :
    (kitOf sv x).getAttribute .DATE = chargesBack sv x := by
  have hlt := hidden_lt sv x
  have hint : (kitOf sv x).integers .DATE = if hidden sv x ≠ 0 then some (hidden sv x : ℤ)
      else (changed sv ITEM_DECORATION_KIT (-1) x).integers .DATE := by
    rw [kitOf, decorated_integers]
    simp
  rw [Item.getAttribute, hint, chargesBack]
  by_cases hhidden : hidden sv x ≠ 0
  · rw [if_pos hhidden, if_pos hhidden, Option.getD_some]
    omega
  rw [if_neg hhidden, if_neg hhidden]
  by_cases hplace : InPlace sv x
  · rw [if_pos hplace, (becomesKit hplace).integers]
    simp [Item.getAttribute]
  · rw [if_neg hplace, hkit hplace .DATE rfl]
    rfl

variable (sv x) in
theorem amountBack_lt : amountBack sv x < 2 ^ 16 := by
  have hlt := x.count.toNat_lt
  have hread := getAttribute_lt x .AMOUNT
  unfold amountBack
  split_ifs <;> omega

/-- An item with the id of the kit gets its id back. -/
theorem comes_changed (h : InPlace sv x) {kit : Item} (hid : kit.id = ITEM_DECORATION_KIT)
    (hcount : ¬ Moved sv x → kit.count = UInt8.ofNat (getSubType sv x)) : ∃ b,
    Comes sv x (if Moved sv x ∨ (sv.types x.id).hasSubType then amountBack sv x else x.count.toNat) b
      (changed sv x.id (amountBack sv x) kit) ∧
    b.strings = kit.strings ∧ b.custom = kit.custom ∧
    ∀ a, b.integers a = if a = .CORPSEOWNER ∧ isRewardCorpse kit = false then none else kit.integers a := by
  have hamount : toUInt16 (amountBack sv x) = amountBack sv x := toUInt16_natCast (amountBack_lt sv x)
  have hne : (amountBack sv x : ℤ) ≠ -1 := by omega
  unfold changed
  dsimp only
  rw [hid, hamount]
  by_cases hmoved : Moved sv x
  · have htop : isAlwaysOnTop sv ITEM_DECORATION_KIT ≠ isAlwaysOnTop sv x.id := Ne.symm hmoved
    rw [if_pos htop, if_neg hne, if_pos (.inl hmoved)]
    exact ⟨renamed x.id kit, comes_setSubType sv _ (renamed_id _ _), by simp, by simp, renamed_integers _ _⟩
  have htop : ¬ isAlwaysOnTop sv ITEM_DECORATION_KIT ≠ isAlwaysOnTop sv x.id := fun hne => hmoved (Ne.symm hne)
  have htype := h.resolve_left hmoved
  rw [if_neg htop, if_pos htype.symm]
  have hnumber : (if (amountBack sv x : ℤ) ≠ -1 ∧ (sv.types x.id).hasSubType then amountBack sv x
      else getSubType sv kit) % 2 ^ 16 =
      if Moved sv x ∨ (sv.types x.id).hasSubType then amountBack sv x else x.count.toNat := by
    have hlt := amountBack_lt sv x
    have hsub : getSubType sv kit = kit.count.toNat := by
      rw [getSubType_eq, hid, numberAttribute_kit]
    have hclt := x.count.toNat_lt
    by_cases hhas : (sv.types x.id).hasSubType = true
    · rw [if_pos ⟨hne, hhas⟩, if_pos (.inr hhas), Nat.mod_eq_of_lt hlt]
    · have hnone : numberAttribute (sv.types x.id) = none := by
        simp only [ItemType.hasSubType, Bool.or_eq_true, not_or, bne_iff_ne, ne_eq, not_not] at hhas
        simp [numberAttribute, hhas.1.1, hhas.2]
      rw [if_neg (fun hboth => hhas hboth.2), if_neg (fun hor => hor.elim hmoved hhas), hsub, hcount hmoved,
        getSubType_eq, hnone]
      dsimp only
      rw [UInt8.ofNat_toNat]
      omega
  rw [hnumber]
  refine ⟨_, comes_setSubType sv _ (renamed_id _ _), ?_, ?_, fun a => ?_⟩
  · split_ifs <;> simp
  · split_ifs <;> simp
  · -- the kit has no charges of its own
    have hdefault : ∀ a, (setDefaultSubtype sv kit).integers a = kit.integers a := by
      intro a
      rw [setDefaultSubtype_integers, hid, if_neg (fun h => h.2.2 sv.kit_charges)]
    rw [renamed_integers]
    split_ifs <;> simp_all [isRewardCorpse]

/-- **An item that stays**: what comes back of it. -/
theorem comes_inPlace (h : InPlace sv x) :
    ∃ b, Stays sv x b ∧ Comes sv x (numberBack sv x) b (unwrapped sv x.id (kitOf sv x)) := by
  have hkit := becomesKit h
  have hcount : ¬ Moved sv x → (kitOf sv x).count = UInt8.ofNat (getSubType sv x) := fun hmoved =>
    (decorated_count _ _ _ _ _).trans (hkit.count hmoved)
  obtain ⟨b, hcomes, hstrings, hcustom, hintegers⟩ := comes_changed h kitOf_id hcount
  refine ⟨finished b, ⟨?_, ?_, fun a => ?_⟩, ?_⟩
  · funext a
    by_cases ha : a = .DESCRIPTION
    · subst ha
      simp [finished, Item.removeString]
    · have hkept : (kitOf sv x).strings a = x.strings a :=
        (decorated_strings _ _ _ _ _ ha).trans (congrFun hkit.strings a)
      simp [finished, Item.removeString, Item.removeCustom, ha, hstrings, hkept]
  · funext key
    by_cases hkey : key = unWrapId
    · subst hkey
      simp [finished, Item.removeString, Item.removeCustom]
    · have hkept : (kitOf sv x).custom key = x.custom key :=
        (decorated_custom _ _ _ _ _ hkey).trans (congrFun hkit.custom key)
      simp [finished, Item.removeString, Item.removeCustom, hkey, hcustom, hkept]
  · show b.integers a = _
    have hkitOf (a : IntegerAttribute) : (kitOf sv x).integers a =
        if a = .AMOUNT ∧ x.count ≠ 0 then some (x.count.toNat : ℤ)
        else if a = .DATE ∧ hidden sv x ≠ 0 then some (hidden sv x : ℤ)
        else (changed sv ITEM_DECORATION_KIT (-1) x).integers a := by
      rw [kitOf, decorated_integers]
      simp only [count_ne_zero]
    -- the owner of a reward corpse stays in the kit
    have howner : isRewardCorpse x = true → isRewardCorpse (kitOf sv x) = true := by
      intro hreward
      have hkept : (kitOf sv x).integers .CORPSEOWNER = x.integers .CORPSEOWNER := by
        rw [hkitOf, hkit.integers]
        simp [hreward]
      rw [isRewardCorpse, hkept]
      exact hreward
    rw [hintegers]
    by_cases ha : a = .CORPSEOWNER
    · subst ha
      rw [hkitOf, hkit.integers]
      cases hreward : isRewardCorpse x with
      | false => simp
      | true => simp [howner hreward]
    · rw [if_neg (fun h => ha h.1), hkitOf, hkit.integers]
  · unfold unwrapped
    dsimp only
    rw [amount_kitOf fun hnot => absurd h hnot, charges_kitOf fun hnot => absurd h hnot]
    have hnumber : numberBack sv x = if 0 < chargesBack sv x ∧ isCaskItem x.id = true then chargesBack sv x
        else if Moved sv x ∨ (sv.types x.id).hasSubType then amountBack sv x else x.count.toNat := by
      unfold numberBack
      rw [if_neg (not_not.2 h)]
      simp only [Nat.pos_iff_ne_zero, and_comm]
    rw [hnumber]
    by_cases hcask : 0 < chargesBack sv x ∧ isCaskItem x.id = true
    · rw [if_pos hcask, if_pos hcask]
      exact (hcomes.setSubType _).finished
    · rw [if_neg hcask, if_neg hcask]
      exact hcomes.finished

/-! ## The item that is replaced -/

/-- An item without anything. -/
def blank (id : UInt16) : Item := ⟨id, 1, fun _ => none, fun _ => none, fun _ => none⟩

theorem newItem_eq (id : UInt16) (n : ℕ) :
    newItem sv id n = setDefaultDuration sv (setSubType sv (newNumber (sv.types id) n) (blank id)) := by
  unfold newItem
  refine congrArg (setDefaultDuration sv) ?_
  have hid : (blank id).id = id := rfl
  unfold setSubType newNumber
  rw [hid]
  by_cases hfluid : (sv.types id).isFluid = true
  · simp only [if_pos hfluid]
    rfl
  by_cases hstackable : (sv.types id).stackable = true
  · simp only [if_neg hfluid, if_pos hstackable, if_pos (Or.inl hstackable)]
    split_ifs <;> rfl
  by_cases hcharges : (sv.types id).charges ≠ 0
  · simp only [if_neg hfluid, if_neg hstackable, if_pos hcharges, if_pos (Or.inr hcharges)]
    rfl
  · have hplain : ¬ ((sv.types id).stackable = true ∨ (sv.types id).charges ≠ 0) :=
      not_or.2 ⟨hstackable, hcharges⟩
    simp only [if_neg hfluid, if_neg hstackable, if_neg hcharges, if_neg hplain]
    rfl

theorem setDefaultDuration_agrees (y : Item) : Agrees (setDefaultDuration sv y) y := by
  unfold setDefaultDuration
  dsimp only
  split_ifs
  · exact (Agrees.refl y).setClock rfl _
  · exact Agrees.refl y

variable (sv) in
/-- **A new item** has nothing but its number, apart from the clock. -/
theorem CreateItem_agrees (type : UInt16) (count : ℕ) : Agrees (CreateItem sv type count)
    (setSubType sv (newNumber (sv.types (sv.types type).createdId) (createdCount sv type count))
      (blank (sv.types type).createdId)) := by
  unfold CreateItem
  rw [newItem_eq]
  exact setDefaultDuration_agrees _

/-- An item that does not stay is replaced. -/
theorem changed_replaced {newId : UInt16} (newCount : ℤ) {y : Item}
    (htop : isAlwaysOnTop sv y.id = isAlwaysOnTop sv newId) (htype : (sv.types y.id).type ≠ (sv.types newId).type) :
    changed sv newId newCount y = CreateItem sv newId (toUInt16 newCount) := by
  unfold changed
  dsimp only
  rw [if_neg (not_not.2 htop), if_neg htype]

/-- The kit that takes the place of an item has nothing of it. -/
theorem kit_replaced (h : ¬ InPlace sv x) {a : IntegerAttribute} (ha : Item.clock a = false) :
    (changed sv ITEM_DECORATION_KIT (-1) x).integers a = none := by
  obtain ⟨hmoved, htype⟩ := not_or.1 h
  rw [changed_replaced (-1) (not_not.1 hmoved) htype, (CreateItem_agrees sv _ _).integers a ha, setSubType_eq]
  show (match numberAttribute (sv.types (sv.types ITEM_DECORATION_KIT).createdId) with
    | some a => (blank (sv.types ITEM_DECORATION_KIT).createdId).setInteger a _
    | none => (blank (sv.types ITEM_DECORATION_KIT).createdId).setItemCount _ : Item).integers a = none
  rw [sv.kit_createdId, numberAttribute_kit]
  rfl

/-- **An item that is replaced**: what comes instead of it. -/
theorem unwrapped_replaced (h : ¬ InPlace sv x) : ∃ y, Agrees (unwrapped sv x.id (kitOf sv x)) y ∧
    y.id = (sv.types x.id).createdId ∧
    ((sv.types x.id).createdId = x.id → Comes sv x (numberBack sv x) (finished (blank x.id)) y) := by
  obtain ⟨hmoved, htype⟩ := not_or.1 h
  have hchanged : changed sv x.id (amountBack sv x) (kitOf sv x) = CreateItem sv x.id (amountBack sv x) := by
    rw [changed_replaced, toUInt16_natCast (amountBack_lt sv x)]
    · rw [kitOf_id]
      exact (not_not.1 hmoved).symm
    · rw [kitOf_id]
      exact Ne.symm htype
  have hcreated := CreateItem_agrees sv x.id (amountBack sv x)
  have hnumber : numberBack sv x = if 0 < chargesBack sv x ∧ isCaskItem x.id = true then chargesBack sv x
      else newNumber (sv.types x.id) (createdCount sv x.id (amountBack sv x)) := by
    unfold numberBack
    rw [if_pos h]
    simp only [Nat.pos_iff_ne_zero, and_comm]
  have hid (n : ℕ) (y : Item) : (setSubType sv n y).id = y.id := by
    unfold setSubType
    split_ifs <;> rfl
  have hblank : (blank x.id).id = x.id := rfl
  unfold unwrapped
  dsimp only
  rw [amount_kitOf fun h _ => kit_replaced h, charges_kitOf fun h _ => kit_replaced h, hchanged, hnumber]
  by_cases hcask : 0 < chargesBack sv x ∧ isCaskItem x.id = true
  · rw [if_pos hcask, if_pos hcask]
    refine ⟨_, (hcreated.setSubType _).finished, ?_, fun heq => ?_⟩
    · exact (hid _ _).trans (hid _ _)
    · rw [heq]
      exact ((comes_setSubType sv (x := x) _ hblank).setSubType _).finished
  · rw [if_neg hcask, if_neg hcask]
    refine ⟨_, hcreated.finished, hid _ _, fun heq => ?_⟩
    rw [heq]
    exact (comes_setSubType sv (x := x) _ hblank).finished

/-! ## When an item comes back -/

/-- What is left of an item that stays, against what it had. -/
theorem Stays.kept_iff {b : Item} (h : Stays sv x b) : (b.custom unWrapId = none ∧
    (∀ a v, Item.clock a = false → numberAttribute (sv.types x.id) ≠ some a → x.integers a = some v →
      b.integers a = some v) ∧ (∀ a v, x.strings a = some v → b.strings a = some v) ∧
    ∀ key v, key ≠ unWrapId → x.custom key = some v → b.custom key = some v) ↔ KeptInPlace sv x := by
  have hattribute := numberAttribute_cases (sv.types x.id)
  constructor
  · rintro ⟨-, hintegers, hstrings, -⟩
    have hkept {a : IntegerAttribute} (hclock : Item.clock a = false) (hf : a ≠ .FLUIDTYPE) (hc : a ≠ .CHARGES)
        (v : ℤ) (hv : x.integers a = some v) : b.integers a = some v := by
      refine hintegers a v hclock ?_ hv
      rcases hattribute with hnone | ⟨hfluid, -⟩ | ⟨hcharges, -⟩
      · simp [hnone]
      · rw [hfluid]
        exact fun heq => hf (Option.some.inj heq).symm
      · rw [hcharges]
        exact fun heq => hc (Option.some.inj heq).symm
    refine ⟨?_, fun hcount v hv => ?_, fun hhidden v hv => ?_, ?_, fun hmoved hfluid hstackable hcharges v hv => ?_⟩
    · cases hdescription : x.strings .DESCRIPTION with
      | none => rfl
      | some text =>
        have htext := hstrings _ _ hdescription
        rw [h.strings, Function.update_self] at htext
        cases htext
    · have hb := hkept rfl (by decide) (by decide) v hv
      rw [h.integers, if_pos ⟨rfl, hcount⟩] at hb
      exact (Option.some.inj hb).symm
    · have hb := hkept rfl (by decide) (by decide) v hv
      rw [h.integers, if_neg (by simp), if_pos ⟨rfl, hhidden⟩] at hb
      exact (Option.some.inj hb).symm
    · cases hreward : isRewardCorpse x with
      | true => exact .inl rfl
      | false =>
        refine .inr ?_
        cases howner : x.integers .CORPSEOWNER with
        | none => rfl
        | some v =>
          have hb := hkept rfl (by decide) (by decide) v howner
          rw [h.integers] at hb
          simp [hreward] at hb
    · have hgroup : (sv.types x.id).group ≠ .ITEM_GROUP_NONE := by
        intro hgroup
        simp [ItemType.isFluid, hgroup] at hfluid
      have hb := hintegers .CHARGES v rfl (by simp [numberAttribute, hfluid]) hv
      rw [h.integers] at hb
      simp only [reduceCtorEq, false_and, if_false, true_and] at hb
      rw [if_pos ⟨hmoved, hgroup, hstackable, hcharges⟩] at hb
      exact (Option.some.inj hb).symm
  · intro hk
    refine ⟨by rw [h.custom, Function.update_self], fun a v _ ha hv => ?_, fun a v hv => ?_, fun key v hkey hv => ?_⟩
    · rw [h.integers]
      split_ifs with hamount hdate howner hcharges
      · rw [hk.amount hamount.2 v (hamount.1 ▸ hv)]
      · rw [hk.date hdate.2 v (hdate.1 ▸ hv)]
      · rcases hk.corpseOwner with hreward | hnone
        · rw [howner.2] at hreward
          cases hreward
        · rw [howner.1, hnone] at hv
          cases hv
      · obtain ⟨rfl, hmoved, -, hstackable, hpos⟩ := hcharges
        have hfluid : (sv.types x.id).isFluid = true := by
          by_contra hfluid
          exact ha (by simp [numberAttribute, hfluid, hstackable, hpos])
        rw [hk.charges hmoved hfluid hstackable hpos v hv]
      · exact hv
    · have hne : a ≠ .DESCRIPTION := by
        rintro rfl
        rw [hk.description] at hv
        cases hv
      rw [h.strings, Function.update_of_ne hne, hv]
    · rw [h.custom, Function.update_of_ne hkey, hv]

theorem roundTrip_face_iff (hid : x.id ≠ ITEM_DECORATION_KIT) : RestoredFace sv x (roundTrip sv x) ↔ Kept sv x := by
  rw [restoredFace_congr (roundTrip_agrees hid)]
  by_cases hplace : InPlace sv x
  · obtain ⟨b, hstays, hcomes⟩ := comes_inPlace hplace
    rw [hcomes.restoredFace, hstays.kept_iff]
    exact ⟨fun h => ⟨h.1, fun _ => h.2, fun hnot => absurd hplace hnot⟩, fun h => ⟨h.number, h.inPlace hplace⟩⟩
  obtain ⟨y, hagrees, hyid, hcomes⟩ := unwrapped_replaced hplace
  rw [restoredFace_congr hagrees]
  by_cases hcreated : (sv.types x.id).createdId = x.id
  · rw [(hcomes hcreated).restoredFace]
    have hstrings (a : StringAttribute) : (finished (blank x.id)).strings a = none := by
      simp [finished, blank, Item.removeString, Item.removeCustom]
    have hcustom (key : String) : (finished (blank x.id)).custom key = none := by
      simp [finished, blank, Item.removeString, Item.removeCustom]
    have hintegers (a : IntegerAttribute) : (finished (blank x.id)).integers a = none := rfl
    simp only [hstrings, hcustom, hintegers, true_and]
    constructor
    · rintro ⟨hnumber, hint, hstr, hcus⟩
      refine ⟨hnumber, fun h => absurd h hplace,
        fun _ => ⟨hcreated, fun a => ?_, fun key hkey => ?_, fun a v hclock hv => ?_⟩⟩
      · cases ha : x.strings a with
        | none => rfl
        | some v => cases hstr a v ha
      · cases ha : x.custom key with
        | none => rfl
        | some v => cases hcus key v hkey ha
      · have hsome : numberAttribute (sv.types x.id) = some a := by
          by_contra hne
          cases hint a v hclock hne hv
        rcases numberAttribute_cases (sv.types x.id) with hnone | ⟨hf, hfluid⟩ | ⟨hc, hrest⟩
        · rw [hnone] at hsome
          cases hsome
        · rw [hf] at hsome
          exact .inl ⟨(Option.some.inj hsome).symm, hfluid⟩
        · rw [hc] at hsome
          exact .inr ⟨(Option.some.inj hsome).symm, hrest⟩
    · intro hk
      have has := hk.replaced hplace
      refine ⟨hk.number, fun a v hclock hne hv => ?_, fun a v hv => ?_, fun key v hkey hv => ?_⟩
      · rcases has.integers a v hclock hv with ⟨rfl, hfluid⟩ | ⟨rfl, hfluid, hstackable, hcharges⟩
        · exact absurd (by simp [numberAttribute, hfluid]) hne
        · exact absurd (by simp [numberAttribute, hfluid, hstackable, hcharges]) hne
      · rw [has.strings a] at hv
        cases hv
      · rw [has.custom key hkey] at hv
        cases hv
  · refine ⟨fun h => absurd (hyid.symm.trans h.id) hcreated, fun h => absurd (h.replaced hplace).id hcreated⟩

/-- **Unwrapping undoes wrapping** only when the number that comes back is the item's own, and the
item either stays and had none of what is written into it, or is replaced and had nothing but its
number; and then it does, if the decay of the item is not running. -/
theorem roundTrip_restored_iff (sv : Server) (x : Item) (hid : x.id ≠ ITEM_DECORATION_KIT) :
    (Restored sv x (roundTrip sv x) → Kept sv x) ∧
    (NoClock x → (Restored sv x (roundTrip sv x) ↔ Kept sv x)) :=
  ⟨fun h => (roundTrip_face_iff hid).1 h.face,
    fun hclock => ⟨fun h => (roundTrip_face_iff hid).1 h.face,
      fun h => ((roundTrip_face_iff hid).2 h).restored hclock⟩⟩

end Restored

/-! ## A picture with a description -/

/-- A server on which all items are plain. -/
def plainServer : Server where
  types id := ⟨.ITEM_GROUP_NONE, 0, false, 0, 0, 0, -1, false, true, id⟩
  startDecaying x := x
  OTSYS_TIME := 0
  getName _ := "picture"
  startDecaying_agrees := Agrees.refl
  kit_group := rfl
  kit_stackable := rfl
  kit_charges := rfl
  kit_createdId := rfl

/-- An item whose description has been set. -/
def picture : Item where
  id := 2639
  count := 1
  integers _ := none
  strings := fun a => if a = .DESCRIPTION then some "It shows a ship." else none
  custom _ := none

/-- The same item, with a text and an action id instead. -/
def plainPicture : Item :=
  { picture with
    integers := fun a => if a = .ACTIONID then some 1000 else none
    strings := fun a => if a = .TEXT then some "A ship." else none }

theorem roundTrip_restored_iff_plainPicture : Kept plainServer plainPicture ∧
    Restored plainServer plainPicture (roundTrip plainServer plainPicture) := by
  have hkept : Kept plainServer plainPicture := by
    refine ⟨?_, fun _ => ?_, fun hnot => absurd (.inr rfl) hnot⟩
    · show plainPicture.count = UInt8.ofNat _
      decide
    · exact ⟨rfl, fun _ v hv => (by cases hv), fun _ v hv => (by cases hv), .inr rfl,
        fun _ _ _ _ v hv => (by cases hv)⟩
  have hclock : NoClock plainPicture := by
    intro a ha
    cases a <;> first | rfl | exact absurd ha (by decide)
  exact ⟨hkept, ((roundTrip_restored_iff plainServer plainPicture (by decide)).2 hclock).2 hkept⟩

/-- The description does not come back. -/
theorem not_restored_picture : ¬ Restored plainServer picture (roundTrip plainServer picture) := by
  intro h
  have hdescription := h.strings .DESCRIPTION "It shows a ship." rfl
  revert hdescription
  decide

end TiabloServer.Wrapping
