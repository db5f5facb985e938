import TiabloServer.Attributes.Restore

/-!
# Items that come back as they were written

An item is written, and its bytes are read into a new item of its type. Reading always succeeds at
the end of the bytes. The item comes back under the conditions `Item.Kept`, most of which are about
the charges: they are read by `setSubType`, which puts them where the type of the item has its
count, its fluid or its charges.

## Main definitions

* `Attributes.RoundTrips` — an item comes back as it was written.
* `Attributes.Item.Kept` — when it does.

## Main results

* `Attributes.roundTrips_iff` — an item comes back as it was written if and only if it is kept.
* `Attributes.not_roundTrips_ring` — the charges of a ring whose type has none come back as its
  count.
-/

namespace TiabloServer.Attributes

variable {sv : Server} {item x : Item}

/-! ## What is written -/

/-- The type that an attribute is written as. -/
def IntegerAttribute.intType : IntegerAttribute → IntType
  | .STORE => .int64
  | .DATE => .uint64
  | .ACTIONID | .CHARGES | .AMOUNT => .uint16
  | .ATTACK | .DEFENSE | .EXTRADEFENSE | .ARMOR | .IMBUEMENT_SLOT | .DURATION => .int32
  | .WEIGHT | .QUICKLOOTCONTAINER | .OBTAINCONTAINER | .OWNER => .uint32
  | .HITCHANCE => .int8
  | .SHOOTRANGE | .OPENCONTAINER | .TIER | .DECAYSTATE => .uint8
  | .UNIQUEID | .CORPSEOWNER | .FLUIDTYPE | .DOORID | .DURATION_TIMESTAMP => .int64

/-- Whether `serializeAttr` writes an integer. -/
def Item.Writes (sv : Server) (item : Item) : IntegerAttribute → Prop
  | .STORE => item.getAttribute .int64 .STORE ≠ 0
  | .DATE => item.getAttribute .uint64 .DATE ≠ 0
  | .CHARGES => item.getAttribute .uint16 .CHARGES ≠ 0
  | .ACTIONID => (sv.items item.id).movable ∧ item.getAttribute .uint16 .ACTIONID ≠ 0
  | .DECAYSTATE => item.getDecaying = DECAYING_TRUE ∨ item.getDecaying = DECAYING_PENDING
  | .UNIQUEID | .CORPSEOWNER | .FLUIDTYPE | .DOORID | .DURATION_TIMESTAMP => False
  | type => item.hasInteger type

/-- What a new item has for an integer that is written. -/
def Item.written (sv : Server) (item : Item) : IntegerAttribute → Int64
  | .DURATION => max 0 (IntType.int32.cast (item.getDuration sv))
  | .DECAYSTATE => DECAYING_PENDING
  | .TIER => IntType.uint8.cast (item.getTier sv)
  | type => item.getAttribute type.intType type

/-! ## The integers that come back -/

section Integers

variable {s type : IntegerAttribute} {T : IntType}

theorem integers_setInteger {v : Int64} :
    (x.setInteger type v).integers s = if s = type then some v else x.integers s :=
  Function.update_apply _ _ _ _

theorem integers_restoreInteger :
    (item.restoreInteger type T x).integers s =
      if item.hasInteger type ∧ s = type then some (item.getAttribute T type)
      else x.integers s := by
  unfold Item.restoreInteger
  split_ifs <;> simp_all [integers_setInteger]

theorem integers_restoreNonzero :
    (item.restoreNonzero type T (Item.setInteger type) x).integers s =
      if item.getAttribute T type ≠ 0 ∧ s = type then some (item.getAttribute T type)
      else x.integers s := by
  unfold Item.restoreNonzero
  split_ifs <;> simp_all [integers_setInteger]

theorem integers_restoreActionId :
    (item.restoreActionId sv x).integers s =
      if ((sv.items item.id).movable ∧ item.getAttribute .uint16 .ACTIONID ≠ 0) ∧ s = .ACTIONID then
        some (item.getAttribute .uint16 .ACTIONID)
      else x.integers s := by
  unfold Item.restoreActionId
  split_ifs <;> simp_all [integers_restoreNonzero]

theorem integers_restoreDuration :
    (item.restoreDuration sv x).integers s =
      if item.hasInteger .DURATION ∧ s = .DURATION then some (item.written sv .DURATION)
      else x.integers s := by
  unfold Item.restoreDuration Item.setDuration
  split_ifs <;> simp_all [integers_setInteger, Item.written]

theorem integers_restoreDecaying :
    (item.restoreDecaying x).integers s =
      if (item.getDecaying = DECAYING_TRUE ∨ item.getDecaying = DECAYING_PENDING) ∧
          s = .DECAYSTATE then
        some DECAYING_PENDING
      else x.integers s := by
  unfold Item.restoreDecaying Item.setDecaying
  split_ifs <;> simp_all [integers_setInteger]

theorem integers_restoreTier :
    (item.restoreTier sv x).integers s =
      if item.hasInteger .TIER ∧ s = .TIER then some (item.written sv .TIER) else x.integers s := by
  unfold Item.restoreTier
  split_ifs <;> simp_all [integers_setInteger, Item.written]

theorem integers_setString {stype : StringAttribute} {text : Str} :
    (x.setString stype text).integers = x.integers := by
  unfold Item.setString
  split_ifs <;> rfl

theorem integers_restoreString {stype : StringAttribute} : (item.restoreString stype x).integers = x.integers :=
  integers_setString

theorem integers_restoreSpecial : (item.restoreSpecial x).integers = x.integers := by
  unfold Item.restoreSpecial setSpecial
  dsimp only
  split_ifs
  · exact integers_setString
  · exact integers_setString
  · rfl

theorem integers_restoreCustom : (item.restoreCustom x).integers = x.integers := by
  unfold Item.restoreCustom
  induction item.customAttributeMap generalizing x with
  | nil => rfl
  | cons e map ih => exact ih

theorem integers_setSubType {n : Int64} (hfluid : s ≠ .FLUIDTYPE) (hcharges : s ≠ .CHARGES) :
    (x.setSubType sv n).integers s = x.integers s := by
  unfold Item.setSubType
  dsimp only
  split_ifs <;> simp [Item.setInteger, Item.setItemCount, hfluid, hcharges]

theorem integers_restoreCount (hfluid : s ≠ .FLUIDTYPE) (hcharges : s ≠ .CHARGES) :
    (item.restoreCount sv x).integers s = x.integers s := by
  unfold Item.restoreCount
  dsimp only
  split_ifs
  · exact integers_setSubType hfluid hcharges
  · rfl

theorem integers_restoreCharges (hfluid : s ≠ .FLUIDTYPE) (hcharges : s ≠ .CHARGES) :
    (item.restoreCharges sv x).integers s = x.integers s := by
  unfold Item.restoreCharges Item.restoreNonzero
  split_ifs
  · exact integers_setSubType hfluid hcharges
  · rfl

/-- **The integers of the item that is read**: those that are written, and those it had. -/
theorem integers_restore (hfluid : s ≠ .FLUIDTYPE) (hcharges : s ≠ .CHARGES) :
    (item.Writes sv s → (item.restore sv x).integers s = some (item.written sv s)) ∧
      (¬ item.Writes sv s → (item.restore sv x).integers s = x.integers s) := by
  have hcount : ∀ x, (item.restoreCount sv x).integers s = x.integers s :=
    fun _ => integers_restoreCount hfluid hcharges
  have hcharge : ∀ x, (item.restoreCharges sv x).integers s = x.integers s :=
    fun _ => integers_restoreCharges hfluid hcharges
  simp only [Item.restore, Function.comp_apply, integers_restoreInteger, integers_restoreNonzero,
    integers_restoreActionId, integers_restoreDuration, integers_restoreDecaying,
    integers_restoreTier, integers_restoreString, integers_restoreSpecial, integers_restoreCustom,
    hcount, hcharge]
  cases s
  case CHARGES => exact absurd rfl hcharges
  case FLUIDTYPE => exact absurd rfl hfluid
  all_goals
    simp only [Item.Writes, reduceCtorEq, and_false, and_true, if_false]
    constructor
    · intro h
      first
      | exact h.elim
      | simp [h, Item.written, IntegerAttribute.intType]
    · intro h
      simp [h]

end Integers

/-! ## What else comes back -/

section Fields

variable {type s : StringAttribute} {itype : IntegerAttribute} {n : Int64} {text : Str}

theorem id_setInteger : (x.setInteger itype n).id = x.id :=
  rfl

theorem id_setSubType : (x.setSubType sv n).id = x.id := by
  unfold Item.setSubType
  dsimp only
  split_ifs <;> rfl

theorem id_setString : (x.setString type text).id = x.id := by
  unfold Item.setString
  split_ifs <;> rfl

theorem getString_ite {c : Prop} [Decidable c] {y : Item} :
    (if c then x else y).getString s = if c then x.getString s else y.getString s :=
  apply_ite (fun x : Item => x.getString s) c x y

theorem getString_setInteger : (x.setInteger itype n).getString s = x.getString s :=
  rfl

theorem getString_setSubType : (x.setSubType sv n).getString s = x.getString s := by
  unfold Item.setSubType
  dsimp only
  split_ifs <;> rfl

theorem getString_restoreCustom : (item.restoreCustom x).getString s = x.getString s := by
  unfold Item.restoreCustom
  induction item.customAttributeMap generalizing x with
  | nil => rfl
  | cons e map ih => exact ih

theorem getString_setString :
    (x.setString type text).getString s =
      if text ≠ [] ∧ s = type then text else x.getString s := by
  unfold Item.setString Item.getString
  split_ifs <;> simp_all

theorem getString_setSpecial :
    (setSpecial text x).getString s =
      if x.id = HIRELING_LAMP ∧ s = .SPECIAL then []
      else (x.setString .SPECIAL text).getString s := by
  unfold setSpecial
  dsimp only
  rw [id_setString]
  split_ifs with hid hs hs
  · simp [Item.getString, Item.removeString, Item.addCustomAttribute, hs.2]
  · have hne : s ≠ .SPECIAL := fun h => hs ⟨hid, h⟩
    simp [Item.getString, Item.removeString, Item.addCustomAttribute, hne]
  · exact absurd hs.1 hid
  · rfl

/-- A text that is not set is empty. -/
theorem getString_of_not_hasString (h : ¬ item.hasString type = true) : item.getString type = [] := by
  rw [Item.hasString, Option.not_isSome_iff_eq_none] at h
  rw [Item.getString, h, Option.getD_none]

/-- **The texts of the item that is read**, when it had none. -/
theorem getString_restore (hx : ∀ s, x.getString s = []) :
    (item.restore sv x).getString s =
      if s = .LOOTMESSAGE_SUFFIX ∨ (s = .SPECIAL ∧ x.id = HIRELING_LAMP) then []
      else item.getString s := by
  simp only [Item.restore, Function.comp_apply, Item.restoreInteger, Item.restoreNonzero,
    Item.restoreCount, Item.restoreCharges, Item.restoreActionId, Item.restoreDuration,
    Item.restoreDecaying, Item.restoreTier, Item.restoreString, Item.restoreSpecial,
    getString_ite, getString_setInteger, getString_setSubType, getString_restoreCustom,
    getString_setString, getString_setSpecial, Item.setDuration, Item.setDecaying, ite_self, hx,
    apply_ite Item.id, id_setSubType, id_setString, id_setInteger]
  cases s
  case SPECIAL =>
    by_cases hspecial : item.hasString .SPECIAL = true
    · by_cases hempty : item.getString .SPECIAL = [] <;> simp [hspecial, hempty]
    · simp [hspecial, getString_of_not_hasString hspecial]
  all_goals simp

/-! The custom attributes -/

theorem map_setInteger : (x.setInteger itype n).customAttributeMap = x.customAttributeMap :=
  rfl

theorem map_setSubType : (x.setSubType sv n).customAttributeMap = x.customAttributeMap := by
  unfold Item.setSubType
  dsimp only
  split_ifs <;> rfl

theorem map_setString : (x.setString type text).customAttributeMap = x.customAttributeMap := by
  unfold Item.setString
  split_ifs <;> rfl

theorem map_setSpecial (h : x.id ≠ HIRELING_LAMP) :
    (setSpecial text x).customAttributeMap = x.customAttributeMap := by
  unfold setSpecial
  dsimp only
  rw [id_setString, if_neg h]
  exact map_setString

/-- A key behind all others is put at the end. -/
theorem assign_of_less {key : Str} {value : CustomAttribute} {map : List (Str × CustomAttribute)}
    (h : ∀ e ∈ map, less e.1 key) : assign key value map = map ++ [(key, value)] := by
  induction map with
  | nil => rfl
  | cons e map ih =>
    have hless := h e List.mem_cons_self
    have hne : key ≠ e.1 := by
      rintro rfl
      exact lt_irrefl _ hless
    have hnot : ¬ less key e.1 := fun h => lt_asymm h hless
    rw [assign, if_neg hnot, if_neg hne, ih fun e' he' => h e' (List.mem_cons_of_mem e he')]
    rfl

/-- **Adding the custom attributes** in their order, behind those that are there, makes their
list. -/
theorem map_restoreCustom (hitem : item.Storable) (hx : x.customAttributeMap = []) :
    (item.restoreCustom x).customAttributeMap = item.customAttributeMap := by
  have hfold : ∀ (map done : List (Str × CustomAttribute)) (x : Item),
      (∀ e ∈ map, asLowerCaseString e.1 = e.1) → x.customAttributeMap = done →
      (done ++ map).Pairwise (fun e e' => less e.1 e'.1) →
      (map.foldl (fun x e => x.addCustomAttribute e.1 e.2) x).customAttributeMap = done ++ map := by
    intro map
    induction map with
    | nil =>
      intro done x _ hx _
      simpa using hx
    | cons e map ih =>
      intro done x hlower hx hsorted
      have hadd : (x.addCustomAttribute e.1 e.2).customAttributeMap = done ++ [e] := by
        have hless : ∀ e' ∈ done, less e'.1 e.1 := fun e' he' =>
          (List.pairwise_append.1 hsorted).2.2 e' he' e List.mem_cons_self
        rw [Item.addCustomAttribute, hlower e List.mem_cons_self, hx]
        exact assign_of_less hless
      rw [List.append_cons] at hsorted ⊢
      exact ih (done ++ [e]) _ (fun e' he' => hlower e' (List.mem_cons_of_mem e he')) hadd hsorted
  exact hfold item.customAttributeMap [] x hitem.lower hx hitem.sorted

/-- **The custom attributes of the item that is read** are those that were written, unless the text
of a hireling lamp has become one. -/
theorem map_restore (hitem : item.Storable) (hx : x.customAttributeMap = [])
    (hspecial : x.id = HIRELING_LAMP → ¬ item.hasString .SPECIAL) :
    (item.restore sv x).customAttributeMap = item.customAttributeMap := by
  have hset : ∀ y : Item, y.id = x.id →
      (item.restoreSpecial y).customAttributeMap = y.customAttributeMap := by
    intro y hy
    unfold Item.restoreSpecial
    split_ifs with h
    · exact map_setSpecial fun hid => hspecial (hy ▸ hid) h
    · rfl
  simp only [Item.restore, Function.comp_apply, Item.restoreInteger, Item.restoreNonzero,
    Item.restoreCount, Item.restoreCharges, Item.restoreActionId, Item.restoreDuration,
    Item.restoreDecaying, Item.restoreTier, Item.restoreString, apply_ite Item.customAttributeMap,
    map_setInteger, ite_self]
  apply map_restoreCustom hitem
  simp only [apply_ite Item.customAttributeMap, map_setInteger, map_setString, ite_self]
  rw [hset]
  · simp only [apply_ite Item.customAttributeMap, map_setInteger, map_setSubType, map_setString,
      Item.setDuration, Item.setDecaying, ite_self, hx]
  · simp only [apply_ite Item.id, id_setInteger, id_setSubType, id_setString, Item.setDuration,
      Item.setDecaying, ite_self]

end Fields

/-! ## The count, the fluid or the charges that come back -/

section SubType

variable {stype : StringAttribute} {type : IntegerAttribute} {n : Int64} {text : Str}

/-- Whether the charges of an item are its sub type. -/
def ItemType.hasCharges (it : ItemType) : Bool := !it.isFluid && !it.stackable && it.charges != 0

/-- The sub type after `setSubType(n)`. -/
def ItemType.stored (it : ItemType) (n : Int64) : Int64 :=
  if it.isFluid ∨ it.hasCharges then IntType.uint16.cast n else IntType.uint8.cast n

theorem getItemCount_setItemCount : (x.setItemCount n).getItemCount = IntType.uint8.cast n := by
  have hcount : (UInt8.ofNat n.toUInt64.toNat).toNat = n.toUInt64.toNat % 2 ^ 8 :=
    UInt8.toNat_ofNat'
  rw [Item.getItemCount, Item.setItemCount, hcount]
  rfl

theorem getSubType_setSubType : (x.setSubType sv n).getSubType sv = (sv.items x.id).stored n := by
  unfold Item.getSubType
  rw [id_setSubType]
  unfold Item.setSubType ItemType.stored ItemType.hasCharges
  dsimp only
  split_ifs <;>
    simp_all [Item.getAttribute, Item.getInteger, Item.setInteger, getItemCount_setItemCount]

theorem getSubType_ite {c : Prop} [Decidable c] {y : Item} :
    (if c then x else y).getSubType sv = if c then x.getSubType sv else y.getSubType sv :=
  apply_ite (fun x : Item => x.getSubType sv) c x y

theorem getSubType_setInteger (hfluid : type ≠ .FLUIDTYPE) (hcharges : type ≠ .CHARGES) :
    (x.setInteger type n).getSubType sv = x.getSubType sv := by
  simp [Item.getSubType, Item.getAttribute, Item.getInteger, Item.setInteger, hfluid.symm,
    hcharges.symm, Item.getItemCount]

theorem getSubType_setString : (x.setString stype text).getSubType sv = x.getSubType sv := by
  unfold Item.setString
  split_ifs <;> rfl

theorem getSubType_setSpecial : (setSpecial text x).getSubType sv = x.getSubType sv := by
  unfold setSpecial
  dsimp only
  split_ifs
  · exact getSubType_setString
  · exact getSubType_setString

theorem getSubType_restoreCustom : (item.restoreCustom x).getSubType sv = x.getSubType sv := by
  unfold Item.restoreCustom
  induction item.customAttributeMap generalizing x with
  | nil => rfl
  | cons e map ih => exact ih

/-- **The sub type of the item that is read**: the charges, if there are any, or what was written as
the count. -/
theorem getSubType_restore :
    (item.restore sv x).getSubType sv =
      if item.getAttribute .uint16 .CHARGES ≠ 0 then
        (sv.items x.id).stored (item.getAttribute .uint16 .CHARGES)
      else if (sv.items item.id).stackable ∨ (sv.items item.id).isFluid then
        (sv.items x.id).stored (IntType.uint8.cast (item.getSubType sv))
      else x.getSubType sv := by
  simp only [Item.restore, Function.comp_apply, Item.restoreInteger, Item.restoreNonzero,
    Item.restoreCount, Item.restoreCharges, Item.restoreActionId, Item.restoreDuration,
    Item.restoreDecaying, Item.restoreTier, Item.restoreString, Item.restoreSpecial,
    getSubType_ite, getSubType_setSpecial, getSubType_setString, getSubType_restoreCustom,
    getSubType_setSubType, Item.setDuration, Item.setDecaying, ne_eq, reduceCtorEq,
    not_false_eq_true, getSubType_setInteger, ite_self, apply_ite Item.id, id_setInteger,
    id_setSubType]

/-- **The charges of the item that is read**: those that were written, if its type has charges. -/
theorem integers_charges_restore (hid : x.id = item.id) :
    (item.restore sv x).integers .CHARGES =
      if (sv.items item.id).hasCharges ∧ item.getAttribute .uint16 .CHARGES ≠ 0 then
        some (item.getAttribute .uint16 .CHARGES)
      else x.integers .CHARGES := by
  have hset : ∀ (y : Item) (n : Int64), y.id = item.id →
      (y.setSubType sv n).integers .CHARGES =
        if (sv.items item.id).hasCharges then some n else y.integers .CHARGES := by
    intro y n hy
    unfold Item.setSubType ItemType.hasCharges
    dsimp only
    rw [hy]
    split_ifs <;> simp_all [Item.setInteger, Item.setItemCount]
  have hcharges : ∀ y : Item, y.id = item.id → (item.restoreCharges sv y).integers .CHARGES =
      if (sv.items item.id).hasCharges ∧ item.getAttribute .uint16 .CHARGES ≠ 0 then
        some (item.getAttribute .uint16 .CHARGES)
      else y.integers .CHARGES := by
    intro y hy
    unfold Item.restoreCharges Item.restoreNonzero
    split_ifs <;> simp_all
  have hcount : ∀ y : Item, y.id = item.id →
      (item.restoreCount sv y).integers .CHARGES = y.integers .CHARGES := by
    intro y hy
    unfold Item.restoreCount
    dsimp only
    split_ifs with h
    · rw [hset _ _ hy, if_neg]
      unfold ItemType.hasCharges
      rcases h with h | h <;> simp [h]
    · rfl
  simp only [Item.restore, Function.comp_apply, integers_restoreInteger, integers_restoreNonzero,
    integers_restoreActionId, integers_restoreDuration, integers_restoreDecaying,
    integers_restoreTier, integers_restoreString, integers_restoreSpecial, integers_restoreCustom,
    reduceCtorEq, and_false, if_false]
  rw [hcharges, hcount]
  · simp only [integers_restoreNonzero, reduceCtorEq, and_false, if_false]
  · simp only [Item.restoreNonzero, apply_ite Item.id, id_setInteger, ite_self, hid]
  · simp only [Item.restoreNonzero, Item.restoreCount, apply_ite Item.id, id_setInteger,
      id_setSubType, ite_self, hid]

end SubType

/-! ## A new item -/

section New

variable (sv : Server) (id : UInt16)

theorem id_new : (Item.new sv id).id = id := by
  unfold Item.new Item.setDefaultDuration
  dsimp only
  split_ifs <;> rfl

theorem getString_new (type : StringAttribute) : (Item.new sv id).getString type = [] := by
  unfold Item.new Item.setDefaultDuration
  dsimp only
  split_ifs <;> rfl

theorem map_new : (Item.new sv id).customAttributeMap = [] := by
  unfold Item.new Item.setDefaultDuration
  dsimp only
  split_ifs <;> rfl

/-- The default duration is no other integer. -/
theorem integers_setDefaultDuration {type : IntegerAttribute} (h : type ≠ .DURATION) :
    (x.setDefaultDuration sv).integers type = x.integers type := by
  unfold Item.setDefaultDuration Item.setDuration
  dsimp only
  split_ifs
  · rw [integers_setInteger, if_neg h]
  · rfl

theorem decayState_new : (Item.new sv id).integers .DECAYSTATE = none := by
  unfold Item.new
  dsimp only
  rw [integers_setDefaultDuration sv (by decide)]
  split_ifs <;> simp [Item.setInteger, Item.setItemCount]

theorem charges_new :
    (Item.new sv id).integers .CHARGES =
      if (sv.items id).hasCharges then some (Int64.ofNat (sv.items id).charges.toNat) else none := by
  unfold Item.new ItemType.hasCharges
  dsimp only
  rw [integers_setDefaultDuration sv (by decide)]
  split_ifs <;> simp_all [Item.setInteger, Item.setItemCount]

/-- A new item has one piece or the charges of its type. -/
theorem getSubType_new (hfluid : (sv.items id).isFluid = false)
    (hstackable : (sv.items id).stackable = false) :
    (Item.new sv id).getSubType sv =
      if (sv.items id).charges = 0 then 1
      else IntType.uint16.cast (Int64.ofNat (sv.items id).charges.toNat) := by
  by_cases hcharges : (sv.items id).charges = 0
  · have hcount : (Item.new sv id).getItemCount = 1 := by
      unfold Item.new Item.setDefaultDuration
      dsimp only
      split_ifs <;> simp_all [Item.setDuration, Item.setInteger, Item.getItemCount]
    simp [Item.getSubType, id_new, hfluid, hstackable, hcharges, hcount]
  · have hnew : (Item.new sv id).getInteger .CHARGES = Int64.ofNat (sv.items id).charges.toNat := by
      rw [Item.getInteger, charges_new]
      simp [ItemType.hasCharges, hfluid, hstackable, hcharges]
    simp [Item.getSubType, id_new, hfluid, hstackable, hcharges, Item.getAttribute, hnew]

end New

/-! ## Round trips -/

/-- An item written and read into a new item of its type. -/
def readBack (sv : Server) (item : Item) : Bool × Item × Str :=
  unserializeAttr sv (item.serializeAttr sv).length (Item.new sv item.id) (item.serializeAttr sv)

/-- **Reading succeeds at the end of the bytes.** -/
theorem readBack_eq (hitem : item.Storable) :
    readBack sv item = (true, item.restore sv (Item.new sv item.id), []) := by
  have htakes : Wire.Takes (unserializeAttr sv) (item.serializeAttr sv) (item.restore sv) :=
    takes_serializeAttr hitem
  obtain ⟨fuel, hrun⟩ := htakes.run (Item.new sv item.id)
  rw [readBack, hrun]
  cases fuel <;> rfl

/-- An item comes back as it was written: reading succeeds at the end of the bytes and the new item
has the sub type, every integer and text that was written and the custom attributes. The duration is
what `getDuration` gives, and a decay state comes back as `DECAYING_PENDING`. -/
structure RoundTrips (sv : Server) (item : Item) : Prop where
  succeeds : (readBack sv item).1 = true
  consumes : (readBack sv item).2.2 = []
  subType : (readBack sv item).2.1.getSubType sv = item.getSubType sv
  integers : ∀ type, type ≠ .DURATION → type ≠ .DECAYSTATE → item.Writes sv type →
    (readBack sv item).2.1.getInteger type = item.getInteger type
  duration : item.Writes sv .DURATION →
    (readBack sv item).2.1.getDuration sv = item.getDuration sv
  decaying : item.Writes sv .DECAYSTATE → (readBack sv item).2.1.getDecaying = DECAYING_PENDING
  strings : ∀ type, type ≠ .LOOTMESSAGE_SUFFIX → item.hasString type →
    (readBack sv item).2.1.getString type = item.getString type
  custom : (readBack sv item).2.1.customAttributeMap = item.customAttributeMap

/-- **When an item comes back.** Charges are only on a type that has charges, and are not used up
there; a fluid is a byte, and an item of no count is one piece. Every integer that is written is a
value of the type it is written as; the tier is no higher than it may be, and the duration is not
negative. A hireling lamp has no special text. -/
structure Item.Kept (sv : Server) (item : Item) : Prop where
  charged : item.Writes sv .CHARGES → (sv.items item.id).hasCharges
  uncharged : (sv.items item.id).hasCharges → ¬ item.Writes sv .CHARGES →
    IntType.uint16.cast (Int64.ofNat (sv.items item.id).charges.toNat) = 0
  fluid : (sv.items item.id).isFluid →
    IntType.uint8.cast (item.getSubType sv) = item.getSubType sv
  single : (sv.items item.id).isFluid = false → (sv.items item.id).stackable = false →
    (sv.items item.id).charges = 0 → item.count = 1
  integers : ∀ type, type ≠ .DURATION → type ≠ .DECAYSTATE → item.Writes sv type →
    type.intType.cast (item.getInteger type) = item.getInteger type
  tier : item.hasInteger .TIER →
    (item.getInteger .TIER).toInt ≤ sv.maxItemTier ∨ item.getInteger .TIER = 0
  duration : item.hasInteger .DURATION → 0 ≤ item.getDuration sv
  special : item.id = HIRELING_LAMP → ¬ item.hasString .SPECIAL

/-! The values of integers that are cast more than once -/

/-- A byte is a value of 8 bits and of 16 bits. -/
theorem cast_byte {n : ℕ} (h : n < 2 ^ 8) : IntType.uint8.cast (Int64.ofNat n) = Int64.ofNat n ∧
      IntType.uint16.cast (Int64.ofNat n) = Int64.ofNat n := by
  have hofNat : (Int64.ofNat n).toUInt64.toNat = n := toNat_ofNat (h.trans (by decide))
  constructor
  · rw [IntType.cast, hofNat, Nat.mod_eq_of_lt (h.trans_le (by decide))]
    rfl
  · rw [IntType.cast, hofNat, Nat.mod_eq_of_lt (h.trans (by decide))]
    rfl

theorem cast_uint16_uint8 (v : Int64) : IntType.uint16.cast (IntType.uint8.cast v) = IntType.uint8.cast v :=
  (cast_byte (Nat.mod_lt v.toUInt64.toNat (by decide))).2

theorem cast_count (n : UInt8) : IntType.uint8.cast (Int64.ofNat n.toNat) = Int64.ofNat n.toNat :=
  (cast_byte n.toNat_lt).1

theorem count_eq_one {n : UInt8} : Int64.ofNat n.toNat = 1 ↔ n = 1 := by
  constructor
  · intro h
    have hofNat : (Int64.ofNat n.toNat).toUInt64.toNat = n.toNat :=
      toNat_ofNat (n.toNat_lt.trans (by decide))
    rw [h] at hofNat
    exact UInt8.toNat_inj.1 hofNat.symm
  · rintro rfl
    rfl

theorem cast_zero (T : IntType) : T.cast 0 = 0 := by
  cases T <;> decide

/-- A duration has 32 bits. -/
theorem cast_getDuration : IntType.int32.cast (item.getDuration sv) = item.getDuration sv := by
  have hmax : ∀ v : Int64, max 0 v = if 0 ≤ v then v else 0 := fun _ => rfl
  unfold Item.getDuration
  split_ifs
  · rw [hmax]
    split_ifs
    · exact IntType.cast_cast _ _
    · exact cast_zero _
  · exact IntType.cast_cast _ _

/-- The tier that is written is the one of the item if it is a byte and no higher than it may be. -/
theorem written_tier_iff (h : item.hasInteger .TIER) : item.written sv .TIER = item.getInteger .TIER ↔
      IntType.uint8.cast (item.getInteger .TIER) = item.getInteger .TIER ∧
        ((item.getInteger .TIER).toInt ≤ sv.maxItemTier ∨ item.getInteger .TIER = 0) := by
  have hwritten : item.written sv .TIER =
      if sv.maxItemTier < (IntType.uint8.cast (item.getInteger .TIER)).toInt then 0
      else IntType.uint8.cast (item.getInteger .TIER) := by
    unfold Item.written Item.getTier
    rw [if_pos h]
    dsimp only [Item.getAttribute]
    split_ifs
    · exact cast_zero _
    · exact IntType.cast_cast _ _
  rw [hwritten]
  constructor
  · intro heq
    split_ifs at heq with hlt
    · rw [← heq]
      exact ⟨cast_zero _, Or.inr rfl⟩
    · rw [heq] at hlt ⊢
      exact ⟨rfl, Or.inl (not_lt.1 hlt)⟩
  · rintro ⟨hcast, hle⟩
    rw [hcast]
    split_ifs with hlt
    · rcases hle with hle | hzero
      · exact absurd hle (not_le.2 hlt)
      · exact hzero.symm
    · rfl

/-- The integers of the item that is read, apart from the charges, are those that were written. -/
theorem getInteger_restore {type : IntegerAttribute} (htype : type ≠ .CHARGES) (hw : item.Writes sv type) :
    (item.restore sv x).getInteger type = item.written sv type := by
  have hfluid : type ≠ .FLUIDTYPE := by
    rintro rfl
    exact hw
  rw [Item.getInteger, (integers_restore hfluid htype).1 hw, Option.getD_some]

/-- The decay state of the item that is read, when it had none. -/
theorem getDecaying_restore (hx : x.integers .DECAYSTATE = none) :
    (item.Writes sv .DECAYSTATE → (item.restore sv x).getDecaying = DECAYING_PENDING) ∧
      (¬ item.Writes sv .DECAYSTATE → (item.restore sv x).getDecaying = 0) := by
  obtain ⟨hwritten, hnot⟩ : _ ∧ (¬ item.Writes sv .DECAYSTATE →
      (item.restore sv x).integers .DECAYSTATE = x.integers .DECAYSTATE) :=
    integers_restore (by decide) (by decide)
  constructor
  · intro hw
    rw [Item.getDecaying, Item.getInteger, hwritten hw]
    rfl
  · intro hw
    rw [Item.getDecaying, Item.getInteger, hnot hw, hx]
    rfl

/-- The duration of the item that is read is no longer negative. -/
theorem getDuration_restore (hx : x.integers .DECAYSTATE = none) (h : item.Writes sv .DURATION) :
    (item.restore sv x).getDuration sv =
      if 0 ≤ item.getDuration sv then item.getDuration sv else 0 := by
  have hnot : ¬ ((item.restore sv x).getDecaying = DECAYING_TRUE ∨
      (item.restore sv x).getDecaying = DECAYING_STOPPING) := by
    by_cases hw : item.Writes sv .DECAYSTATE
    · rw [(getDecaying_restore hx).1 hw]
      decide
    · rw [(getDecaying_restore hx).2 hw]
      decide
  rw [Item.getDuration, if_neg hnot, Item.getAttribute, getInteger_restore (by decide) h]
  show IntType.int32.cast (max 0 (IntType.int32.cast (item.getDuration sv))) = _
  rw [cast_getDuration]
  show IntType.int32.cast (if 0 ≤ item.getDuration sv then item.getDuration sv else 0) = _
  split_ifs
  · exact cast_getDuration
  · exact cast_zero _

/-- The charges of the item that is read are those that were written if its type has charges, and
else there are none. -/
theorem charges_readBack (hw : item.Writes sv .CHARGES) :
    (item.restore sv (Item.new sv item.id)).getInteger .CHARGES =
      if (sv.items item.id).hasCharges then item.getAttribute .uint16 .CHARGES else 0 := by
  have hw' : item.getAttribute .uint16 .CHARGES ≠ 0 := hw
  rw [Item.getInteger, integers_charges_restore (id_new sv item.id), charges_new]
  by_cases h : (sv.items item.id).hasCharges = true
  · rw [if_pos ⟨h, hw'⟩, if_pos h, Option.getD_some]
  · rw [if_neg fun h' => h h'.1, if_neg h, if_neg h, Option.getD_none]

theorem getSubType_of_hasCharges (h : (sv.items item.id).hasCharges) :
    item.getSubType sv = item.getAttribute .uint16 .CHARGES := by
  unfold ItemType.hasCharges at h
  unfold Item.getSubType
  simp_all

/-- An integer of the item that is read, apart from the tier, is the one that was written if it is a
value of the type it is written as. -/
theorem getInteger_readBack_iff {type : IntegerAttribute} (hduration : type ≠ .DURATION)
    (hstate : type ≠ .DECAYSTATE) (htier : type ≠ .TIER) (hw : item.Writes sv type)
    (hcharged : item.Writes sv .CHARGES → (sv.items item.id).hasCharges) :
    (item.restore sv (Item.new sv item.id)).getInteger type = item.getInteger type ↔
      type.intType.cast (item.getInteger type) = item.getInteger type := by
  by_cases htype : type = .CHARGES
  · subst htype
    rw [charges_readBack hw, if_pos (hcharged hw)]
    rfl
  · have hwritten : item.written sv type = item.getAttribute type.intType type := by
      unfold Item.written
      split
      · exact absurd rfl hduration
      · exact absurd rfl hstate
      · exact absurd rfl htier
      · rfl
    rw [getInteger_restore htype hw, hwritten]
    rfl

/-- The sub type of the item that is read, when its charges are only written if its type has
charges. -/
theorem getSubType_readBack (hcharged : item.Writes sv .CHARGES → (sv.items item.id).hasCharges) :
    (item.restore sv (Item.new sv item.id)).getSubType sv =
      if (sv.items item.id).hasCharges then
        if item.getAttribute .uint16 .CHARGES ≠ 0 then item.getSubType sv
        else IntType.uint16.cast (Int64.ofNat (sv.items item.id).charges.toNat)
      else if (sv.items item.id).stackable ∨ (sv.items item.id).isFluid then
        IntType.uint8.cast (item.getSubType sv)
      else 1 := by
  rw [getSubType_restore, id_new]
  by_cases hhas : (sv.items item.id).hasCharges = true
  · have hkind := hhas
    simp only [ItemType.hasCharges, Bool.and_eq_true, Bool.not_eq_true', bne_iff_ne, ne_eq] at hkind
    obtain ⟨⟨hfluid, hstack⟩, hnone⟩ := hkind
    rw [if_pos hhas, getSubType_of_hasCharges hhas, getSubType_new _ _ hfluid hstack, if_neg hnone]
    simp only [hfluid, hstack, Bool.false_eq_true, or_self, if_false, ItemType.stored, hhas,
      or_true, if_true]
    split_ifs
    · rw [Item.getAttribute, IntType.cast_cast]
    · rfl
  · have hnot : item.getAttribute .uint16 .CHARGES = 0 := by
      by_contra hw
      exact hhas (hcharged hw)
    rw [if_neg hhas, if_neg (not_not.2 hnot)]
    split_ifs with hcount
    · unfold ItemType.stored
      split_ifs
      · exact cast_uint16_uint8 _
      · exact IntType.cast_cast _ _
    · obtain ⟨hstack, hfluid⟩ := not_or.1 hcount
      have hnone : (sv.items item.id).charges = 0 := by
        simpa [ItemType.hasCharges, hstack, hfluid] using hhas
      rw [getSubType_new _ _ (by simpa using hfluid) (by simpa using hstack), if_pos hnone]

/-- **An item that comes back is kept.** -/
theorem RoundTrips.kept (hitem : item.Storable) (h : RoundTrips sv item) : item.Kept sv := by
  obtain ⟨-, -, hsub, hintegers, hduration, -, hstrings, -⟩ := h
  rw [readBack_eq hitem] at hsub hintegers hduration hstrings
  dsimp only at hsub hintegers hduration hstrings
  have hcharged : item.Writes sv .CHARGES → (sv.items item.id).hasCharges := by
    intro hw
    by_contra hnot
    have hzero := hintegers .CHARGES (by decide) (by decide) hw
    rw [charges_readBack hw, if_neg hnot] at hzero
    refine hw ?_
    rw [Item.getAttribute, ← hzero]
    exact cast_zero _
  have htier : item.Writes sv .TIER → _ := fun hw =>
    (written_tier_iff hw).1 ((getInteger_restore (by decide) hw).symm.trans
      (hintegers .TIER (by decide) (by decide) hw))
  rw [getSubType_readBack hcharged] at hsub
  refine ⟨hcharged, fun hhas hw => ?_, fun hfluid => ?_, fun hfluid hstack hnone => ?_,
    fun type hd hs hw => ?_, fun hw => (htier hw).2, fun hd => ?_, fun hlamp hspecial => ?_⟩
  · have hzero : item.getAttribute .uint16 .CHARGES = 0 := not_not.1 hw
    rw [if_pos hhas, if_neg (not_not.2 hzero), getSubType_of_hasCharges hhas, hzero] at hsub
    exact hsub
  · have hhas : ¬ (sv.items item.id).hasCharges = true := by simp [ItemType.hasCharges, hfluid]
    rwa [if_neg hhas, if_pos (Or.inr hfluid)] at hsub
  · have hhas : ¬ (sv.items item.id).hasCharges = true := by simp [ItemType.hasCharges, hnone]
    have hcount : ¬ ((sv.items item.id).stackable = true ∨ (sv.items item.id).isFluid = true) := by
      simp [hfluid, hstack]
    have hsingle : item.getSubType sv = item.getItemCount := by
      simp [Item.getSubType, hfluid, hstack, hnone]
    rw [if_neg hhas, if_neg hcount, hsingle] at hsub
    exact count_eq_one.1 hsub.symm
  · by_cases htype : type = .TIER
    · subst htype
      exact (htier hw).1
    · exact (getInteger_readBack_iff hd hs htype hw hcharged).1 (hintegers type hd hs hw)
  · have hback := hduration hd
    rw [getDuration_restore (decayState_new sv item.id) hd] at hback
    by_contra hneg
    rw [if_neg hneg] at hback
    exact hneg (by rw [← hback]; decide)
  · have hback := hstrings .SPECIAL (by decide) hspecial
    rw [getString_restore (getString_new sv item.id), id_new, if_pos (Or.inr ⟨rfl, hlamp⟩)] at hback
    obtain ⟨text, htext⟩ := Option.isSome_iff_exists.1 hspecial
    refine hitem.nonempty .SPECIAL text htext ?_
    rw [hback, Item.getString, htext, Option.getD_some]

/-- **An item that is kept comes back.** -/
theorem Item.Kept.roundTrips (hitem : item.Storable) (h : item.Kept sv) : RoundTrips sv item := by
  have hread : readBack sv item = (true, item.restore sv (Item.new sv item.id), []) :=
    readBack_eq hitem
  constructor
  case succeeds => rw [hread]
  case consumes => rw [hread]
  all_goals rw [hread]
  case subType =>
    rw [getSubType_readBack h.charged]
    split_ifs with hhas hw hcount
    · rfl
    · have hzero : item.getAttribute .uint16 .CHARGES = 0 := not_not.1 hw
      rw [getSubType_of_hasCharges hhas, hzero]
      exact h.uncharged hhas hw
    · by_cases hfluid : (sv.items item.id).isFluid = true
      · exact h.fluid hfluid
      · have hsingle : item.getSubType sv = item.getItemCount := by
          simp [Item.getSubType, hfluid, hcount.resolve_right hfluid]
        rw [hsingle]
        exact cast_count _
    · obtain ⟨hstack, hfluid⟩ := not_or.1 hcount
      have hnone : (sv.items item.id).charges = 0 := by
        simpa [ItemType.hasCharges, hstack, hfluid] using hhas
      have hsingle : item.getSubType sv = item.getItemCount := by
        simp [Item.getSubType, hfluid, hstack, hnone]
      rw [hsingle]
      exact (count_eq_one.2 (h.single (by simpa using hfluid) (by simpa using hstack) hnone)).symm
  case integers =>
    intro type hd hs hw
    by_cases htype : type = .TIER
    · subst htype
      rw [getInteger_restore (by decide) hw]
      exact (written_tier_iff hw).2 ⟨h.integers .TIER hd hs hw, h.tier hw⟩
    · exact (getInteger_readBack_iff hd hs htype hw h.charged).2 (h.integers type hd hs hw)
  case duration =>
    intro hw
    rw [getDuration_restore (decayState_new sv item.id) hw, if_pos (h.duration hw)]
  case decaying => exact (getDecaying_restore (decayState_new sv item.id)).1
  case strings =>
    intro type htype hw
    rw [getString_restore (getString_new sv item.id), if_neg]
    rw [id_new]
    rintro (rfl | ⟨rfl, hlamp⟩)
    · exact htype rfl
    · exact h.special hlamp hw
  case custom =>
    exact map_restore hitem (map_new sv item.id) fun hlamp => h.special ((id_new sv item.id).symm.trans hlamp)

/-- **An item comes back as it was written** if and only if it is kept. -/
theorem roundTrips_iff (hitem : item.Storable) : RoundTrips sv item ↔ item.Kept sv :=
  ⟨RoundTrips.kept hitem, Item.Kept.roundTrips hitem⟩

/-! ## Coins and a ring -/

/-- A server on which the type 3031 stacks and no other type does, and no type has charges. -/
def coinServer : Server where
  items id := ⟨.ITEM_GROUP_NONE, id == 3031, 0, true, 0⟩
  maxItemTier := 10
  OTSYS_TIME := 0
  getTimeNow := 0
  addUniqueItem _ := true

/-- Seven coins with a description and a custom attribute. -/
def coins : Item where
  id := 3031
  count := 7
  integers type := if type = .WEIGHT then some 70 else none
  strings type := if type = .DESCRIPTION then some (ofString "shiny") else none
  customAttributeMap := [(ofString "owner", .integer (-1))]

theorem coins_storable : coins.Storable where
  nonempty type text h := by
    cases type <;> simp [coins] at h
    subst h
    decide
  length_le type := by
    cases type <;> decide
  sorted := List.pairwise_singleton _ _
  lower := by decide
  key_length_le := by decide
  value_length_le e he text h := by
    simp only [coins, List.mem_singleton] at he
    subst he
    exact nomatch h
  size_lt := by decide

theorem coins_kept : coins.Kept coinServer where
  charged h := absurd rfl h
  uncharged h := nomatch h
  fluid h := nomatch h
  single _ h := nomatch h
  integers type _ _ _ := by
    cases type <;> decide
  tier h := nomatch h
  duration h := nomatch h
  special h := nomatch h

theorem roundTrips_iff_coins :
    (RoundTrips coinServer coins ↔ coins.Kept coinServer) ∧ RoundTrips coinServer coins :=
  ⟨roundTrips_iff coins_storable, coins_kept.roundTrips coins_storable⟩

/-- A ring that was made with five charges, and is of a type without charges now. -/
def ring : Item where
  id := 3007
  count := 1
  integers type := if type = .CHARGES then some 5 else none
  strings _ := none
  customAttributeMap := []

theorem ring_storable : ring.Storable where
  nonempty _ _ h := nomatch h
  length_le type := Nat.zero_le _
  sorted := List.Pairwise.nil
  lower := by decide
  key_length_le := by decide
  value_length_le _ he := nomatch he
  size_lt := by decide

/-- **The charges of the ring become its count**: it comes back as five pieces without charges. -/
theorem not_roundTrips_ring :
    ring.Storable ∧ ¬ RoundTrips coinServer ring ∧
      (readBack coinServer ring).2.1.getItemCount = 5 ∧
      (readBack coinServer ring).2.1.getInteger .CHARGES = 0 := by
  refine ⟨ring_storable, fun h => ?_, by decide +kernel, by decide +kernel⟩
  have hcount := h.subType
  revert hcount
  decide +kernel

end TiabloServer.Attributes
