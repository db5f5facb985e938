import TiabloServer.Attributes.Serialize

/-!
# Reading back what was written

What `Item::serializeAttr` has written, `Item::unserializeAttr` takes field by field: every field is
read by its case of `readAttr`. What this does to the item that is read into is `Item.restore`.

## Main definitions

* `Attributes.Item.Storable` — what every item has, and the lengths that can be written.
* `Attributes.Item.restore` — the changes that reading the bytes of an item makes.

## Main results

* `Attributes.reads_read`, `Attributes.reads_readString`, `Attributes.reads_unserialize` — what is
  written is read.
* `Attributes.takes_serializeAttr` — reading the bytes of an item takes all of them and restores it.
-/

namespace TiabloServer.Attributes

variable {sv : Server} {item x : Item}

/-! ## Integers -/

theorem toNat_ofInt (z : ℤ) : (Int64.ofInt z).toUInt64.toNat = (z % 2 ^ 64).toNat := by
  show (Int64.ofInt z).toBitVec.toNat = _
  rw [Int64.toBitVec_ofInt, BitVec.toNat_ofInt]
  rfl

theorem toNat_ofNat {n : ℕ} (h : n < 2 ^ 64) : (Int64.ofNat n).toUInt64.toNat = n := by
  show (BitVec.ofNat 64 n).toNat = n
  rw [BitVec.toNat_ofNat, Nat.mod_eq_of_lt h]

/-- The value with some bits has these bits. -/
theorem IntType.toNat_value (T : IntType) (n : ℕ) :
    (T.value n).toUInt64.toNat % 2 ^ (8 * T.size) = n % 2 ^ (8 * T.size) := by
  have hdvd : (2 ^ (8 * T.size) : ℤ) ∣ 2 ^ 64 := pow_dvd_pow 2 (by cases T <;> decide)
  have hofInt : ∀ z : ℤ, ((Int64.ofInt z).toUInt64.toNat : ℤ) = z % 2 ^ 64 := by
    intro z
    rw [toNat_ofInt, Int.toNat_of_nonneg (Int.emod_nonneg _ (by decide))]
  zify
  unfold IntType.value
  split_ifs
  · rw [hofInt, Int.emod_emod_of_dvd _ hdvd]
    exact_mod_cast Int.bmod_emod
  · rw [hofInt, Int.emod_emod_of_dvd _ hdvd]

/-- A value of a type is one after it was cast to it. -/
theorem IntType.cast_cast (T : IntType) (v : Int64) : T.cast (T.cast v) = T.cast v := by
  unfold IntType.cast
  rw [IntType.toNat_value, Nat.mod_mod]

/-- A type of 64 bits has all values. -/
theorem IntType.cast_of_size {T : IntType} (h : T.size = 8) (v : Int64) : T.cast v = v := by
  have hlt : v.toUInt64.toNat % 2 ^ (8 * T.size) = v.toUInt64.toNat := by
    rw [h]
    exact Nat.mod_eq_of_lt v.toUInt64.toNat_lt
  have htoInt : v.toInt = (v.toUInt64.toNat : ℤ).bmod (2 ^ 64) := BitVec.toInt_eq_toNat_bmod _
  rw [cast, hlt, ← Int64.toInt_inj, htoInt, value]
  split_ifs
  · rw [Int64.toInt_ofInt, h]
    exact Int.bmod_bmod
  · rw [Int64.toInt_ofInt]
    rfl

/-- **A written integer** is read as what it is cast to. -/
theorem reads_read (T : IntType) (v : Int64) : Wire.Reads (read T) (write T v) (T.cast v) := by
  intro rest
  have hbytes : Wire.readBytes T.size (write T v ++ rest) = (some (write T v), rest) :=
    Wire.reads_readBytes (Wire.length_leBytes _ _) rest
  have hvalue : Wire.ofLE (write T v) = v.toUInt64.toNat % 2 ^ (8 * T.size) := by
    rw [write, Wire.ofLE_leBytes, pow_mul]
    rfl
  simp only [read, hbytes, hvalue, IntType.cast]

/-- A length that `writeString` writes is read as it is. -/
theorem toNat_cast_length {n : ℕ} (h : n ≤ 65535) : (IntType.uint16.cast (Int64.ofNat n)).toUInt64.toNat = n := by
  have hofNat : (Int64.ofNat n).toUInt64.toNat = n := toNat_ofNat (by omega)
  have hmod : n % 2 ^ (8 * IntType.uint16.size) = n := Nat.mod_eq_of_lt (by simp [IntType.size]; omega)
  have hvalue : IntType.uint16.value n = Int64.ofNat n := rfl
  rw [IntType.cast, hofNat, hmod, hvalue, hofNat]

/-- **A written text** of at most 65535 bytes is read as it is. -/
theorem reads_readString {str : Str} (h : str.length ≤ 65535) : Wire.Reads readString (writeString str) str := by
  intro rest
  have hlength := reads_read .uint16 (Int64.ofNat str.length) (str ++ rest)
  rw [writeString, if_neg (by omega), List.append_assoc]
  simp only [readString, hlength, toNat_cast_length h]
  exact Wire.reads_readBytes rfl rest

/-! ## Custom attributes -/

theorem reads_mapRead {α β : Type} {r : Str → Option α × Str} {bytes : Str} {a : α} (f : α → β)
    (h : Wire.Reads r bytes a) (rest : Str) : mapRead f (r (bytes ++ rest)) = (some (f a), rest) := by
  rw [h]
  rfl

/-- **A written custom attribute** is read as it is, when it is no text beyond 65535 bytes. -/
theorem reads_unserialize {value : CustomAttribute} (h : ∀ text, value = .string text → text.length ≤ 65535) :
    Wire.Reads CustomAttribute.unserialize value.serialize value := by
  intro rest
  cases value with
  | string text =>
    have htype := reads_read .uint8 1 (writeString text ++ rest)
    rw [CustomAttribute.serialize, List.append_assoc, CustomAttribute.unserialize, htype]
    exact reads_mapRead _ (reads_readString (h text rfl)) rest
  | integer v =>
    have htype := reads_read .uint8 2 (write .int64 v ++ rest)
    have hcast : IntType.int64.cast v = v := IntType.cast_of_size rfl v
    rw [CustomAttribute.serialize, List.append_assoc, CustomAttribute.unserialize, htype]
    exact (reads_mapRead _ (reads_read .int64 v) rest).trans (by rw [hcast])
  | double bits =>
    have htype := reads_read .uint8 3 (writeDouble bits ++ rest)
    have hcast : IntType.uint64.cast bits.toInt64 = bits.toInt64 := IntType.cast_of_size rfl _
    rw [CustomAttribute.serialize, List.append_assoc, CustomAttribute.unserialize, htype]
    exact (reads_mapRead _ (reads_read .uint64 _) rest).trans (by rw [hcast, UInt64.toUInt64_toInt64])
  | bool v =>
    have htype := reads_read .uint8 4 (write .uint8 (if v then 1 else 0) ++ rest)
    rw [CustomAttribute.serialize, List.append_assoc, CustomAttribute.unserialize, htype]
    refine (reads_mapRead _ (reads_read .uint8 _) rest).trans ?_
    cases v <;> rfl

/-- **Written custom attributes** are added one by one. -/
theorem readCustom_writeEntries {map : List (Str × CustomAttribute)} (hkeys : ∀ e ∈ map, e.1.length ≤ 65535)
    (hvalues : ∀ e ∈ map, ∀ text, e.2 = .string text → text.length ≤ 65535) (x : Item) (rest : Str) :
    readCustom id map.length x (Item.writeEntries map ++ rest) =
      (.ATTR_READ_CONTINUE, map.foldl (fun x e => x.addCustomAttribute e.1 e.2) x, rest) := by
  induction map generalizing x with
  | nil => rfl
  | cons e map ih =>
    have hkey := reads_readString (hkeys e List.mem_cons_self)
      (e.2.serialize ++ (Item.writeEntries map ++ rest))
    have hvalue := reads_unserialize (hvalues e List.mem_cons_self) (Item.writeEntries map ++ rest)
    have hwrite : Item.writeEntries (e :: map) ++ rest =
        writeString e.1 ++ (e.2.serialize ++ (Item.writeEntries map ++ rest)) := by
      simp only [Item.writeEntries, List.flatMap_cons, List.append_assoc]
    rw [hwrite, List.length_cons, readCustom]
    simp only [hkey, hvalue, id]
    exact ih (fun e' he' => hkeys e' (List.mem_cons_of_mem e he'))
      (fun e' he' => hvalues e' (List.mem_cons_of_mem e he')) _

/-! ## Fields -/

/-- A tag is read as its value, and the value is its own. -/
theorem reads_writeTag {tag : AttrType} (h : tag ≠ .other) :
    ∃ v : Int64, Wire.Reads (read .uint8) (writeTag tag) v ∧ v ≠ 0 ∧ AttrType.ofValue v.toUInt64.toNat = tag := by
  refine ⟨_, reads_read .uint8 _, ?_⟩
  cases tag <;> first | exact absurd rfl h | decide

/-- **A field is taken** when its case of `readAttr` takes what stands behind the tag. -/
theorem takes_field {tag : AttrType} (htag : tag ≠ .other) {bytes : Str} {f : Item → Item}
    (h : ∀ x rest, readAttr sv tag x (bytes ++ rest) = (.ATTR_READ_CONTINUE, f x, rest)) :
    Wire.Takes (unserializeAttr sv) (writeTag tag ++ bytes) f := by
  intro fuel x rest hfuel
  obtain ⟨v, hread, hv, htype⟩ := reads_writeTag htag
  have hlength : (writeTag tag).length = 1 := Wire.length_leBytes _ _
  simp only [List.length_append, hlength] at hfuel
  obtain ⟨fuel, rfl⟩ : ∃ n, fuel = n + 1 := ⟨fuel - 1, by omega⟩
  refine ⟨fuel, by omega, ?_⟩
  rw [List.append_assoc, unserializeAttr, hread]
  simp only [if_neg hv, htype, h]

/-- A field with an integer is taken by a case that reads one and sets it. -/
theorem takes_integer {tag : AttrType} (htag : tag ≠ .other) {T : IntType} {set : Int64 → Item → Item}
    (h : ∀ x s, readAttr sv tag x s = readField x set (read T s)) (v : Int64) :
    Wire.Takes (unserializeAttr sv) (writeTag tag ++ write T v) (set (T.cast v)) := by
  refine takes_field htag fun x rest => ?_
  rw [h, reads_read]
  rfl

/-- A field with a text is taken by a case that reads one and sets it. -/
theorem takes_string {tag : AttrType} (htag : tag ≠ .other) {set : Str → Item → Item}
    (h : ∀ x s, readAttr sv tag x s = readField x set (readString s)) {str : Str} (hstr : str.length ≤ 65535) :
    Wire.Takes (unserializeAttr sv) (writeTag tag ++ writeString str) (set str) := by
  refine takes_field htag fun x rest => ?_
  rw [h, reads_readString hstr]
  rfl

/-! ## The item that is read back -/

/-- What every item has: a text that is set is not empty, and the keys of the custom attributes are
in order and in lower case. -/
structure Item.WF (item : Item) : Prop where
  nonempty : ∀ type text, item.strings type = some text → text ≠ []
  sorted : item.customAttributeMap.Pairwise fun e e' => less e.1 e'.1
  lower : ∀ e ∈ item.customAttributeMap, asLowerCaseString e.1 = e.1

/-- An item that can be written: no text is longer than 65535 bytes, and the number of custom
attributes has 64 bits. -/
structure Item.Storable (item : Item) : Prop extends item.WF where
  length_le : ∀ type, (item.getString type).length ≤ 65535
  key_length_le : ∀ e ∈ item.customAttributeMap, e.1.length ≤ 65535
  value_length_le : ∀ e ∈ item.customAttributeMap, ∀ text, e.2 = .string text → text.length ≤ 65535
  size_lt : item.customAttributeMap.length < 2 ^ 64

section WF

theorem tolower_tolower (c : UInt8) : tolower (tolower c) = tolower c := by
  unfold tolower
  by_cases h : 65 ≤ c ∧ c ≤ 90
  · have hlow : 65 ≤ c.toNat := UInt8.le_iff_toNat_le.1 h.1
    have hhigh : c.toNat ≤ 90 := UInt8.le_iff_toNat_le.1 h.2
    have hsum : (c + 32).toNat = c.toNat + 32 := by
      rw [UInt8.toNat_add]
      exact Nat.mod_eq_of_lt (by show c.toNat + 32 < 256; omega)
    have hnot : ¬ (65 ≤ c + 32 ∧ c + 32 ≤ 90) := by
      rintro ⟨-, hle⟩
      have hle' : (c + 32).toNat ≤ 90 := UInt8.le_iff_toNat_le.1 hle
      omega
    rw [if_pos h, if_neg hnot]
  · rw [if_neg h, if_neg h]

theorem asLowerCaseString_idem (key : Str) : asLowerCaseString (asLowerCaseString key) = asLowerCaseString key := by
  simp only [asLowerCaseString, List.map_map]
  exact List.map_congr_left fun c _ => tolower_tolower c

theorem less_of_not {key key' : Str} (h : ¬ less key key') (hne : key ≠ key') : less key' key := by
  refine lt_of_le_of_ne (not_lt.1 h) fun heq => hne ?_
  exact (List.map_injective_iff.2 fun _ _ => UInt8.toNat_inj.1) heq.symm

/-- What is in a map after an assignment was in it before, or is what was assigned. -/
theorem mem_assign {key : Str} {value : CustomAttribute} {map : List (Str × CustomAttribute)}
    {e : Str × CustomAttribute} (h : e ∈ assign key value map) : e = (key, value) ∨ e ∈ map := by
  induction map with
  | nil => exact Or.inl (List.mem_singleton.1 h)
  | cons e' map ih =>
    unfold assign at h
    split_ifs at h
    · rcases List.mem_cons.1 h with h | h
      · exact Or.inl h
      · exact Or.inr h
    · rcases List.mem_cons.1 h with h | h
      · exact Or.inl h
      · exact Or.inr (List.mem_cons_of_mem e' h)
    · rcases List.mem_cons.1 h with rfl | h
      · exact Or.inr List.mem_cons_self
      · exact (ih h).imp_right (List.mem_cons_of_mem e')

/-- An assignment keeps the keys in order. -/
theorem pairwise_assign {key : Str} {value : CustomAttribute} {map : List (Str × CustomAttribute)}
    (h : map.Pairwise fun e e' => less e.1 e'.1) : (assign key value map).Pairwise fun e e' => less e.1 e'.1 := by
  induction map with
  | nil => exact List.pairwise_singleton _ _
  | cons e map ih =>
    obtain ⟨hhead, htail⟩ := List.pairwise_cons.1 h
    unfold assign
    split_ifs with hless heq
    · refine List.pairwise_cons.2 ⟨fun e' he' => ?_, h⟩
      rcases List.mem_cons.1 he' with rfl | he'
      · exact hless
      · exact lt_trans hless (hhead e' he')
    · exact List.pairwise_cons.2 ⟨fun e' he' => heq ▸ hhead e' he', htail⟩
    · refine List.pairwise_cons.2 ⟨fun e' he' => ?_, ih htail⟩
      rcases mem_assign he' with rfl | he'
      · exact less_of_not hless heq
      · exact hhead e' he'

/-- Setting an integer keeps an item well-formed. -/
theorem Item.WF.setInteger {item : Item} (h : item.WF) (type : IntegerAttribute) (value : Int64) :
    (item.setInteger type value).WF :=
  ⟨h.nonempty, h.sorted, h.lower⟩

/-- Setting a text keeps an item well-formed. -/
theorem Item.WF.setString {item : Item} (h : item.WF) (type : StringAttribute) (value : Str) :
    (item.setString type value).WF := by
  unfold Item.setString
  split_ifs with hempty
  · exact h
  · refine ⟨fun type' text htext => ?_, h.sorted, h.lower⟩
    dsimp only at htext
    by_cases htype : type' = type
    · subst htype
      rw [Function.update_self] at htext
      exact Option.some.inj htext ▸ hempty
    · rw [Function.update_of_ne htype] at htext
      exact h.nonempty type' text htext

/-- Adding a custom attribute keeps an item well-formed. -/
theorem Item.WF.addCustomAttribute {item : Item} (h : item.WF) (key : Str)
    (value : CustomAttribute) : (item.addCustomAttribute key value).WF := by
  refine ⟨h.nonempty, pairwise_assign h.sorted, fun e he => ?_⟩
  rcases mem_assign he with rfl | he
  · exact asLowerCaseString_idem key
  · exact h.lower e he

/-- A new item is well-formed. -/
theorem Item.WF.new (sv : Server) (id : UInt16) : (Item.new sv id).WF := by
  unfold Item.new Item.setDefaultDuration
  dsimp only
  split_ifs <;> exact ⟨fun _ _ h => (nomatch h), List.Pairwise.nil, fun _ h => nomatch h⟩

end WF

namespace Item

/-- Reading back an integer that is written when it is not zero. -/
def restoreNonzero (item : Item) (type : IntegerAttribute) (T : IntType) (set : Int64 → Item → Item)
    (x : Item) : Item :=
  if item.getAttribute T type ≠ 0 then set (item.getAttribute T type) x else x

/-- Reading back an integer that is written when it is set. -/
def restoreInteger (item : Item) (type : IntegerAttribute) (T : IntType) (x : Item) : Item :=
  if item.hasInteger type then x.setInteger type (item.getAttribute T type) else x

/-- Reading back a text. -/
def restoreString (item : Item) (type : StringAttribute) (x : Item) : Item :=
  x.setString type (item.getString type)

/-- Reading back the count or the fluid. -/
def restoreCount (sv : Server) (item x : Item) : Item :=
  let it := sv.items item.id
  if it.stackable ∨ it.isFluid then x.setSubType sv (IntType.uint8.cast (item.getSubType sv)) else x

/-- Reading back the charges. -/
def restoreCharges (sv : Server) (item : Item) : Item → Item :=
  item.restoreNonzero .CHARGES .uint16 (setSubType sv)

/-- Reading back the action id. -/
def restoreActionId (sv : Server) (item x : Item) : Item :=
  if (sv.items item.id).movable then item.restoreNonzero .ACTIONID .uint16 (setInteger .ACTIONID) x
  else x

/-- Reading back the duration. -/
def restoreDuration (sv : Server) (item x : Item) : Item :=
  if item.hasInteger .DURATION then x.setDuration (IntType.int32.cast (item.getDuration sv)) else x

/-- Reading back the decay state. -/
def restoreDecaying (item x : Item) : Item :=
  if item.getDecaying = DECAYING_TRUE ∨ item.getDecaying = DECAYING_PENDING then
    x.setDecaying DECAYING_PENDING
  else x

/-- Reading back the tier. -/
def restoreTier (sv : Server) (item x : Item) : Item :=
  if item.hasInteger .TIER then x.setInteger .TIER (IntType.uint8.cast (item.getTier sv)) else x

/-- Reading back the special text. -/
def restoreSpecial (item x : Item) : Item :=
  if item.hasString .SPECIAL then setSpecial (item.getString .SPECIAL) x else x

/-- Reading back the custom attributes. -/
def restoreCustom (item x : Item) : Item :=
  item.customAttributeMap.foldl (fun x e => x.addCustomAttribute e.1 e.2) x

/-- What reading the bytes of `item` changes, the last change first. -/
def restore (sv : Server) (item : Item) : Item → Item :=
  item.restoreInteger .OBTAINCONTAINER .uint32 ∘
  item.restoreCustom ∘
  item.restoreInteger .OWNER .uint32 ∘
  item.restoreString .STORE_INBOX_CATEGORY ∘
  item.restoreInteger .AMOUNT .uint16 ∘
  item.restoreTier sv ∘
  item.restoreInteger .QUICKLOOTCONTAINER .uint32 ∘
  item.restoreSpecial ∘
  item.restoreInteger .SHOOTRANGE .uint8 ∘
  item.restoreInteger .HITCHANCE .int8 ∘
  item.restoreInteger .ARMOR .int32 ∘
  item.restoreInteger .OPENCONTAINER .uint8 ∘
  item.restoreInteger .IMBUEMENT_SLOT .int32 ∘
  item.restoreInteger .EXTRADEFENSE .int32 ∘
  item.restoreInteger .DEFENSE .int32 ∘
  item.restoreInteger .ATTACK .int32 ∘
  item.restoreInteger .WEIGHT .uint32 ∘
  item.restoreString .PLURALNAME ∘
  item.restoreString .ARTICLE ∘
  item.restoreString .NAME ∘
  item.restoreDecaying ∘
  item.restoreDuration sv ∘
  item.restoreString .DESCRIPTION ∘
  item.restoreString .WRITER ∘
  item.restoreNonzero .DATE .uint64 (setInteger .DATE) ∘
  item.restoreString .TEXT ∘
  item.restoreActionId sv ∘
  item.restoreCharges sv ∘
  item.restoreCount sv ∘
  item.restoreNonzero .STORE .int64 (setInteger .STORE)

end Item

section Taking

variable {tag : AttrType} {type : IntegerAttribute} {stype : StringAttribute} {T : IntType}

theorem takes_writeNonzero {set : Int64 → Item → Item} (htag : tag ≠ .other)
    (h : ∀ x s, readAttr sv tag x s = readField x set (read T s)) :
    Wire.Takes (unserializeAttr sv) (item.writeNonzero type T tag) (item.restoreNonzero type T set) := by
  have htakes := takes_integer htag h (item.getAttribute T type)
  rw [Item.getAttribute, IntType.cast_cast] at htakes
  exact .ite fun _ => htakes

theorem takes_writeInteger (htag : tag ≠ .other)
    (h : ∀ x s, readAttr sv tag x s = readField x (Item.setInteger type) (read T s)) :
    Wire.Takes (unserializeAttr sv) (item.writeInteger type T tag) (item.restoreInteger type T) := by
  have htakes := takes_integer htag h (item.getAttribute T type)
  rw [Item.getAttribute, IntType.cast_cast] at htakes
  exact .ite fun _ => htakes

/-- A text that is not written is empty, and setting it changes nothing. -/
theorem restoreString_of_empty (h : item.getString stype = []) : item.restoreString stype = fun x => x := by
  funext x
  simp [Item.restoreString, Item.setString, h]

theorem takes_writeText (hitem : item.Storable) (htag : tag ≠ .other)
    (h : ∀ x s, readAttr sv tag x s = readField x (Item.setString stype) (readString s)) :
    Wire.Takes (unserializeAttr sv) (item.writeText stype tag) (item.restoreString stype) := by
  unfold Item.writeText
  by_cases hempty : item.getString stype = []
  · rw [if_neg (not_not.2 hempty), restoreString_of_empty hempty]
    exact .nil
  · rw [if_pos hempty]
    exact takes_string htag h (hitem.length_le stype)

theorem takes_writeSet (hitem : item.Storable) (htag : tag ≠ .other)
    (h : ∀ x s, readAttr sv tag x s = readField x (Item.setString stype) (readString s)) :
    Wire.Takes (unserializeAttr sv) (item.writeSet stype tag) (item.restoreString stype) := by
  unfold Item.writeSet
  by_cases hset : item.hasString stype = true
  · rw [if_pos hset]
    exact takes_string htag h (hitem.length_le stype)
  · have hempty : item.getString stype = [] := by
      rw [Item.hasString, Option.not_isSome_iff_eq_none] at hset
      rw [Item.getString, hset, Option.getD_none]
    rw [if_neg hset, restoreString_of_empty hempty]
    exact .nil

theorem takes_writeCustom (hitem : item.Storable) :
    Wire.Takes (unserializeAttr sv) item.writeCustom item.restoreCustom := by
  unfold Item.writeCustom
  by_cases hempty : item.customAttributeMap = []
  · have hid : item.restoreCustom = fun x => x := by
      funext x
      simp [Item.restoreCustom, hempty]
    rw [if_neg (not_not.2 hempty), hid]
    exact .nil
  · rw [if_pos hempty]
    refine takes_field (by decide) fun x rest => ?_
    have hsize := reads_read .uint64 (Int64.ofNat item.customAttributeMap.length)
      (Item.writeEntries item.customAttributeMap ++ rest)
    have hlength : (IntType.uint64.cast
        (Int64.ofNat item.customAttributeMap.length)).toUInt64.toNat =
          item.customAttributeMap.length := by
      rw [IntType.cast_of_size rfl, toNat_ofNat hitem.size_lt]
    rw [List.append_assoc, readAttr, readCustomMap, hsize]
    simp only [hlength]
    exact readCustom_writeEntries hitem.key_length_le hitem.value_length_le x rest

theorem takes_writeActionId : Wire.Takes (unserializeAttr sv) (item.writeActionId sv) (item.restoreActionId sv) :=
  .ite fun _ => takes_writeNonzero (by decide) fun _ _ => rfl

/-- Both states that are written are not zero, and are read as `DECAYING_PENDING`. -/
theorem takes_writeDecaying : Wire.Takes (unserializeAttr sv) item.writeDecaying item.restoreDecaying := by
  refine .ite fun hstate => ?_
  have htakes : Wire.Takes (unserializeAttr sv)
      (writeTag .ATTR_DECAYING_STATE ++ write .uint8 item.getDecaying)
      (setDecayingState (IntType.uint8.cast item.getDecaying)) :=
    takes_integer (by decide) (fun _ _ => rfl) item.getDecaying
  have hset : setDecayingState (IntType.uint8.cast item.getDecaying) =
      Item.setDecaying DECAYING_PENDING := by
    rcases hstate with h | h <;> rw [h] <;> rfl
  rwa [hset] at htakes

/-- **What `serializeAttr` has written** is taken field by field. -/
theorem takes_serializeAttr (hitem : item.Storable) :
    Wire.Takes (unserializeAttr sv) (item.serializeAttr sv) (item.restore sv) := by
  unfold Item.serializeAttr Item.restore
  refine .append ?_ (takes_writeInteger (by decide) fun _ _ => rfl)
  refine .append ?_ (takes_writeCustom hitem)
  refine .append ?_ (takes_writeInteger (by decide) fun _ _ => rfl)
  refine .append ?_ (takes_writeSet hitem (by decide) fun _ _ => rfl)
  refine .append ?_ (takes_writeInteger (by decide) fun _ _ => rfl)
  refine .append ?_ (.ite fun _ => takes_integer (by decide) (fun _ _ => rfl) _)
  refine .append ?_ (takes_writeInteger (by decide) fun _ _ => rfl)
  refine .append ?_ (.ite fun _ => takes_string (by decide) (fun _ _ => rfl) (hitem.length_le _))
  refine .append ?_ (takes_writeInteger (by decide) fun _ _ => rfl)
  refine .append ?_ (takes_writeInteger (by decide) fun _ _ => rfl)
  refine .append ?_ (takes_writeInteger (by decide) fun _ _ => rfl)
  refine .append ?_ (takes_writeInteger (by decide) fun _ _ => rfl)
  refine .append ?_ (takes_writeInteger (by decide) fun _ _ => rfl)
  refine .append ?_ (takes_writeInteger (by decide) fun _ _ => rfl)
  refine .append ?_ (takes_writeInteger (by decide) fun _ _ => rfl)
  refine .append ?_ (takes_writeInteger (by decide) fun _ _ => rfl)
  refine .append ?_ (takes_writeInteger (by decide) fun _ _ => rfl)
  refine .append ?_ (takes_writeSet hitem (by decide) fun _ _ => rfl)
  refine .append ?_ (takes_writeSet hitem (by decide) fun _ _ => rfl)
  refine .append ?_ (takes_writeSet hitem (by decide) fun _ _ => rfl)
  refine .append ?_ (takes_writeDecaying)
  refine .append ?_ (.ite fun _ => takes_integer (by decide) (fun _ _ => rfl) _)
  refine .append ?_ (takes_writeText hitem (by decide) fun _ _ => rfl)
  refine .append ?_ (takes_writeText hitem (by decide) fun _ _ => rfl)
  refine .append ?_ (takes_writeNonzero (by decide) fun _ _ => rfl)
  refine .append ?_ (takes_writeText hitem (by decide) fun _ _ => rfl)
  refine .append ?_ takes_writeActionId
  refine .append ?_ (takes_writeNonzero (by decide) fun _ _ => rfl)
  refine .append ?_ (.ite fun _ => takes_integer (by decide) (fun _ _ => rfl) _)
  exact takes_writeNonzero (by decide) fun _ _ => rfl

end Taking

end TiabloServer.Attributes
