import TiabloServer.Attributes.Item

/-!
# Which stacks may be merged

`Item::equals` (`items/item.cpp`) compares the attributes that two items both have; strings are
compared by the objects that hold them. When a stack is merged with another one, `updateThing` sets
the id of the other one again (`Item::setID`) and its count, and the attributes of the first one are
gone with it.

## Main definitions

* `Merging.Lawful` — `equals` is an equivalence on three items, and merging two loses no attribute.
* `Merging.Agrees`, `Merging.Survives` — what decides it.

## Main results

* `Merging.equals_trans_iff` — `equals` is transitive through an item where what that one lacks
  agrees.
* `Merging.lawful_iff` — the two conditions together are what is needed.
-/

namespace TiabloServer.Merging

open Attributes (IntegerAttribute StringAttribute IntType CustomAttribute Str)

/-! ## Items -/

/-- The members of `ItemAttribute_t` that a vector of attributes can have. -/
inductive AttributeType where
  | integer (type : IntegerAttribute)
  | string (type : StringAttribute)
deriving DecidableEq

/-- `Attributes`: an integer, or the object of a string. -/
inductive Attribute where
  | integer (type : IntegerAttribute) (value : Int64)
  | string (type : StringAttribute) (object : ℕ)
deriving DecidableEq

/-- `getAttributeType`. -/
def Attribute.type : Attribute → AttributeType
  | .integer type _ => .integer type
  | .string type _ => .string type

/-- What `setID` reads of an item type. -/
structure ItemType where
  decayTime : UInt32
  stopTime : Bool
  decayTo : ℤ

/-- An item. A vector of attributes has each type at most once; for a container, `heldOwner` is the
first owner of what it holds. -/
structure Item where
  id : UInt16
  heldOwner : ℕ
  attributeVector : List Attribute
  customAttributeMap : List (Str × CustomAttribute)
  nodup : (attributeVector.map Attribute.type).Nodup

/-- `hasAttribute`, of a vector. -/
def hasAttribute (l : List Attribute) (type : AttributeType) : Bool := l.any fun a => a.type == type

/-- `getAttribute<int64_t>`, of a vector. -/
def getInteger (l : List Attribute) (type : IntegerAttribute) : Int64 :=
  match l.find? fun a => a.type == .integer type with
  | some (.integer _ value) => value
  | _ => 0

namespace Item

variable (x y : Item)

/-- `Item::isStoreItem`. -/
def isStoreItem : Bool := 0 < getInteger x.attributeVector .STORE

/-- `Item::getOwnerId` and `Container::getOwnerId`. -/
def getOwnerId : ℕ :=
  let ownerId := (IntType.uint32.cast (getInteger x.attributeVector .OWNER)).toUInt64.toNat
  if ownerId > 0 then ownerId else x.heldOwner

/-- `Item::equals`. -/
def equals : Bool :=
  x.id == y.id && x.isStoreItem == y.isStoreItem && x.getOwnerId == y.getOwnerId &&
    x.attributeVector.all fun a => a.type == .integer .STORE ||
      y.attributeVector.all fun b => a.type != b.type || a == b

end Item

/-! ## Setting an id again -/

def removeAttribute (type : AttributeType) (l : List Attribute) : List Attribute :=
  l.filter fun a => a.type ≠ type

/-- `setAttribute`, of an integer. -/
def setAttribute (type : IntegerAttribute) (value : Int64) (l : List Attribute) : List Attribute :=
  if hasAttribute l (.integer type) then
    l.map fun a => if a.type = .integer type then .integer type value else a
  else l ++ [.integer type value]

/-- `Item::isRewardCorpse`. -/
def isRewardCorpse (l : List Attribute) : Bool :=
  IntType.uint32.cast (getInteger l .CORPSEOWNER) = 2147483647

/-- The duration of a type, `newDuration`. -/
def ItemType.newDuration (it : ItemType) : UInt32 := it.decayTime * 1000

/-- A type that does not decay: `newDuration == 0 && !it.stopTime && it.decayTo < 0`. -/
def ItemType.Stops (it : ItemType) : Prop := it.newDuration = 0 ∧ it.stopTime = false ∧ it.decayTo < 0

instance (it : ItemType) : Decidable it.Stops :=
  inferInstanceAs (Decidable (it.newDuration = 0 ∧ it.stopTime = false ∧ it.decayTo < 0))

/-- The first branch of `setID`: an item that does not decay has no duration. -/
def stopDuration (it : ItemType) (l : List Attribute) : List Attribute :=
  if it.Stops then
    removeAttribute (.integer .DURATION)
      (if hasAttribute l (.integer .DECAYSTATE) then setAttribute .DECAYSTATE Attributes.DECAYING_STOPPING l
      else l)
  else l

/-- The second branch of `setID`: only a reward corpse has an owner. -/
def dropOwner (l : List Attribute) : List Attribute :=
  if isRewardCorpse l then l else removeAttribute (.integer .CORPSEOWNER) l

/-- `Item::setID`, of the attributes of an item that gets the id it has. -/
def setID (it : ItemType) (l : List Attribute) : List Attribute :=
  let l := dropOwner (stopDuration it l)
  if 0 < it.newDuration ∧ (it.stopTime = false ∨ hasAttribute l (.integer .DURATION) = false) then
    setAttribute .DURATION (max 0 (IntType.int32.cast (Int64.ofNat it.newDuration.toNat)))
      (setAttribute .DECAYSTATE Attributes.DECAYING_PENDING l)
  else l

/-! ## What attributes are set -/

@[simp] theorem hasAttribute_removeAttribute (l : List Attribute) (type type' : AttributeType) :
    hasAttribute (removeAttribute type l) type' = true ↔ hasAttribute l type' = true ∧ type' ≠ type := by
  simp only [hasAttribute, removeAttribute, List.any_eq_true, List.mem_filter, beq_iff_eq, decide_eq_true_eq]
  constructor
  · rintro ⟨a, ⟨ha, hne⟩, rfl⟩
    exact ⟨⟨a, ha, rfl⟩, hne⟩
  · rintro ⟨⟨a, ha, rfl⟩, hne⟩
    exact ⟨a, ⟨ha, hne⟩, rfl⟩

theorem type_overwrite (type : IntegerAttribute) (value : Int64) (a : Attribute) :
    (if a.type = .integer type then Attribute.integer type value else a).type = a.type := by
  split_ifs with h
  · exact h.symm
  · rfl

@[simp] theorem hasAttribute_setAttribute (l : List Attribute) (type : IntegerAttribute) (value : Int64)
    (type' : AttributeType) : hasAttribute (setAttribute type value l) type' = true ↔
      hasAttribute l type' = true ∨ type' = .integer type := by
  unfold setAttribute
  split_ifs with hset
  · simp only [hasAttribute, List.any_map, Function.comp_def, type_overwrite]
    exact ⟨.inl, fun h => h.elim id fun h => h ▸ hset⟩
  · simp only [hasAttribute, List.any_append, Bool.or_eq_true, List.any_cons, List.any_nil, Bool.or_false,
      beq_iff_eq, Attribute.type]
    exact or_congr_right eq_comm

theorem getInteger_removeAttribute {type : AttributeType} {type' : IntegerAttribute} (l : List Attribute)
    (hne : .integer type' ≠ type) : getInteger (removeAttribute type l) type' = getInteger l type' := by
  have hfind : (removeAttribute type l).find? (fun a => a.type == .integer type') =
      l.find? fun a => a.type == .integer type' := by
    rw [removeAttribute, List.find?_filter]
    congr 1
    funext a
    by_cases h : a.type = .integer type' <;> simp [h, hne]
  rw [getInteger, hfind, getInteger]

theorem getInteger_setAttribute {type type' : IntegerAttribute} (l : List Attribute) (value : Int64)
    (hne : type' ≠ type) : getInteger (setAttribute type value l) type' = getInteger l type' := by
  have hfind : (setAttribute type value l).find? (fun a => a.type == .integer type') =
      l.find? fun a => a.type == .integer type' := by
    unfold setAttribute
    split_ifs
    · have htype : (fun a : Attribute => a.type == .integer type') ∘
          (fun a => if a.type = .integer type then Attribute.integer type value else a) =
            fun a => a.type == .integer type' := by
        funext a
        rw [Function.comp_apply, type_overwrite]
      rw [List.find?_map, htype]
      cases hfound : l.find? fun a => a.type == .integer type' with
      | none => rfl
      | some a =>
        have ha : a.type = .integer type' := by simpa using List.find?_some hfound
        simp [ha, hne]
    · simp [List.find?_append, Attribute.type, Ne.symm hne]
  rw [getInteger, hfind, getInteger]

/-! ## When attributes survive -/

/-- `setID` lets the time of an item start again. -/
def Restarts (it : ItemType) (l : List Attribute) : Prop :=
  0 < it.newDuration ∧ (it.stopTime = false ∨ hasAttribute l (.integer .DURATION) = false)

/-- An attribute is set after `setID`: it has been set and is not taken away, or the time starts
again. -/
def Survives (it : ItemType) (l : List Attribute) (type : AttributeType) : Prop :=
  (Restarts it l ∧ (type = .integer .DECAYSTATE ∨ type = .integer .DURATION)) ∨
    hasAttribute l type = true ∧
      ¬ (type = .integer .DURATION ∧ it.Stops) ∧ ¬ (type = .integer .CORPSEOWNER ∧ isRewardCorpse l = false)

theorem hasAttribute_stopDuration (it : ItemType) (l : List Attribute) (type : AttributeType) :
    hasAttribute (stopDuration it l) type = true ↔
      hasAttribute l type = true ∧ ¬ (type = .integer .DURATION ∧ it.Stops) := by
  unfold stopDuration
  by_cases hstops : it.Stops
  · rw [if_pos hstops, hasAttribute_removeAttribute, and_iff_left hstops]
    refine and_congr_left fun _ => ?_
    split_ifs with hstate
    · rw [hasAttribute_setAttribute, or_iff_left_of_imp (fun h => h ▸ hstate)]
    · rfl
  · rw [if_neg hstops]
    exact (and_iff_left fun h => hstops h.2).symm

theorem isRewardCorpse_stopDuration (it : ItemType) (l : List Attribute) :
    isRewardCorpse (stopDuration it l) = isRewardCorpse l := by
  unfold stopDuration isRewardCorpse
  split_ifs
  · rw [getInteger_removeAttribute _ (by simp), getInteger_setAttribute _ _ (by simp)]
  · rw [getInteger_removeAttribute _ (by simp)]
  · rfl

theorem hasAttribute_dropOwner (l : List Attribute) (type : AttributeType) :
    hasAttribute (dropOwner l) type = true ↔
      hasAttribute l type = true ∧ ¬ (type = .integer .CORPSEOWNER ∧ isRewardCorpse l = false) := by
  unfold dropOwner
  cases h : isRewardCorpse l <;> simp

/-- **What is set after `setID`.** -/
theorem hasAttribute_setID (it : ItemType) (l : List Attribute) (type : AttributeType) :
    hasAttribute (setID it l) type = true ↔ Survives it l type := by
  have hset (type : AttributeType) : hasAttribute (dropOwner (stopDuration it l)) type = true ↔
      hasAttribute l type = true ∧ ¬ (type = .integer .DURATION ∧ it.Stops) ∧
        ¬ (type = .integer .CORPSEOWNER ∧ isRewardCorpse l = false) := by
    rw [hasAttribute_dropOwner, hasAttribute_stopDuration, isRewardCorpse_stopDuration, and_assoc]
  have hrestarts : (0 < it.newDuration ∧ (it.stopTime = false ∨
      hasAttribute (dropOwner (stopDuration it l)) (.integer .DURATION) = false)) ↔ Restarts it l := by
    refine and_congr_right fun hpos => or_congr_right ?_
    have hgoes : ¬ it.Stops := fun h => by simp [h.1] at hpos
    rw [← Bool.not_eq_true, hset, ← Bool.not_eq_true]
    simp [hgoes]
  unfold setID Survives
  simp only
  by_cases h : Restarts it l
  · rw [if_pos (hrestarts.2 h), hasAttribute_setAttribute, hasAttribute_setAttribute, hset]
    simp only [h, true_and, or_assoc]
    exact or_comm.trans or_assoc
  · rw [if_neg (fun h' => h (hrestarts.1 h')), hset]
    simp only [h, false_and, false_or]

/-! ## Equality of items -/

/-- Attributes of one type, other than the store mark, are the same. -/
def Same (l l' : List Attribute) : Prop :=
  ∀ a ∈ l, ∀ b ∈ l', a.type = b.type → a.type ≠ .integer .STORE → a = b

/-- Two items with the same id, store mark and owner, and the same attributes of the types that both
have. -/
def Alike (x y : Item) : Prop :=
  x.id = y.id ∧ x.isStoreItem = y.isStoreItem ∧ x.getOwnerId = y.getOwnerId ∧
    Same x.attributeVector y.attributeVector

theorem equals_iff (x y : Item) : x.equals y = true ↔ Alike x y := by
  unfold Alike
  simp only [Item.equals, Bool.and_eq_true, beq_iff_eq, List.all_eq_true, Bool.or_eq_true, bne_iff_ne, and_assoc]
  refine and_congr_right fun _ => and_congr_right fun _ => and_congr_right fun _ => ?_
  refine forall₂_congr fun a _ => ⟨fun h b hb htype hstore => ?_, fun h => ?_⟩
  · exact ((h.resolve_left hstore) b hb).resolve_left (not_not.2 htype)
  · by_cases hstore : a.type = .integer .STORE
    · exact .inl hstore
    · exact .inr fun b hb => (em (a.type = b.type)).symm.imp_right fun htype => h b hb htype hstore

theorem equals_refl (x : Item) : x.equals x = true := by
  refine (equals_iff x x).2 ⟨rfl, rfl, rfl, fun a ha b hb htype _ => ?_⟩
  exact List.inj_on_of_nodup_map x.nodup ha hb htype

theorem equals_symm {x y : Item} (h : x.equals y = true) : y.equals x = true := by
  obtain ⟨hid, hstore, howner, hsame⟩ := (equals_iff x y).1 h
  exact (equals_iff y x).2 ⟨hid.symm, hstore.symm, howner.symm, fun b hb a ha htype hstore =>
    (hsame a ha b hb htype.symm (htype ▸ hstore)).symm⟩

/-- Attributes that two items have and a third one has not are the same. -/
def Agrees (a b c : Item) : Prop :=
  ∀ x ∈ a.attributeVector, ∀ z ∈ c.attributeVector, x.type = z.type → x.type ≠ .integer .STORE →
    hasAttribute b.attributeVector x.type = false → x = z

/-- **`equals` is transitive through an item** where what the item lacks agrees. -/
theorem equals_trans_iff {a b c : Item} (hab : a.equals b = true) (hbc : b.equals c = true) :
    a.equals c = true ↔ Agrees a b c := by
  obtain ⟨hid, hstore, howner, hsame⟩ := (equals_iff a b).1 hab
  obtain ⟨hid', hstore', howner', hsame'⟩ := (equals_iff b c).1 hbc
  rw [equals_iff, Alike]
  refine ⟨fun h x hx z hz htype hne _ => h.2.2.2 x hx z hz htype hne, fun h => ?_⟩
  refine ⟨hid.trans hid', hstore.trans hstore', howner.trans howner', fun x hx z hz htype hne => ?_⟩
  cases hset : hasAttribute b.attributeVector x.type with
  | false => exact h x hx z hz htype hne hset
  | true =>
    obtain ⟨y, hy, hxy⟩ : ∃ y ∈ b.attributeVector, y.type = x.type := by simpa [hasAttribute] using hset
    exact (hsame x hx y hy hxy.symm hne).trans (hsame' y hy z hz (hxy.trans htype) (hxy ▸ hne))

/-! ## Merging -/

/-- The stack that is left when `x` is merged with `y`: `updateThing` sets its id again. -/
def merged (items : UInt16 → ItemType) (y : Item) : List Attribute := setID (items y.id) y.attributeVector

/-- A custom attribute is set, under its key. -/
def hasCustom (x : Item) (key : Str) : Bool := x.customAttributeMap.any fun e => e.1 == key

/-- When `x` is merged with `y`, every attribute of either one is still set. -/
structure MergeKeeps (items : UInt16 → ItemType) (x y : Item) : Prop where
  attributes : ∀ type, hasAttribute x.attributeVector type = true ∨ hasAttribute y.attributeVector type = true →
    hasAttribute (merged items y) type = true
  custom : ∀ key, hasCustom x key = true ∨ hasCustom y key = true → hasCustom y key = true

/-- `equals` is an equivalence on three items, and merging the first with the second loses no
attribute. -/
structure Lawful (items : UInt16 → ItemType) (a b c : Item) : Prop where
  refl : a.equals a = true
  symm : a.equals b = true → b.equals a = true
  trans : a.equals b = true → b.equals c = true → a.equals c = true
  merge : a.equals b = true → MergeKeeps items a b

/-- What `x` has set, `y` has too or gets when its time starts again, and what `y` has set is not
taken away when its id is set again. -/
structure Covered (items : UInt16 → ItemType) (x y : Item) : Prop where
  attributes : ∀ type, hasAttribute x.attributeVector type = true ∨ hasAttribute y.attributeVector type = true →
    Survives (items y.id) y.attributeVector type
  custom : ∀ key, hasCustom x key = true → hasCustom y key = true

theorem mergeKeeps_iff (items : UInt16 → ItemType) (x y : Item) : MergeKeeps items x y ↔ Covered items x y := by
  constructor
  · intro h
    exact ⟨fun type hset => (hasAttribute_setID _ _ _).1 (h.attributes type hset), fun key hkey =>
      h.custom key (.inl hkey)⟩
  · intro h
    exact ⟨fun type hset => (hasAttribute_setID _ _ _).2 (h.attributes type hset), fun key hkey =>
      hkey.elim (h.custom key) id⟩

/-- **`equals` is an equivalence that merging may rely on** for three items if and only if the first
and the third agree in what the second lacks, and the second covers what the first has, as far as
they are equal. -/
theorem lawful_iff (items : UInt16 → ItemType) (a b c : Item) :
    Lawful items a b c ↔ (Alike a b → Alike b c → Agrees a b c) ∧ (Alike a b → Covered items a b) := by
  simp only [← equals_iff]
  constructor
  · intro h
    exact ⟨fun hab hbc => (equals_trans_iff hab hbc).1 (h.trans hab hbc), fun hab =>
      (mergeKeeps_iff items a b).1 (h.merge hab)⟩
  · rintro ⟨hagrees, hcovered⟩
    exact ⟨equals_refl a, equals_symm, fun hab hbc => (equals_trans_iff hab hbc).2 (hagrees hab hbc), fun hab =>
      (mergeKeeps_iff items a b).2 (hcovered hab)⟩

/-- A stack of an id with the attributes of a vector of at most one attribute. -/
def labelled (label : Option Attribute) : Item where
  id := 2819
  heldOwner := 0
  attributeVector := label.toList
  customAttributeMap := []
  nodup := by cases label <;> simp

/-- Two stacks with different texts are each equal to one without a text, which one of them may be
merged with; the text is gone then. -/
theorem not_lawful_texts : ¬ ∀ (items : UInt16 → ItemType) (a b c : Item), Lawful items a b c := by
  intro h
  have htexts := h (fun _ => ⟨0, false, -1⟩) (labelled (some (.string .TEXT 1))) (labelled none)
    (labelled (some (.string .TEXT 2)))
  exact absurd (htexts.trans (by decide) (by decide)) (by decide)

end TiabloServer.Merging
