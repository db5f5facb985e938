import TiabloServer.Attributes.Restore
import TiabloServer.Lib.KeyVector
import TiabloServer.Lib.Runs

/-!
# The vector of attributes

`ItemAttribute` (`items/functions/item/attribute.cpp`): the attributes that an item has are in a
vector, which is searched from its front; the last one takes the place of one that is removed. The
functions from types to values of `Item` are what the vector stands for.

## Main definitions

* `ItemAttribute` — the vector, and the map of custom attributes.
* `ItemAttribute.Refines` — it holds what an item has.

## Main results

* `ItemAttribute.run_refines` — after every run it answers as the item of the same run, which is
  well-formed.
-/

namespace TiabloServer.Attributes

/-- `ItemAttribute_t`; `other` is of neither kind. -/
inductive ItemAttribute_t where
  | integer (type : IntegerAttribute)
  | string (type : StringAttribute)
  | other
deriving DecidableEq

/-- The value of an `Attributes`. -/
abbrev Variant : Type := Int64 ⊕ Str

structure ItemAttribute where
  attributeVector : List (Σ _ : ItemAttribute_t, Variant)
  customAttributeMap : List (Str × CustomAttribute)

namespace ItemAttribute

/-! ## The functions of the source -/

def hasAttribute (a : ItemAttribute) (type : ItemAttribute_t) : Bool :=
  a.attributeVector.any fun e => e.1 = type

/-- `getAttribute`: the value of the first attribute of the type. -/
def getAttribute (a : ItemAttribute) (type : ItemAttribute_t) : Option Variant :=
  a.attributeVector.dlookup type

def getAttributeValue (a : ItemAttribute) (type : IntegerAttribute) : Int64 :=
  match a.getAttribute (.integer type) with
  | some (.inl value) => value
  | _ => 0

def getAttributeString (a : ItemAttribute) (type : StringAttribute) : Str :=
  match a.getAttribute (.string type) with
  | some (.inr value) => value
  | _ => []

/-- What the two functions `setAttribute` set: values of the kind of the type, and no empty text. -/
def isSet : ItemAttribute_t → Variant → Bool
  | .integer _, .inl _ => true
  | .string _, .inr value => value ≠ []
  | _, _ => false

/-- `removeCustomAttribute`, of the map. -/
def eraseCustom (attributeName : Str) (map : List (Str × CustomAttribute)) : List (Str × CustomAttribute) :=
  map.filter fun e => e.1 ≠ asLowerCaseString attributeName

/-- The functions that change attributes. -/
inductive Step where
  | setAttribute (type : ItemAttribute_t) (value : Variant)
  | removeAttribute (type : ItemAttribute_t)
  | addCustomAttribute (key : Str) (value : CustomAttribute)
  | removeCustomAttribute (attributeName : Str)

def step (a : ItemAttribute) : Step → ItemAttribute
  | .setAttribute type value =>
    if isSet type value then { a with attributeVector := KeyVector.set type value a.attributeVector } else a
  | .removeAttribute type => { a with attributeVector := KeyVector.remove type a.attributeVector }
  | .addCustomAttribute key value =>
    { a with customAttributeMap := assign (asLowerCaseString key) value a.customAttributeMap }
  | .removeCustomAttribute attributeName =>
    { a with customAttributeMap := eraseCustom attributeName a.customAttributeMap }

/-! ## What the vector stands for -/

/-- The same for the functions of an item. -/
def itemStep (item : Item) : Step → Item
  | .setAttribute (.integer type) (.inl value) => item.setInteger type value
  | .setAttribute (.string type) (.inr value) => item.setString type value
  | .setAttribute _ _ => item
  | .removeAttribute (.integer type) => { item with integers := Function.update item.integers type none }
  | .removeAttribute (.string type) => item.removeString type
  | .removeAttribute .other => item
  | .addCustomAttribute key value => item.addCustomAttribute key value
  | .removeCustomAttribute attributeName =>
    { item with customAttributeMap := eraseCustom attributeName item.customAttributeMap }

/-- The attributes of an item, by type. -/
def attributes (item : Item) : ItemAttribute_t → Option Variant
  | .integer type => (item.integers type).map .inl
  | .string type => (item.strings type).map .inr
  | .other => none

/-- The attributes of the item are in the vector, each once, and the item is well-formed. -/
structure Refines (a : ItemAttribute) (item : Item) : Prop where
  distinct : a.attributeVector.NodupKeys
  holds : ∀ type, a.getAttribute type = attributes item type
  custom : a.customAttributeMap = item.customAttributeMap
  wf : item.WF

variable {a : ItemAttribute} {item : Item}

theorem attributes_set {type : ItemAttribute_t} {value : Variant} (h : isSet type value = true)
    (j : ItemAttribute_t) : attributes (itemStep item (.setAttribute type value)) j =
      if j = type then some value else attributes item j := by
  cases type <;> cases value <;> cases j <;>
    simp_all [isSet, attributes, itemStep, Item.setInteger, Item.setString, Function.update_apply] <;>
    split_ifs <;> simp_all

theorem attributes_remove (type j : ItemAttribute_t) :
    attributes (itemStep item (.removeAttribute type)) j = if j = type then none else attributes item j := by
  cases type <;> cases j <;> simp [attributes, itemStep, Item.removeString, Function.update_apply] <;>
    split_ifs <;> simp_all

theorem itemStep_of_not_set {type : ItemAttribute_t} {value : Variant} (h : isSet type value = false) :
    itemStep item (.setAttribute type value) = item := by
  cases type <;> cases value <;> simp_all [isSet, itemStep, Item.setString]

/-- The functions keep an item well-formed. -/
theorem wf_itemStep (h : item.WF) (c : Step) : (itemStep item c).WF := by
  cases c with
  | setAttribute type value =>
    cases type <;> cases value
    case integer.inl type value => exact h.setInteger type value
    case string.inr type value => exact h.setString type value
    all_goals exact h
  | removeAttribute type =>
    cases type with
    | integer type => exact ⟨h.nonempty, h.sorted, h.lower⟩
    | string type =>
      refine ⟨fun t text ht => ?_, h.sorted, h.lower⟩
      by_cases htype : t = type
      · subst htype
        simp [itemStep, Item.removeString] at ht
      · exact h.nonempty t text (by simpa [itemStep, Item.removeString, Function.update_of_ne htype] using ht)
    | other => exact h
  | addCustomAttribute key value => exact h.addCustomAttribute key value
  | removeCustomAttribute attributeName =>
    exact ⟨h.nonempty, h.sorted.filter _, fun e he => h.lower e (List.mem_of_mem_filter he)⟩

/-- **Every function that changes attributes** does to the vector what it does to the item. -/
theorem Refines.step (h : Refines a item) (c : Step) : Refines (a.step c) (itemStep item c) := by
  have hwf := wf_itemStep h.wf c
  cases c with
  | setAttribute type value =>
    cases hset : isSet type value with
    | false =>
      rw [itemStep_of_not_set hset]
      simpa [ItemAttribute.step, hset] using h
    | true =>
      simp only [ItemAttribute.step, hset, if_true]
      refine ⟨KeyVector.nodupKeys_set type value h.distinct, fun j => ?_, ?_, hwf⟩
      · rw [attributes_set hset, ← h.holds j, ← Function.update_apply]
        exact congrFun (KeyVector.dlookup_set type value a.attributeVector) j
      · rw [h.custom]
        cases type <;> cases value <;> try rfl
        simp only [itemStep, Item.setString]
        split_ifs <;> rfl
  | removeAttribute type =>
    refine ⟨KeyVector.nodupKeys_remove type h.distinct, fun j => ?_, ?_, hwf⟩
    · rw [attributes_remove, ← h.holds j, ← Function.update_apply]
      exact congrFun (KeyVector.dlookup_remove type h.distinct) j
    · cases type <;> exact h.custom
  | addCustomAttribute key value =>
    refine ⟨h.distinct, h.holds, ?_, hwf⟩
    simp only [ItemAttribute.step, itemStep, Item.addCustomAttribute, h.custom]
  | removeCustomAttribute attributeName =>
    refine ⟨h.distinct, h.holds, ?_, hwf⟩
    simp only [ItemAttribute.step, itemStep, h.custom]

theorem Refines.hasAttribute (h : Refines a item) (type : ItemAttribute_t) :
    a.hasAttribute type = (attributes item type).isSome := by
  rw [Bool.eq_iff_iff, ← h.holds, getAttribute, List.dlookup_isSome, List.mem_keys]
  simp [ItemAttribute.hasAttribute]

/-- **Every run** from no attributes: the vector has each type once and answers as the item of the
run. -/
theorem run_refines (id : UInt16) (count : UInt8) (steps : List Step) :
    let a := Runs.run step ⟨[], []⟩ steps
    let item := Runs.run itemStep ⟨id, count, fun _ => none, fun _ => none, []⟩ steps
    Refines a item ∧
      (∀ type, a.hasAttribute (.integer type) = item.hasInteger type ∧
        a.getAttributeValue type = item.getInteger type) ∧
      ∀ type, a.hasAttribute (.string type) = item.hasString type ∧
        a.getAttributeString type = item.getString type := by
  have hrun : ∀ {a item}, Refines a item → Refines (Runs.run step a steps) (Runs.run itemStep item steps) := by
    induction steps with
    | nil => exact fun h => h
    | cons c steps ih => exact fun h => ih (h.step c)
  intro a item
  have h : Refines a item := hrun ⟨List.nodupKeys_nil, fun type => by cases type <;> rfl, rfl,
    ⟨fun _ _ h => (nomatch h), List.Pairwise.nil, fun _ h => nomatch h⟩⟩
  refine ⟨h, fun type => ⟨?_, ?_⟩, fun type => ⟨?_, ?_⟩⟩
  · simp [h.hasAttribute, attributes, Item.hasInteger]
  · rw [getAttributeValue, h.holds, attributes, Item.getInteger]
    cases item.integers type <;> rfl
  · simp [h.hasAttribute, attributes, Item.hasString]
  · rw [getAttributeString, h.holds, attributes, Item.getString]
    cases item.strings type <;> rfl

end ItemAttribute

end TiabloServer.Attributes
