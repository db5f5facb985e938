import TiabloServer.Lib.Codec

/-!
# Saved conditions

The conditions of a player are written to the database when the player is saved and read back at the
login (`condition.cpp`). The first fields are read in their order by `createCondition`, which builds
an object of the class of the type; the others follow as tags with values, which the class of the
object takes, or leaves to `Condition`.

## Main definitions

* `Conditions.createCondition`, `Conditions.Condition.unserialize` — how it is read back.
* `Conditions.saveConditions`, `Conditions.readConditions` — the conditions of a player.
-/

namespace TiabloServer.Conditions

/-! ## Tags and types -/

/-- `ConditionAttr_t`. -/
inductive ConditionAttr where
  | type | id | ticks | healthTicks | healthGain | manaTicks | manaGain | delayed | owner
  | intervalData | speedDelta | formulaMinA | formulaMinB | formulaMaxA | formulaMaxB
  | lightColor | lightLevel | lightTicks | lightInterval | soulTicks | soulGain
  | skills | stats | buffs | outfit | periodDamage | isBuff | subId | manaShield
  | addSound | tickSound | absorbs | increases | charmChanceModifier | endOfCondition
  deriving DecidableEq, Repr

/-- The byte of a tag. -/
def ConditionAttr.toByte : ConditionAttr → UInt8
  | type => 1 | id => 2 | ticks => 3 | healthTicks => 4 | healthGain => 5 | manaTicks => 6
  | manaGain => 7 | delayed => 8 | owner => 9 | intervalData => 10 | speedDelta => 11
  | formulaMinA => 12 | formulaMinB => 13 | formulaMaxA => 14 | formulaMaxB => 15
  | lightColor => 16 | lightLevel => 17 | lightTicks => 18 | lightInterval => 19
  | soulTicks => 20 | soulGain => 21 | skills => 22 | stats => 23 | buffs => 24 | outfit => 25
  | periodDamage => 26 | isBuff => 27 | subId => 28 | manaShield => 29 | addSound => 30
  | tickSound => 31 | absorbs => 32 | increases => 33 | charmChanceModifier => 34
  | endOfCondition => 254

/-- All tags. -/
def ConditionAttr.all : List ConditionAttr :=
  [type, id, ticks, healthTicks, healthGain, manaTicks, manaGain, delayed, owner, intervalData,
    speedDelta, formulaMinA, formulaMinB, formulaMaxA, formulaMaxB, lightColor, lightLevel, lightTicks,
    lightInterval, soulTicks, soulGain, skills, stats, buffs, outfit, periodDamage, isBuff, subId,
    manaShield, addSound, tickSound, absorbs, increases, charmChanceModifier, endOfCondition]

/-- The tag of a byte, if it is one. -/
def ConditionAttr.ofByte? (b : UInt8) : Option ConditionAttr :=
  all.find? fun attr => attr.toByte = b

@[simp]
theorem ConditionAttr.ofByte?_toByte (attr : ConditionAttr) : ofByte? attr.toByte = some attr := by
  cases attr <;> rfl

/-- `ConditionType_t`: any byte, of which the source names those up to 38. -/
structure ConditionType where
  value : UInt8
  deriving DecidableEq, Repr

/-- The classes of conditions. `ConditionInvisible`, `ConditionSpellCooldown`,
`ConditionSpellGroupCooldown`, `ConditionFeared` and `ConditionGeneric` write what `Condition`
writes. -/
inductive Kind where
  | damage | speed | outfit | light | regeneration | soul | attributes | manaShield | plain
  deriving DecidableEq, Repr

namespace ConditionType

def poison : ConditionType := ⟨1⟩
def fire : ConditionType := ⟨2⟩
def energy : ConditionType := ⟨3⟩
def bleeding : ConditionType := ⟨4⟩
def haste : ConditionType := ⟨5⟩
def paralyze : ConditionType := ⟨6⟩
def outfit : ConditionType := ⟨7⟩
def invisible : ConditionType := ⟨8⟩
def light : ConditionType := ⟨9⟩
def manaShield : ConditionType := ⟨10⟩
def inFight : ConditionType := ⟨11⟩
def drunk : ConditionType := ⟨12⟩
def exhaust : ConditionType := ⟨13⟩
def regeneration : ConditionType := ⟨14⟩
def soul : ConditionType := ⟨15⟩
def drown : ConditionType := ⟨16⟩
def muted : ConditionType := ⟨17⟩
def channelMutedTicks : ConditionType := ⟨18⟩
def yellTicks : ConditionType := ⟨19⟩
def attributes : ConditionType := ⟨20⟩
def freezing : ConditionType := ⟨21⟩
def dazzled : ConditionType := ⟨22⟩
def cursed : ConditionType := ⟨23⟩
def exhaustCombat : ConditionType := ⟨24⟩
def exhaustHeal : ConditionType := ⟨25⟩
def pacified : ConditionType := ⟨26⟩
def spellCooldown : ConditionType := ⟨27⟩
def spellGroupCooldown : ConditionType := ⟨28⟩
def rooted : ConditionType := ⟨29⟩
def feared : ConditionType := ⟨30⟩

/-- The class that `createCondition` builds for a type, if it builds one. -/
def kind (t : ConditionType) : Option Kind :=
  if t ∈ [poison, fire, energy, drown, freezing, dazzled, cursed, bleeding] then some .damage
  else if t ∈ [haste, paralyze] then some .speed
  else if t = invisible then some .plain
  else if t = outfit then some .outfit
  else if t = light then some .light
  else if t = regeneration then some .regeneration
  else if t = soul then some .soul
  else if t = attributes then some .attributes
  else if t ∈ [spellCooldown, spellGroupCooldown] then some .plain
  else if t = manaShield then some .manaShield
  else if t = feared then some .plain
  else if t ∈ [rooted, inFight, drunk, exhaust, exhaustCombat, exhaustHeal, muted, channelMutedTicks,
    yellTicks, pacified] then some .plain
  else none

end ConditionType

/-! ## The data of the classes -/

structure IntervalInfo where
  timeLeft : Int32
  value : Int32
  interval : Int32
  deriving DecidableEq, Repr

/-- The saved data of a `ConditionDamage`. -/
structure ConditionDamage where
  delayed : Bool
  periodDamage : Int32
  damageList : List IntervalInfo
  deriving DecidableEq, Repr

/-- The saved data of a `ConditionSpeed`; a `float` is its four bytes. -/
structure ConditionSpeed where
  speedDelta : Int32
  mina : UInt32
  minb : UInt32
  maxa : UInt32
  maxb : UInt32
  deriving DecidableEq, Repr

/-- `Outfit_t`. -/
structure Outfit where
  lookType : UInt16
  lookTypeEx : UInt16
  lookMount : UInt16
  lookHead : UInt8
  lookBody : UInt8
  lookLegs : UInt8
  lookFeet : UInt8
  lookAddons : UInt8
  lookMountHead : UInt8
  lookMountBody : UInt8
  lookMountLegs : UInt8
  lookMountFeet : UInt8
  lookFamiliarsType : UInt16
  deriving DecidableEq, Repr

/-- The saved data of a `ConditionLight`. -/
structure ConditionLight where
  color : UInt8
  level : UInt8
  internalLightTicks : UInt32
  lightChangeInterval : UInt32
  deriving DecidableEq, Repr

/-- The saved data of a `ConditionRegeneration`. -/
structure ConditionRegeneration where
  healthTicks : UInt32
  healthGain : UInt32
  manaTicks : UInt32
  manaGain : UInt32
  deriving DecidableEq, Repr

/-- The saved data of a `ConditionSoul`. -/
structure ConditionSoul where
  soulGain : UInt32
  soulTicks : UInt32
  deriving DecidableEq, Repr

/-- The data of a `ConditionAttributes`, and the counters with which it is read. -/
structure ConditionAttributes where
  skills : Vector Int32 16
  stats : Vector Int32 5
  buffs : Vector Int32 3
  absorbs : Vector Int32 14
  increases : Vector Int32 14
  charmChanceModifier : Int8
  disableDefense : Bool
  currentSkill : ℕ
  currentStat : ℕ
  currentBuff : ℕ
  deriving DecidableEq, Repr

/-- What a condition holds beyond the fields of `Condition`. -/
inductive Effect where
  | damage (damage : ConditionDamage)
  | speed (speed : ConditionSpeed)
  | outfit (outfit : Outfit)
  | light (light : ConditionLight)
  | regeneration (regeneration : ConditionRegeneration)
  | soul (soul : ConditionSoul)
  | attributes (attributes : ConditionAttributes)
  | manaShield (manaShield : UInt16)
  | plain
  deriving DecidableEq, Repr

/-- The class of a condition. -/
def Effect.kind : Effect → Kind
  | damage _ => .damage
  | speed _ => .speed
  | outfit _ => .outfit
  | light _ => .light
  | regeneration _ => .regeneration
  | soul _ => .soul
  | attributes _ => .attributes
  | manaShield _ => .manaShield
  | plain => .plain

/-- What a new object of a class holds. -/
def Kind.initial : Kind → Effect
  | damage => .damage ⟨false, 0, []⟩
  | speed => .speed ⟨0, 0, 0, 0, 0⟩
  | outfit => .outfit ⟨0, 0, 0, 0, 0, 0, 0, 0, 0, 0, 0, 0, 0⟩
  | light => .light ⟨0, 0, 0, 0⟩
  | regeneration => .regeneration ⟨1000, 0, 1000, 0⟩
  | soul => .soul ⟨0, 0⟩
  | attributes => .attributes ⟨.replicate 16 0, .replicate 5 0, .replicate 3 0, .replicate 14 0,
      .replicate 14 0, 0, false, 0, 0, 0⟩
  | manaShield => .manaShield 0
  | plain => .plain

/-- `Condition`, with the data of its class. -/
structure Condition where
  conditionType : ConditionType
  id : Int8
  ticks : Int32
  isBuff : Bool
  subId : UInt32
  tickSound : UInt16
  addSound : UInt16
  effect : Effect
  deriving DecidableEq, Repr

/-- `Condition::isPersistent`: `CONDITIONID_DEFAULT` and `CONDITIONID_COMBAT` are -1 and 0. -/
def Condition.isPersistent (c : Condition) : Prop :=
  c.ticks ≠ -1 ∧ (c.id = -1 ∨ c.id = 0)

instance (c : Condition) : Decidable c.isPersistent :=
  inferInstanceAs (Decidable (_ ∧ _))

/-- A persistent condition of a class that `createCondition` builds for its type. -/
structure Condition.Saved (c : Condition) : Prop where
  fits : c.conditionType.kind = some c.effect.kind
  persistent : c.isPersistent

/-! ## Writing -/

/-- The bytes of a flag. -/
def flagByte (b : Bool) : List UInt8 :=
  Codec.uint8.encode (if b then 1 else 0)

/-- The bytes of an `IntervalInfo`. -/
def intervalCodec : Codec IntervalInfo :=
  (Codec.int32.pair (Codec.int32.pair Codec.int32)).map
    ⟨fun p => ⟨p.1, p.2.1, p.2.2⟩, fun d => (d.timeLeft, d.value, d.interval), fun _ => rfl,
      fun _ => rfl⟩

/-- The bytes of an `Outfit_t`: a byte of padding stands before the last field. -/
def outfitCodec : Codec Outfit :=
  (Codec.uint16.pair <| Codec.uint16.pair <| Codec.uint16.pair <| Codec.uint8.pair <|
    Codec.uint8.pair <| Codec.uint8.pair <| Codec.uint8.pair <| Codec.uint8.pair <|
    Codec.uint8.pair <| Codec.uint8.pair <| Codec.uint8.pair <| Codec.uint8.pair <|
    Codec.padding.pair Codec.uint16).map
    ⟨fun ⟨a, b, c, d, e, f, g, h, i, j, k, l, _, m⟩ => ⟨a, b, c, d, e, f, g, h, i, j, k, l, m⟩,
      fun ⟨a, b, c, d, e, f, g, h, i, j, k, l, m⟩ => (a, b, c, d, e, f, g, h, i, j, k, l, (), m),
      fun _ => rfl, fun _ => rfl⟩

/-- The entries of an array with their indices. -/
def entries : ℕ → List Int32 → List UInt8
  | _, [] => []
  | i, value :: values =>
    Codec.uint8.encode (UInt8.ofNat i) ++ (Codec.int32.encode value ++ entries (i + 1) values)

/-- A tag and the bytes of its value. -/
def writeAttr (p : ConditionAttr × List UInt8) : List UInt8 :=
  p.1.toByte :: p.2

/-- `Condition::serialize`: the fields that `createCondition` reads. -/
def Condition.header (c : Condition) : List (ConditionAttr × List UInt8) :=
  [(.type, Codec.int8.encode c.conditionType.value.toInt8),
    (.id, Codec.uint32.encode c.id.toInt32.toUInt32),
    (.ticks, Codec.uint32.encode c.ticks.toUInt32),
    (.isBuff, flagByte c.isBuff),
    (.subId, Codec.uint32.encode c.subId)]

/-- `Condition::serialize`: the sounds. -/
def Condition.sounds (c : Condition) : List (ConditionAttr × List UInt8) :=
  [(.tickSound, Codec.uint16.encode c.tickSound), (.addSound, Codec.uint16.encode c.addSound)]

/-- `ConditionDamage::serialize`, after `Condition::serialize`. -/
def ConditionDamage.serialize (d : ConditionDamage) : List (ConditionAttr × List UInt8) :=
  [(.delayed, flagByte d.delayed), (.periodDamage, Codec.int32.encode d.periodDamage)] ++
    d.damageList.map fun intervalInfo => (.intervalData, intervalCodec.encode intervalInfo)

/-- `ConditionSpeed::serialize`, after `Condition::serialize`. -/
def ConditionSpeed.serialize (d : ConditionSpeed) : List (ConditionAttr × List UInt8) :=
  [(.speedDelta, Codec.int32.encode d.speedDelta), (.formulaMinA, Codec.uint32.encode d.mina),
    (.formulaMinB, Codec.uint32.encode d.minb), (.formulaMaxA, Codec.uint32.encode d.maxa),
    (.formulaMaxB, Codec.uint32.encode d.maxb)]

/-- `ConditionLight::serialize`, after `Condition::serialize`. -/
def ConditionLight.serialize (d : ConditionLight) : List (ConditionAttr × List UInt8) :=
  [(.lightColor, Codec.uint32.encode d.color.toUInt32),
    (.lightLevel, Codec.uint32.encode d.level.toUInt32),
    (.lightTicks, Codec.uint32.encode d.internalLightTicks),
    (.lightInterval, Codec.uint32.encode d.lightChangeInterval)]

/-- `ConditionRegeneration::serialize`, after `Condition::serialize`. -/
def ConditionRegeneration.serialize (d : ConditionRegeneration) :
    List (ConditionAttr × List UInt8) :=
  [(.healthTicks, Codec.uint32.encode d.healthTicks), (.healthGain, Codec.uint32.encode d.healthGain),
    (.manaTicks, Codec.uint32.encode d.manaTicks), (.manaGain, Codec.uint32.encode d.manaGain)]

/-- `ConditionSoul::serialize`, after `Condition::serialize`. -/
def ConditionSoul.serialize (d : ConditionSoul) : List (ConditionAttr × List UInt8) :=
  [(.soulGain, Codec.uint32.encode d.soulGain), (.soulTicks, Codec.uint32.encode d.soulTicks)]

/-- `ConditionAttributes::serialize`, after `Condition::serialize`. -/
def ConditionAttributes.serialize (d : ConditionAttributes) : List (ConditionAttr × List UInt8) :=
  d.skills.toList.map (fun value => (.skills, Codec.int32.encode value)) ++
    (d.stats.toList.map (fun value => (.stats, Codec.int32.encode value)) ++
      (d.buffs.toList.map (fun value => (.buffs, Codec.int32.encode value)) ++
        [(.absorbs, entries 0 d.absorbs.toList), (.increases, entries 0 d.increases.toList),
          (.charmChanceModifier, Codec.int8.encode d.charmChanceModifier)]))

/-- What the class of a condition writes after `Condition::serialize`. -/
def Effect.serialize : Effect → List (ConditionAttr × List UInt8)
  | damage d => d.serialize
  | speed d => d.serialize
  | outfit d => [(.outfit, outfitCodec.encode d)]
  | light d => d.serialize
  | regeneration d => d.serialize
  | soul d => d.serialize
  | attributes d => d.serialize
  | manaShield d => [(.manaShield, Codec.uint16.encode d)]
  | plain => []

/-- `serialize` of the class of a condition. -/
def Condition.serialize (c : Condition) : List UInt8 :=
  (c.header ++ (c.sounds ++ c.effect.serialize)).flatMap writeAttr

/-- The persistent conditions of a player, each followed by `CONDITIONATTR_END`. -/
def saveConditions (conditions : List Condition) : List UInt8 :=
  (conditions.filter fun c => c.isPersistent).flatMap fun c =>
    c.serialize ++ [ConditionAttr.endOfCondition.toByte]

/-! ## Reading -/

/-- Takes a value from the stream: `set` stores it, and `failed` is the condition if bytes are
missing. -/
def readInto {α : Type} (C : Codec α) (set : α → Condition) (failed : Condition) (s : List UInt8) :
    Bool × Condition × List UInt8 :=
  match C.read s with
  | some (a, rest) => (true, set a, rest)
  | none => (false, failed, s)

@[simp]
theorem readInto_encode {α : Type} (C : Codec α) (set : α → Condition) (failed : Condition) (a : α)
    (rest : List UInt8) : readInto C set failed (C.encode a ++ rest) = (true, set a, rest) := by
  rw [readInto, C.read_encode]

/-- `Condition::unserializeProp`. -/
def Condition.basicProp (attr : ConditionAttr) (c : Condition) (s : List UInt8) :
    Bool × Condition × List UInt8 :=
  match attr with
  | .type =>
    readInto .int32 (fun value => { c with conditionType := ⟨value.toUInt32.toUInt8⟩ }) c s
  | .id => readInto .int32 (fun value => { c with id := value.toInt8 }) c s
  | .ticks => readInto .int32 (fun value => { c with ticks := value }) c s
  | .isBuff => readInto .uint8 (fun value => { c with isBuff := value ≠ 0 }) c s
  | .subId => readInto .uint32 (fun value => { c with subId := value }) c s
  | .tickSound => readInto .uint16 (fun value => { c with tickSound := value }) c s
  | .addSound => readInto .uint16 (fun value => { c with addSound := value }) c s
  | .endOfCondition => (true, c, s)
  | _ => (false, c, s)

/-- `ConditionDamage::unserializeProp`. -/
def ConditionDamage.unserializeProp (d : ConditionDamage) (attr : ConditionAttr) (c : Condition)
    (s : List UInt8) : Bool × Condition × List UInt8 :=
  match attr with
  | .delayed =>
    readInto .uint8 (fun value => { c with effect := .damage { d with delayed := value ≠ 0 } }) c s
  | .periodDamage =>
    readInto .int32 (fun value => { c with effect := .damage { d with periodDamage := value } }) c s
  | .owner => readInto .uint32 (fun _ => c) c s
  | .intervalData =>
    readInto intervalCodec (fun damageInfo =>
      -- A saved interval is added to the ticks the condition has, as `addDamage` does.
      { c with
        ticks := if c.ticks ≠ -1 then c.ticks + damageInfo.interval else c.ticks
        effect := .damage { d with damageList := d.damageList ++ [damageInfo] } }) c s
  | _ => c.basicProp attr s

/-- `ConditionSpeed::unserializeProp`. -/
def ConditionSpeed.unserializeProp (d : ConditionSpeed) (attr : ConditionAttr) (c : Condition)
    (s : List UInt8) : Bool × Condition × List UInt8 :=
  match attr with
  | .speedDelta =>
    readInto .int32 (fun value => { c with effect := .speed { d with speedDelta := value } }) c s
  | .formulaMinA =>
    readInto .uint32 (fun value => { c with effect := .speed { d with mina := value } }) c s
  | .formulaMinB =>
    readInto .uint32 (fun value => { c with effect := .speed { d with minb := value } }) c s
  | .formulaMaxA =>
    readInto .uint32 (fun value => { c with effect := .speed { d with maxa := value } }) c s
  | .formulaMaxB =>
    readInto .uint32 (fun value => { c with effect := .speed { d with maxb := value } }) c s
  | _ => c.basicProp attr s

/-- `ConditionOutfit::unserializeProp`. -/
def Outfit.unserializeProp (attr : ConditionAttr) (c : Condition) (s : List UInt8) :
    Bool × Condition × List UInt8 :=
  match attr with
  | .outfit => readInto outfitCodec (fun value => { c with effect := .outfit value }) c s
  | _ => c.basicProp attr s

/-- `ConditionLight::unserializeProp`. -/
def ConditionLight.unserializeProp (d : ConditionLight) (attr : ConditionAttr) (c : Condition)
    (s : List UInt8) : Bool × Condition × List UInt8 :=
  match attr with
  | .lightColor =>
    readInto .uint32 (fun value => { c with effect := .light { d with color := value.toUInt8 } }) c s
  | .lightLevel =>
    readInto .uint32 (fun value => { c with effect := .light { d with level := value.toUInt8 } }) c s
  | .lightTicks =>
    readInto .uint32 (fun value => { c with effect := .light { d with internalLightTicks := value } })
      c s
  | .lightInterval =>
    readInto .uint32 (fun value => { c with effect := .light { d with lightChangeInterval := value } })
      c s
  | _ => c.basicProp attr s

/-- `ConditionRegeneration::unserializeProp`. -/
def ConditionRegeneration.unserializeProp (d : ConditionRegeneration) (attr : ConditionAttr)
    (c : Condition) (s : List UInt8) : Bool × Condition × List UInt8 :=
  match attr with
  | .healthTicks =>
    readInto .uint32 (fun value => { c with effect := .regeneration { d with healthTicks := value } })
      c s
  | .healthGain =>
    readInto .uint32 (fun value => { c with effect := .regeneration { d with healthGain := value } })
      c s
  | .manaTicks =>
    readInto .uint32 (fun value => { c with effect := .regeneration { d with manaTicks := value } })
      c s
  | .manaGain =>
    readInto .uint32 (fun value => { c with effect := .regeneration { d with manaGain := value } })
      c s
  | _ => c.basicProp attr s

/-- `ConditionSoul::unserializeProp`. -/
def ConditionSoul.unserializeProp (d : ConditionSoul) (attr : ConditionAttr) (c : Condition)
    (s : List UInt8) : Bool × Condition × List UInt8 :=
  match attr with
  | .soulGain =>
    readInto .uint32 (fun value => { c with effect := .soul { d with soulGain := value } }) c s
  | .soulTicks =>
    readInto .uint32 (fun value => { c with effect := .soul { d with soulTicks := value } }) c s
  | _ => c.basicProp attr s

/-- The entries of an array: an index outside it is reported and left out (`setAbsorb`,
`setIncrease`). -/
def readEntries : ℕ → Vector Int32 14 → List UInt8 → Bool × Vector Int32 14 × List UInt8
  | 0, values, s => (true, values, s)
  | n + 1, values, s =>
    match Codec.uint8.read s with
    | none => (false, values, s)
    | some (index, s) =>
      match Codec.int32.read s with
      | none => (false, values, s)
      | some (value, s) => readEntries n (values.setIfInBounds index.toNat value) s

/-- `ConditionAttributes::unserializeProp`. A counter moves also when its value is missing; a value
after the last of an array has no place there. -/
def ConditionAttributes.unserializeProp (d : ConditionAttributes) (attr : ConditionAttr)
    (c : Condition) (s : List UInt8) : Bool × Condition × List UInt8 :=
  match attr with
  | .skills =>
    readInto .int32
      (fun value => { c with effect := .attributes { d with
        skills := d.skills.setIfInBounds d.currentSkill value, currentSkill := d.currentSkill + 1 } })
      { c with effect := .attributes { d with currentSkill := d.currentSkill + 1 } } s
  | .stats =>
    readInto .int32
      (fun value => { c with effect := .attributes { d with
        stats := d.stats.setIfInBounds d.currentStat value, currentStat := d.currentStat + 1 } })
      { c with effect := .attributes { d with currentStat := d.currentStat + 1 } } s
  | .buffs =>
    readInto .int32
      (fun value => { c with effect := .attributes { d with
        buffs := d.buffs.setIfInBounds d.currentBuff value, currentBuff := d.currentBuff + 1 } })
      { c with effect := .attributes { d with currentBuff := d.currentBuff + 1 } } s
  | .absorbs =>
    let (success, absorbs, rest) := readEntries 14 d.absorbs s
    (success, { c with effect := .attributes { d with absorbs := absorbs } }, rest)
  | .increases =>
    let (success, increases, rest) := readEntries 14 d.increases s
    (success, { c with effect := .attributes { d with increases := increases } }, rest)
  | .charmChanceModifier =>
    readInto .int8
      (fun value => { c with effect := .attributes { d with charmChanceModifier := value } }) c s
  | _ => c.basicProp attr s

/-- `ConditionManaShield::unserializeProp`. -/
def manaShieldProp (attr : ConditionAttr) (c : Condition) (s : List UInt8) :
    Bool × Condition × List UInt8 :=
  match attr with
  | .manaShield => readInto .uint16 (fun value => { c with effect := .manaShield value }) c s
  | _ => c.basicProp attr s

/-- `unserializeProp` of the class of a condition. -/
def Condition.unserializeProp (attr : ConditionAttr) (c : Condition) (s : List UInt8) :
    Bool × Condition × List UInt8 :=
  match c.effect with
  | .damage d => d.unserializeProp attr c s
  | .speed d => d.unserializeProp attr c s
  | .outfit _ => Outfit.unserializeProp attr c s
  | .light d => d.unserializeProp attr c s
  | .regeneration d => d.unserializeProp attr c s
  | .soul d => d.unserializeProp attr c s
  | .attributes d => d.unserializeProp attr c s
  | .manaShield _ => manaShieldProp attr c s
  | .plain => c.basicProp attr s

/-- `Condition::unserialize`. Every tag takes a byte, so that as much fuel as there are bytes and
one more is enough. -/
def Condition.unserialize : ℕ → Condition → List UInt8 → Bool × Condition × List UInt8
  | 0, c, s => (false, c, s)
  | _ + 1, c, [] => (true, c, [])
  | fuel + 1, c, byte :: s =>
    if byte = ConditionAttr.endOfCondition.toByte then (true, c, s)
    else
      match ConditionAttr.ofByte? byte with
      | none => (false, c, s)
      | some attr =>
        match c.unserializeProp attr s with
        | (true, c', rest) => unserialize fuel c' rest
        | (false, c', rest) => (false, c', rest)

/-- The next byte has to be the one of a tag. -/
def expect (attr : ConditionAttr) : List UInt8 → Option (List UInt8)
  | [] => none
  | byte :: s => if byte = attr.toByte then some s else none

/-- `Condition::createCondition` of a type: a `ConditionDamage` is not given the ticks. -/
def build (id : Int8) (type : ConditionType) (ticks : Int32) (buff : Bool) (subId : UInt32) :
    Option Condition :=
  type.kind.map fun kind =>
    { conditionType := type, id := id, ticks := if kind = .damage then 0 else ticks, isBuff := buff
      subId := subId, tickSound := 0, addSound := 0, effect := kind.initial }

/-- `Condition::createCondition` from a stream. -/
def createCondition (s : List UInt8) : Option (Condition × List UInt8) := do
  let s ← expect .type s
  let (type, s) ← Codec.int8.read s
  let s ← expect .id s
  let (id, s) ← Codec.uint32.read s
  let s ← expect .ticks s
  let (ticks, s) ← Codec.uint32.read s
  let s ← expect .isBuff s
  let (buff, s) ← Codec.uint8.read s
  let s ← expect .subId s
  let (subId, s) ← Codec.uint32.read s
  let c ← build id.toUInt8.toInt8 ⟨type.toUInt8⟩ ticks.toInt32 (buff ≠ 0) subId
  return (c, s)

/-- `createCondition`, and `unserialize` of what it built. -/
def readCondition (s : List UInt8) : Option (Bool × Condition × List UInt8) :=
  (createCondition s).map fun p => p.1.unserialize (p.2.length + 1) p.2

/-- The conditions in a stream, up to where none is built; one that cannot be read is left out. -/
def readConditions : ℕ → List UInt8 → List Condition
  | 0, _ => []
  | fuel + 1, s =>
    match readCondition s with
    | none => []
    | some (true, c, rest) => c :: readConditions fuel rest
    | some (false, _, rest) => readConditions fuel rest

end TiabloServer.Conditions
