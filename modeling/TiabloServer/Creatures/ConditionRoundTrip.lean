import TiabloServer.Creatures.Conditions

/-!
# Saving and loading conditions

What is read back of the persistent conditions that were saved. The stream is read to its last byte,
and the conditions come back in their order; but the ticks of a `ConditionDamage` are the sum of its
intervals, whatever they were, and `disableDefense` is not written.

## Main definitions

* `Conditions.RoundTrips` — a list of conditions comes back as it was.
* `Conditions.Condition.Survives` — nothing of a condition is lost.

## Main results

* `Conditions.readCondition_serialize` — a condition is read back, and the rest of the stream is
  left.
* `Conditions.readConditions_saveConditions` — so is a list of conditions.
* `Conditions.conditions_return_iff` — a list comes back as it was if and only if every condition
  survives.
-/

namespace TiabloServer.Conditions

/-! ## Tags one after the other -/

theorem ConditionAttr.toByte_injective : Function.Injective ConditionAttr.toByte := by
  intro attr attr' h
  have hsome : some attr = some attr' := by rw [← ofByte?_toByte, h, ofByte?_toByte]
  exact Option.some.inj hsome

/-- Tags with values change a condition one after the other. -/
inductive Fills : Condition → List (ConditionAttr × List UInt8) → Condition → Prop
  | nil (c : Condition) : Fills c [] c
  | cons {c c' c'' : Condition} {attr : ConditionAttr} {bytes : List UInt8}
      {ps : List (ConditionAttr × List UInt8)} (hattr : attr ≠ .endOfCondition)
      (hread : ∀ rest, c.unserializeProp attr (bytes ++ rest) = (true, c', rest))
      (h : Fills c' ps c'') : Fills c ((attr, bytes) :: ps) c''

namespace Fills

variable {c c' c'' : Condition} {ps qs : List (ConditionAttr × List UInt8)}

theorem append (h : Fills c ps c') (h' : Fills c' qs c'') : Fills c (ps ++ qs) c'' := by
  induction h with
  | nil => exact h'
  | cons hattr hread _ ih => exact .cons hattr hread (ih h')

/-- A tag whose value is stored. -/
theorem read {α : Type} {C : Codec α} {attr : ConditionAttr} {set : α → Condition}
    {failed : Condition} {a : α} (h : ∀ s, c.unserializeProp attr s = readInto C set failed s)
    (hattr : attr ≠ .endOfCondition) (hrest : Fills (set a) ps c'') : Fills c ((attr, C.encode a) :: ps) c'' :=
  .cons hattr (fun rest => by rw [h, readInto_encode]) hrest

/-- Values under one tag, each of which changes a part of a condition. -/
theorem map {α σ : Type} (C : Codec α) (attr : ConditionAttr) (embed : σ → Condition)
    (f : σ → α → σ) {failed : σ → Condition} (hattr : attr ≠ .endOfCondition)
    (h : ∀ x s, (embed x).unserializeProp attr s = readInto C (fun a => embed (f x a)) (failed x) s)
    (l : List α) (x : σ) : Fills (embed x) (l.map fun a => (attr, C.encode a)) (embed (l.foldl f x)) := by
  induction l generalizing x with
  | nil => exact .nil _
  | cons a l ih => exact .read (h x) hattr (ih (f x a))

/-- The loop takes what was written up to the end of the condition. -/
theorem unserialize (h : Fills c ps c') (rest : List UInt8) {fuel : ℕ} (hfuel : ps.length < fuel) :
    c.unserialize fuel (ps.flatMap writeAttr ++ ConditionAttr.endOfCondition.toByte :: rest) =
      (true, c', rest) := by
  induction h generalizing fuel with
  | nil c =>
    obtain ⟨fuel, rfl⟩ : ∃ n, fuel = n + 1 := ⟨fuel - 1, by simp at hfuel; omega⟩
    rw [List.flatMap_nil, List.nil_append, Condition.unserialize, if_pos rfl]
  | @cons c c' c'' attr bytes ps hattr hread h ih =>
    rw [List.length_cons] at hfuel
    obtain ⟨fuel, rfl⟩ : ∃ n, fuel = n + 1 := ⟨fuel - 1, by omega⟩
    have hne : attr.toByte ≠ ConditionAttr.endOfCondition.toByte := by
      intro heq
      exact hattr (ConditionAttr.toByte_injective heq)
    rw [List.flatMap_cons, List.append_assoc]
    show Condition.unserialize (fuel + 1) c (attr.toByte :: (bytes ++ _)) = _
    rw [Condition.unserialize, if_neg hne, ConditionAttr.ofByte?_toByte]
    simp only [hread]
    exact ih (by omega)

end Fills

/-- Every tag is a byte of what is written. -/
theorem length_le_flatMap_writeAttr (ps : List (ConditionAttr × List UInt8)) :
    ps.length ≤ (ps.flatMap writeAttr).length := by
  induction ps with
  | nil => simp
  | cons p ps ih =>
    rw [List.flatMap_cons, List.length_append, List.length_cons, writeAttr, List.length_cons]
    omega

/-! ## Arrays -/

section Arrays

variable {n : ℕ}

/-- A value for the next place of an array. -/
def setNext (p : Vector Int32 n × ℕ) (value : Int32) : Vector Int32 n × ℕ :=
  (p.1.setIfInBounds p.2 value, p.2 + 1)

theorem foldl_setNext_snd (l : List Int32) (p : Vector Int32 n × ℕ) : (l.foldl setNext p).2 = p.2 + l.length := by
  induction l generalizing p with
  | nil => rfl
  | cons x l ih => rw [List.foldl_cons, ih, setNext, List.length_cons]; omega

/-- Values from a place on are in their places, and the others stay. -/
theorem foldl_setNext_getElem (l : List Int32) (p : Vector Int32 n × ℕ) {i : ℕ} (hi : i < n) :
    (l.foldl setNext p).1[i] =
      if h : p.2 ≤ i ∧ i - p.2 < l.length then l[i - p.2] else p.1[i] := by
  induction l generalizing p with
  | nil => simp
  | cons x l ih =>
    rw [List.foldl_cons, ih]
    simp only [setNext, List.length_cons, Vector.getElem_setIfInBounds]
    by_cases heq : p.2 = i
    · subst heq
      simp
    · by_cases hlt : p.2 < i
      · have hsub : i - p.2 = (i - (p.2 + 1)) + 1 := by omega
        by_cases hlen : i - (p.2 + 1) < l.length
        · rw [dif_pos ⟨by omega, hlen⟩, dif_pos ⟨by omega, by omega⟩]
          simp only [hsub, List.getElem_cons_succ]
        · rw [dif_neg (by omega), dif_neg (by omega), if_neg heq]
      · rw [dif_neg (by omega), dif_neg (by omega), if_neg heq]

/-- **All values of an array**, one after the other, are the array. -/
theorem foldl_setNext_toList (v w : Vector Int32 n) : w.toList.foldl setNext (v, 0) = (w, n) := by
  refine Prod.ext ?_ ?_
  · ext i hi
    rw [foldl_setNext_getElem _ _ hi, dif_pos ⟨Nat.zero_le i, by simpa using hi⟩]
    simp
  · rw [foldl_setNext_snd]
    simp

end Arrays

/-- The entries of an array are read into their places. -/
theorem readEntries_entries (l : List Int32) (p : Vector Int32 14 × ℕ) (rest : List UInt8)
    (hle : p.2 + l.length ≤ 256) :
    readEntries l.length p.1 (entries p.2 l ++ rest) = (true, (l.foldl setNext p).1, rest) := by
  induction l generalizing p with
  | nil => rfl
  | cons x l ih =>
    rw [List.length_cons] at hle ⊢
    have hindex : (UInt8.ofNat p.2).toNat = p.2 := by
      rw [UInt8.toNat_ofNat']
      omega
    rw [entries, List.append_assoc, List.append_assoc, readEntries, Codec.read_encode]
    simp only [Codec.read_encode, hindex]
    exact ih (setNext p x) (by simp only [setNext]; omega)

theorem readEntries_toList (v w : Vector Int32 14) (rest : List UInt8) :
    readEntries 14 v (entries 0 w.toList ++ rest) = (true, w, rest) := by
  have hread := readEntries_entries w.toList (v, 0) rest (by simp)
  rw [foldl_setNext_toList, Vector.length_toList] at hread
  exact hread

/-! ## What comes back -/

/-- The ticks of a `ConditionDamage` that is read back. -/
def addInterval (ticks : Int32) (damageInfo : IntervalInfo) : Int32 :=
  if ticks ≠ -1 then ticks + damageInfo.interval else ticks

/-- The ticks that come back of a condition. -/
def Effect.restoredTicks (ticks : Int32) : Effect → Int32
  | damage d => d.damageList.foldl addInterval 0
  | _ => ticks

/-- What comes back of the data of a class. -/
def Effect.restored : Effect → Effect
  | attributes d => .attributes { d with
      disableDefense := false, currentSkill := 16, currentStat := 5, currentBuff := 3 }
  | effect => effect

/-- What comes back of a condition. -/
def Condition.restored (c : Condition) : Condition :=
  { c with ticks := c.effect.restoredTicks c.ticks, effect := c.effect.restored }

/-- What `createCondition` builds from the first fields of a condition. -/
def Condition.created (c : Condition) : Condition :=
  { c with
    ticks := if c.effect.kind = .damage then 0 else c.ticks
    tickSound := 0
    addSound := 0
    effect := c.effect.kind.initial }

/-- The first fields are read back. -/
theorem createCondition_header {c : Condition} (hsaved : c.Saved) (rest : List UInt8) :
    createCondition (c.header.flatMap writeAttr ++ rest) = some (c.created, rest) := by
  have hid : c.id.toInt32.toUInt32.toUInt8.toInt8 = c.id := by
    rcases hsaved.persistent.2 with hid | hid <;> rw [hid] <;> decide
  have hbuff : (decide ((if c.isBuff then (1 : UInt8) else 0) ≠ 0)) = c.isBuff := by
    cases c.isBuff <;> decide
  have hbuild : build c.id.toInt32.toUInt32.toUInt8.toInt8 c.conditionType c.ticks
      (decide ((if c.isBuff then (1 : UInt8) else 0) ≠ 0)) c.subId = some c.created := by
    rw [hid, hbuff, build, hsaved.fits]
    rfl
  simp only [Condition.header, List.flatMap_cons, List.flatMap_nil, writeAttr, flagByte,
    List.append_nil, List.cons_append, List.append_assoc, createCondition, expect, if_true,
    Option.bind_eq_bind, Option.bind_some, Codec.read_encode]
  exact congrArg (fun o : Option Condition => o.bind fun c => some (c, rest)) hbuild

/-- The sounds are read back. -/
theorem fills_sounds (c : Condition) (tickSound addSound : UInt16) :
    Fills c [(.tickSound, Codec.uint16.encode tickSound), (.addSound, Codec.uint16.encode addSound)]
      { c with tickSound := tickSound, addSound := addSound } := by
  obtain ⟨type, id, ticks, isBuff, subId, tickSound', addSound', effect⟩ := c
  cases effect <;>
    exact .read (fun _ => rfl) (by decide) (.read (fun _ => rfl) (by decide) (.nil _))

section Classes

variable (c : Condition)

/-- An interval is added to the ticks and to the list of a `ConditionDamage`. -/
def addDamage (p : Int32 × List IntervalInfo) (damageInfo : IntervalInfo) :
    Int32 × List IntervalInfo :=
  (addInterval p.1 damageInfo, p.2 ++ [damageInfo])

theorem foldl_addDamage (l : List IntervalInfo) (p : Int32 × List IntervalInfo) :
    l.foldl addDamage p = (l.foldl addInterval p.1, p.2 ++ l) := by
  induction l generalizing p with
  | nil => simp
  | cons info l ih => simp [ih, addDamage]

/-- The data of a `ConditionDamage` is read back, and its intervals are added to the ticks. -/
theorem fills_damage (d : ConditionDamage) :
    Fills { c with effect := Kind.damage.initial } d.serialize
      { c with ticks := d.damageList.foldl addInterval c.ticks, effect := .damage d } := by
  have hdelayed : (decide ((if d.delayed then (1 : UInt8) else 0) ≠ 0)) = d.delayed := by
    cases d.delayed <;> decide
  have hintervals := Fills.map intervalCodec .intervalData
    (fun p => { c with ticks := p.1, effect := .damage ⟨d.delayed, d.periodDamage, p.2⟩ }) addDamage
    (by decide) (fun _ _ => rfl) d.damageList (c.ticks, [])
  rw [foldl_addDamage, List.nil_append] at hintervals
  refine .read (fun _ => rfl) (by decide) (.read (fun _ => rfl) (by decide) ?_)
  rw [hdelayed]
  exact hintervals

theorem fills_speed (d : ConditionSpeed) :
    Fills { c with effect := Kind.speed.initial } d.serialize { c with effect := .speed d } :=
  .read (fun _ => rfl) (by decide) <| .read (fun _ => rfl) (by decide) <|
    .read (fun _ => rfl) (by decide) <| .read (fun _ => rfl) (by decide) <|
    .read (fun _ => rfl) (by decide) <| .nil _

theorem fills_outfit (d : Outfit) :
    Fills { c with effect := Kind.outfit.initial } [(.outfit, outfitCodec.encode d)]
      { c with effect := .outfit d } :=
  .read (fun _ => rfl) (by decide) <| .nil _

/-- The color and the level of a light are written as four bytes each. -/
theorem fills_light (d : ConditionLight) :
    Fills { c with effect := Kind.light.initial } d.serialize { c with effect := .light d } := by
  have hcolor : d.color.toUInt32.toUInt8 = d.color := UInt8.toUInt8_toUInt32 d.color
  have hlevel : d.level.toUInt32.toUInt8 = d.level := UInt8.toUInt8_toUInt32 d.level
  refine .read (fun _ => rfl) (by decide) <| .read (fun _ => rfl) (by decide) <|
    .read (fun _ => rfl) (by decide) <| .read (fun _ => rfl) (by decide) ?_
  rw [hcolor, hlevel]
  exact .nil _

theorem fills_regeneration (d : ConditionRegeneration) :
    Fills { c with effect := Kind.regeneration.initial } d.serialize
      { c with effect := .regeneration d } :=
  .read (fun _ => rfl) (by decide) <| .read (fun _ => rfl) (by decide) <|
    .read (fun _ => rfl) (by decide) <| .read (fun _ => rfl) (by decide) <| .nil _

theorem fills_soul (d : ConditionSoul) :
    Fills { c with effect := Kind.soul.initial } d.serialize { c with effect := .soul d } :=
  .read (fun _ => rfl) (by decide) <| .read (fun _ => rfl) (by decide) <| .nil _

theorem fills_manaShield (d : UInt16) :
    Fills { c with effect := Kind.manaShield.initial } [(.manaShield, Codec.uint16.encode d)]
      { c with effect := .manaShield d } :=
  .read (fun _ => rfl) (by decide) <| .nil _

theorem unserializeProp_absorbs (d : ConditionAttributes) (values : Vector Int32 14)
    (rest : List UInt8) :
    Condition.unserializeProp .absorbs { c with effect := .attributes d }
        (entries 0 values.toList ++ rest) =
      (true, { c with effect := .attributes { d with absorbs := values } }, rest) := by
  simp only [Condition.unserializeProp, ConditionAttributes.unserializeProp, readEntries_toList]

theorem unserializeProp_increases (d : ConditionAttributes) (values : Vector Int32 14)
    (rest : List UInt8) :
    Condition.unserializeProp .increases { c with effect := .attributes d }
        (entries 0 values.toList ++ rest) =
      (true, { c with effect := .attributes { d with increases := values } }, rest) := by
  simp only [Condition.unserializeProp, ConditionAttributes.unserializeProp, readEntries_toList]

/-- The data of a `ConditionAttributes` is read back into the places of its arrays, but the flag of
the defence is not written. -/
theorem fills_attributes (d : ConditionAttributes) :
    Fills { c with effect := Kind.attributes.initial } d.serialize
      { c with effect := (Effect.attributes d).restored } := by
  let empty : ConditionAttributes := ⟨.replicate 16 0, .replicate 5 0, .replicate 3 0,
    .replicate 14 0, .replicate 14 0, 0, false, 0, 0, 0⟩
  have hskills := Fills.map .int32 .skills
    (fun p => { c with effect := .attributes { empty with skills := p.1, currentSkill := p.2 } })
    setNext (by decide) (fun _ _ => rfl) d.skills.toList (empty.skills, 0)
  have hstats := Fills.map .int32 .stats
    (fun p => { c with effect := .attributes { empty with
      skills := d.skills, currentSkill := 16, stats := p.1, currentStat := p.2 } })
    setNext (by decide) (fun _ _ => rfl) d.stats.toList (empty.stats, 0)
  have hbuffs := Fills.map .int32 .buffs
    (fun p => { c with effect := .attributes { empty with
      skills := d.skills, currentSkill := 16, stats := d.stats, currentStat := 5
      buffs := p.1, currentBuff := p.2 } })
    setNext (by decide) (fun _ _ => rfl) d.buffs.toList (empty.buffs, 0)
  rw [foldl_setNext_toList] at hskills hstats hbuffs
  refine hskills.append (hstats.append (hbuffs.append ?_))
  exact .cons (by decide) (unserializeProp_absorbs c _ d.absorbs) <|
    .cons (by decide) (unserializeProp_increases c _ d.increases) <|
    .read (fun _ => rfl) (by decide) <| .nil _

/-- The data of the class is read back. -/
theorem fills_effect (effect : Effect) :
    Fills { c with ticks := if effect.kind = .damage then 0 else c.ticks
                   effect := effect.kind.initial }
      effect.serialize
      { c with ticks := effect.restoredTicks c.ticks, effect := effect.restored } := by
  cases effect with
  | damage d => exact fills_damage { c with ticks := 0 } d
  | speed d => exact fills_speed c d
  | outfit d => exact fills_outfit c d
  | light d => exact fills_light c d
  | regeneration d => exact fills_regeneration c d
  | soul d => exact fills_soul c d
  | attributes d => exact fills_attributes c d
  | manaShield d => exact fills_manaShield c d
  | plain => exact .nil _

end Classes

/-! ## The round trip -/

/-- **A condition is read back** with all that was written of it, and the rest of the stream is
left. -/
theorem readCondition_serialize {c : Condition} (hsaved : c.Saved) (rest : List UInt8) :
    readCondition (c.serialize ++ ConditionAttr.endOfCondition.toByte :: rest) = some (true, c.restored, rest) := by
  have hfills : Fills c.created (c.sounds ++ c.effect.serialize) c.restored :=
    (fills_sounds c.created c.tickSound c.addSound).append (fills_effect c c.effect)
  have hlength := length_le_flatMap_writeAttr (c.sounds ++ c.effect.serialize)
  rw [Condition.serialize, List.flatMap_append, List.append_assoc, readCondition,
    createCondition_header hsaved, Option.map_some]
  refine congrArg some (hfills.unserialize rest ?_)
  exact Nat.lt_succ_of_le (hlength.trans (by rw [List.length_append]; omega))

/-- What is saved of persistent conditions is what each writes, in their order. -/
theorem saveConditions_cons {c : Condition} (hsaved : c.Saved) (l : List Condition) : saveConditions (c :: l) =
      c.serialize ++ ConditionAttr.endOfCondition.toByte :: saveConditions l := by
  rw [saveConditions, List.filter_cons_of_pos (by simpa using hsaved.persistent), List.flatMap_cons,
    List.append_assoc]
  rfl

/-- **A list of persistent conditions is read back** in its order. -/
theorem readConditions_saveConditions {l : List Condition} (hsaved : ∀ c ∈ l, c.Saved) {fuel : ℕ}
    (hfuel : (saveConditions l).length ≤ fuel) :
    readConditions fuel (saveConditions l) = l.map Condition.restored := by
  induction l generalizing fuel with
  | nil =>
    cases fuel with
    | zero => rfl
    | succ fuel => rfl
  | cons c l ih =>
    have hc := hsaved c List.mem_cons_self
    rw [saveConditions_cons hc] at hfuel ⊢
    obtain ⟨fuel, rfl⟩ : ∃ n, fuel = n + 1 := ⟨fuel - 1, by simp at hfuel; omega⟩
    rw [readConditions, readCondition_serialize hc]
    refine congrArg _ (ih (fun c' hmem => hsaved c' (List.mem_cons_of_mem c hmem)) ?_)
    rw [List.length_append, List.length_cons] at hfuel
    omega

/-- The data of a `ConditionAttributes`, without the counters. -/
def ConditionAttributes.data (d : ConditionAttributes) :=
  (d.skills, d.stats, d.buffs, d.absorbs, d.increases, d.charmChanceModifier, d.disableDefense)

/-- Two conditions have the same data of their class. -/
def Effect.Same : Effect → Effect → Prop
  | attributes d, attributes d' => d.data = d'.data
  | effect, effect' => effect = effect'

/-- Two conditions have the same fields and the same data. -/
structure Condition.Same (c c' : Condition) : Prop where
  conditionType : c'.conditionType = c.conditionType
  id : c'.id = c.id
  subId : c'.subId = c.subId
  isBuff : c'.isBuff = c.isBuff
  tickSound : c'.tickSound = c.tickSound
  addSound : c'.addSound = c.addSound
  ticks : c'.ticks = c.ticks
  effect : c.effect.Same c'.effect

/-- A list of conditions comes back as it was: each is read, no byte of it is left and none of what
follows is taken, and the list of what is read is the same. -/
def RoundTrips (l : List Condition) : Prop :=
  (∀ c ∈ l, ∀ rest, ∃ c',
    readCondition (c.serialize ++ ConditionAttr.endOfCondition.toByte :: rest) =
      some (true, c', rest)) ∧
    List.Forall₂ Condition.Same l (readConditions (saveConditions l).length (saveConditions l))

/-- Nothing of a condition is lost: the ticks of a `ConditionDamage` are the sum of its intervals
(which are no longer added once the sum is -1), and a `ConditionAttributes` leaves the defence
alone. -/
def Condition.Survives (c : Condition) : Prop :=
  match c.effect with
  | .damage d => c.ticks = d.damageList.foldl addInterval 0
  | .attributes d => d.disableDefense = false
  | _ => True

/-- What comes back of a condition is the same if and only if nothing of it is lost. -/
theorem same_restored_iff (c : Condition) : c.Same c.restored ↔ c.Survives := by
  obtain ⟨type, id, ticks, isBuff, subId, tickSound, addSound, effect⟩ := c
  constructor
  · intro h
    cases effect with
    | damage d => exact h.ticks.symm
    | attributes d =>
      have hdata := h.effect
      simp only [Condition.restored, Effect.restored, Effect.Same, ConditionAttributes.data,
        Prod.mk.injEq, true_and] at hdata
      exact hdata
    | _ => trivial
  · intro h
    cases effect with
    | damage d => exact ⟨rfl, rfl, rfl, rfl, rfl, rfl, Eq.symm h, rfl⟩
    | attributes d =>
      refine ⟨rfl, rfl, rfl, rfl, rfl, rfl, rfl, ?_⟩
      have hdefense : d.disableDefense = false := h
      simp only [Condition.restored, Effect.restored, Effect.Same, ConditionAttributes.data, hdefense]
    | _ => exact ⟨rfl, rfl, rfl, rfl, rfl, rfl, rfl, rfl⟩

/-- **Conditions come back as they were** if and only if nothing of any of them is lost. -/
theorem conditions_return_iff (l : List Condition) (hsaved : ∀ c ∈ l, c.Saved) :
    RoundTrips l ↔ ∀ c ∈ l, c.Survives := by
  rw [RoundTrips, readConditions_saveConditions hsaved le_rfl, List.forall₂_map_right_iff,
    List.forall₂_same]
  constructor
  · intro h c hc
    exact (same_restored_iff c).1 (h.2 c hc)
  · intro h
    refine ⟨fun c hc rest => ⟨c.restored, readCondition_serialize (hsaved c hc) rest⟩, ?_⟩
    intro c hc
    exact (same_restored_iff c).2 (h c hc)

/-! ## A burn and a rage -/

/-- A fire with two rounds to go, as it stands when the next round is due. -/
def burn : Condition where
  conditionType := .fire
  id := 0
  ticks := 4000
  isBuff := false
  subId := 0
  tickSound := 0
  addSound := 0
  effect := .damage ⟨false, 0, [⟨2000, -10, 2000⟩, ⟨2000, -10, 2000⟩]⟩

/-- A rage that raises a skill and disables the defence. -/
def rage : Condition where
  conditionType := .attributes
  id := 0
  ticks := 10000
  isBuff := true
  subId := 3
  tickSound := 0
  addSound := 0
  effect := .attributes ⟨.replicate 16 5, .replicate 5 0, .replicate 3 0, .replicate 14 0,
    .replicate 14 0, 0, true, 0, 0, 0⟩

theorem saved_burn : ∀ c ∈ [burn], c.Saved := by
  intro c hc
  rw [List.mem_singleton.1 hc]
  exact ⟨rfl, by decide⟩

theorem saved_rage : ∀ c ∈ [rage], c.Saved := by
  intro c hc
  rw [List.mem_singleton.1 hc]
  exact ⟨rfl, by decide⟩

/-- The fire comes back with the ticks of its two rounds. -/
theorem conditions_return_iff_burn : RoundTrips [burn] := by
  refine (conditions_return_iff [burn] saved_burn).2 ?_
  intro c hc
  rw [List.mem_singleton.1 hc]
  show (4000 : Int32) = _
  decide

/-- The rage comes back without its effect on the defence. -/
theorem not_roundTrips : ¬ ∀ l : List Condition, (∀ c ∈ l, c.Saved) → RoundTrips l := by
  intro hall
  have hsame := (hall [rage] saved_rage).2
  rw [readConditions_saveConditions saved_rage le_rfl, List.forall₂_map_right_iff,
    List.forall₂_same] at hsame
  have hdefense : true = false := (same_restored_iff rage).1 (hsame rage (List.mem_singleton_self _))
  cases hdefense

end TiabloServer.Conditions
