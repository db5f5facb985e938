import TiabloServer.Lib.Assoc
import TiabloServer.Lib.Runs

/-!
# Attribute conditions

A `ConditionAttributes` (`condition.cpp`) adds its bonuses to a creature when it starts, takes them
back when it ends, and does both when another one refreshes it. A bonus in percent becomes a number
when it is added.

## Main definitions

* `Bonuses.Balanced` — the bonuses of the creature are those of the active conditions.
* `Bonuses.TakesBack` — the steps that take back all that was added, and keep the defence disabled
  that is disabled.

## Main results

* `Bonuses.step_balanced` — such a step keeps the balance.
* `Bonuses.run_leaves_no_trace` — after a run of such steps nothing is left of the conditions.
-/

namespace TiabloServer.Bonuses

/-! ## Creatures and conditions -/

/-- A creature: what attribute conditions change. -/
structure Creature where
  player : Bool
  varSkills : Fin 16 → ℤ
  varStats : Fin 5 → ℤ
  varBuffs : Fin 3 → ℤ
  absorbPercent : Fin 14 → ℤ
  increasePercent : Fin 14 → ℤ
  charmChanceModifier : BitVec 8
  canUseDefense : Bool

structure ConditionAttributes where
  ticks : ℤ
  endTime : ℤ
  skills : Fin 16 → ℤ
  skillsPercent : Fin 16 → ℤ
  stats : Fin 5 → ℤ
  statsPercent : Fin 5 → ℤ
  buffs : Fin 3 → ℤ
  buffsPercent : Fin 3 → ℤ
  absorbs : Fin 14 → ℤ
  absorbsPercent : Fin 14 → ℤ
  increases : Fin 14 → ℤ
  increasesPercent : Fin 14 → ℤ
  charmChanceModifier : BitVec 8
  disableDefense : Bool

/-- What a percentage of a player is taken of. -/
structure Base where
  baseSkill : Fin 16 → ℤ
  maxHealth : ℤ
  maxMana : ℤ
  baseMagicLevel : ℤ
  capacity : ℤ

/-- The percentages, which the source computes in floating point and rounds. -/
structure Rounding where
  /-- `value * ((percent - 100) / 100.f)`. -/
  scale : ℤ → ℤ → ℤ
  /-- `value * (percent / 100.f)`. -/
  part : ℤ → ℤ → ℤ
  /-- `std::round((100 - current) * percent / 100.f)`. -/
  rest : ℤ → ℤ → ℤ

/-! ## The loops -/

section Loops

variable {n : ℕ}

/-- A loop over values that are set from a percentage where there is one. -/
def fromPercent (percent values : Fin n → ℤ) (value : Fin n → ℤ → ℤ) : Fin n → ℤ := fun i =>
  if percent i = 0 then values i else value i (percent i)

/-- A loop that adds the values other than zero. -/
def addValues (var values : Fin n → ℤ) : Fin n → ℤ := fun i =>
  if values i ≠ 0 then var i + values i else var i

/-- A loop that takes the values back that meet a test. -/
def takeValues (test : ℤ → Bool) (var values : Fin n → ℤ) : Fin n → ℤ := fun i =>
  if test (values i) then var i + -values i else var i

theorem addValues_eq (var values : Fin n → ℤ) (i : Fin n) : addValues var values i = var i + values i := by
  rw [addValues]
  split_ifs with h
  · rfl
  · rw [not_not.1 h, add_zero]

/-- A loop whose test passes all values but zero takes back all of them. -/
theorem takeValues_eq {test : ℤ → Bool} {var values : Fin n → ℤ} {i : Fin n}
    (h : values i ≠ 0 → test (values i) = true) : takeValues test var values i = var i - values i := by
  rw [takeValues]
  split_ifs with htest
  · ring
  · have hzero : values i = 0 := by
      by_contra hne
      exact htest (h hne)
    rw [hzero, sub_zero]

end Loops

/-! ## Bonuses -/

variable (fl : Rounding)

def updatePercentStats (base : Base) (c : ConditionAttributes) : ConditionAttributes :=
  { c with
    stats := fromPercent c.statsPercent c.stats fun i percent =>
      match i with
      | 0 => fl.scale base.maxHealth percent
      | 1 => fl.scale base.maxMana percent
      | 2 => c.stats 2
      | 3 => fl.scale base.baseMagicLevel percent
      | 4 => fl.part base.capacity percent }

def updatePercentSkills (base : Base) (c : ConditionAttributes) : ConditionAttributes :=
  { c with
    skills := fromPercent c.skillsPercent c.skills fun i percent => fl.scale (base.baseSkill i) percent }

def updatePercentBuffs (creature : Creature) (c : ConditionAttributes) : ConditionAttributes :=
  { c with
    buffs := fromPercent c.buffsPercent c.buffs fun i percent => fl.scale (creature.varBuffs i) percent }

def updatePercentAbsorbs (creature : Creature) (c : ConditionAttributes) : ConditionAttributes :=
  { c with
    absorbs := fromPercent c.absorbsPercent c.absorbs fun i percent =>
      fl.rest (creature.absorbPercent i) percent }

def updatePercentIncreases (creature : Creature) (c : ConditionAttributes) : ConditionAttributes :=
  { c with
    increases := fromPercent c.increasesPercent c.increases fun i percent =>
      fl.rest (creature.increasePercent i) percent }

/-- The condition with numbers for its percentages: those of skills and stats only for a player. -/
def withNumbers (base : Base) (creature : Creature) (c : ConditionAttributes) : ConditionAttributes :=
  let c := updatePercentBuffs fl creature c
  let c := updatePercentAbsorbs fl creature c
  let c := updatePercentIncreases fl creature c
  if creature.player then updatePercentStats fl base (updatePercentSkills fl base c) else c

/-- `updateBuffs`, `updateAbsorbs`, `updateIncreases`, `updateCharmChanceModifier`, and for a player
`updateSkills` and `updateStats`. -/
def addBonuses (creature : Creature) (c : ConditionAttributes) : Creature :=
  { creature with
    varBuffs := addValues creature.varBuffs c.buffs
    absorbPercent := addValues creature.absorbPercent c.absorbs
    increasePercent := addValues creature.increasePercent c.increases
    charmChanceModifier := creature.charmChanceModifier + c.charmChanceModifier
    varSkills := if creature.player then addValues creature.varSkills c.skills else creature.varSkills
    varStats := if creature.player then addValues creature.varStats c.stats else creature.varStats }

/-- The bonuses that `endCondition` takes back. -/
def takeBonuses (creature : Creature) (c : ConditionAttributes) : Creature :=
  { creature with
    varSkills :=
      if creature.player then
        fun i =>
          if c.skills i ≠ 0 ∨ c.skillsPercent i ≠ 0 then creature.varSkills i + -c.skills i
          else creature.varSkills i
      else creature.varSkills
    varStats :=
      if creature.player then takeValues (fun value => value ≠ 0) creature.varStats c.stats
      else creature.varStats
    charmChanceModifier :=
      if creature.player then creature.charmChanceModifier - c.charmChanceModifier
      else creature.charmChanceModifier
    varBuffs := takeValues (fun value => value ≠ 0) creature.varBuffs c.buffs
    absorbPercent := takeValues (fun value => value ≠ 0) creature.absorbPercent c.absorbs
    increasePercent := takeValues (fun value => value > 0) creature.increasePercent c.increases }

/-! ## Conditions of a creature -/

/-- `Creature::setUseDefense`. -/
def setUseDefense (creature : Creature) (useDefense : Bool) : Creature :=
  { creature with canUseDefense := useDefense }

def endCondition (creature : Creature) (c : ConditionAttributes) : Creature :=
  let creature := takeBonuses creature c
  if c.disableDefense then setUseDefense creature true else creature

/-- A creature with its active attribute conditions, by `id` and `subId`. -/
structure State where
  creature : Creature
  active : List ((ℤ × ℕ) × ConditionAttributes)

/-- `startCondition`, of a condition that then enters the list. -/
def startCondition (s : State) (now : ℤ) (base : Base) (key : ℤ × ℕ) (c : ConditionAttributes) :
    State :=
  let c := { c with endTime := if c.ticks > 0 then c.ticks + now else c.endTime }
  let creature := setUseDefense s.creature (!c.disableDefense)
  let c := withNumbers fl base creature c
  { creature := addBonuses creature c, active := Assoc.put s.active key c }

/-- `updateCondition`, of conditions of one type. -/
def updateCondition (now : ℤ) (prev c : ConditionAttributes) : Bool :=
  !(prev.ticks == -1 && decide (c.ticks > 0)) &&
    !(decide (c.ticks ≥ 0) && decide (prev.endTime > now + c.ticks))

/-- `addCondition`, of the condition `prev` in the list. -/
def addCondition (s : State) (now : ℤ) (base : Base) (key : ℤ × ℕ) (prev c : ConditionAttributes) :
    State :=
  if updateCondition now prev c then
    let creature := endCondition s.creature prev
    let c := withNumbers fl base creature { c with endTime := c.ticks + now }
    { creature := addBonuses creature c, active := Assoc.put s.active key c }
  else s

/-- A step of the conditions of a creature. -/
inductive Step where
  | addCondition (now : ℤ) (base : Base) (key : ℤ × ℕ) (condition : ConditionAttributes)
  | endCondition (key : ℤ × ℕ)

/-- The state after a step. Adding a condition starts it unless it is in the list, as in
`Creature::addCondition`. -/
def step (s : State) : Step → State
  | .addCondition now base key c =>
    match Assoc.get s.active key with
    | some prev => addCondition fl s now base key prev c
    | none => startCondition fl s now base key c
  | .endCondition key =>
    match Assoc.get s.active key with
    | some c =>
      { creature := Bonuses.endCondition s.creature c, active := Assoc.erase s.active key }
    | none => s

/-! ## Balance -/

/-- Some condition of a list disables the defence. -/
def Disables (active : List ((ℤ × ℕ) × ConditionAttributes)) : Prop :=
  ∃ p ∈ active, p.2.disableDefense = true

/-- A condition that `endCondition` takes back: no increase is below zero, and a creature other than
a player has no charm modifier from it. -/
def Takes (creature : Creature) (c : ConditionAttributes) : Prop :=
  (∀ i, 0 ≤ c.increases i) ∧ (creature.player = true ∨ c.charmChanceModifier = 0)

/-- A step that takes back all that was added, and after which the defence is disabled where it
should be. -/
def TakesBack (s : State) : Step → Prop
  | .addCondition now _ key c =>
    match Assoc.get s.active key with
    | some prev =>
      updateCondition now prev c = true → Takes s.creature prev ∧
        (Disables (Assoc.erase s.active key) → prev.disableDefense = false) ∧
        (c.disableDefense = true → Disables (Assoc.erase s.active key))
    | none => Disables s.active → c.disableDefense = true
  | .endCondition key =>
    ∀ c, Assoc.get s.active key = some c → Takes s.creature c ∧
      (Disables (Assoc.erase s.active key) → c.disableDefense = false)

/-- The numbers of the creature are those that it had as `before`, and those of the active
conditions. -/
structure Numbers (before creature : Creature) (active : List ((ℤ × ℕ) × ConditionAttributes)) :
    Prop where
  player : creature.player = before.player
  varSkills : ∀ i, creature.varSkills i = before.varSkills i +
    if before.player then Assoc.sum (fun c => c.skills i) active else 0
  varStats : ∀ i, creature.varStats i = before.varStats i +
    if before.player then Assoc.sum (fun c => c.stats i) active else 0
  varBuffs : ∀ i, creature.varBuffs i = before.varBuffs i + Assoc.sum (fun c => c.buffs i) active
  absorbPercent : ∀ i,
    creature.absorbPercent i = before.absorbPercent i + Assoc.sum (fun c => c.absorbs i) active
  increasePercent : ∀ i,
    creature.increasePercent i = before.increasePercent i + Assoc.sum (fun c => c.increases i) active
  charmChanceModifier : creature.charmChanceModifier =
    before.charmChanceModifier + Assoc.sum ConditionAttributes.charmChanceModifier active

/-- The bonuses of the creature are those that it had as `before` and those of the active
conditions, and its defence is disabled if one of them disables it. -/
structure Balanced (before : Creature) (s : State) : Prop where
  distinct : Assoc.Distinct s.active
  numbers : Numbers before s.creature s.active
  canUseDefense : s.creature.canUseDefense = false ↔ Disables s.active

/-! ## Bonuses come and go -/

section Numbers

variable {before creature : Creature} {active : List ((ℤ × ℕ) × ConditionAttributes)}

/-- The numbers say nothing about the defence. -/
theorem Numbers.setUseDefense (h : Numbers before creature active) (useDefense : Bool) :
    Numbers before (setUseDefense creature useDefense) active :=
  ⟨h.player, h.varSkills, h.varStats, h.varBuffs, h.absorbPercent, h.increasePercent,
    h.charmChanceModifier⟩

/-- The bonuses of a condition that enters the list are added. -/
theorem numbers_addBonuses (hdistinct : Assoc.Distinct active) {key : ℤ × ℕ}
    (h : Numbers before creature (Assoc.erase active key)) (c : ConditionAttributes) :
    Numbers before (addBonuses creature c) (Assoc.put active key c) := by
  refine ⟨h.player, fun i => ?_, fun i => ?_, fun i => ?_, fun i => ?_, fun i => ?_, ?_⟩
  · have hskill := h.varSkills i
    simp only [addBonuses, h.player, Assoc.sum_put_erase _ hdistinct]
    split_ifs with hplayer
    · rw [addValues_eq, hskill, if_pos hplayer, add_assoc]
    · rw [hskill, if_neg hplayer]
  · have hstat := h.varStats i
    simp only [addBonuses, h.player, Assoc.sum_put_erase _ hdistinct]
    split_ifs with hplayer
    · rw [addValues_eq, hstat, if_pos hplayer, add_assoc]
    · rw [hstat, if_neg hplayer]
  · simp only [addBonuses, addValues_eq, h.varBuffs, Assoc.sum_put_erase _ hdistinct, add_assoc]
  · simp only [addBonuses, addValues_eq, h.absorbPercent, Assoc.sum_put_erase _ hdistinct, add_assoc]
  · simp only [addBonuses, addValues_eq, h.increasePercent, Assoc.sum_put_erase _ hdistinct, add_assoc]
  · simp only [addBonuses, h.charmChanceModifier, Assoc.sum_put_erase _ hdistinct, add_assoc]

/-- The bonuses of a condition that leaves the list are taken back. -/
theorem numbers_takeBonuses (hdistinct : Assoc.Distinct active) (h : Numbers before creature active)
    {key : ℤ × ℕ} {c : ConditionAttributes} (hget : Assoc.get active key = some c)
    (hc : Takes creature c) : Numbers before (takeBonuses creature c) (Assoc.erase active key) := by
  have hsum : ∀ {M : Type} [AddCommGroup M] (f : ConditionAttributes → M),
      Assoc.sum f (Assoc.erase active key) = Assoc.sum f active - f c := by
    intro M _ f
    rw [Assoc.sum_erase f hdistinct, hget, Option.elim_some]
  have hne : ∀ value : ℤ, value ≠ 0 → decide (value ≠ 0) = true := fun _ h => decide_eq_true h
  refine ⟨h.player, fun i => ?_, fun i => ?_, fun i => ?_, fun i => ?_, fun i => ?_, ?_⟩
  · have hskill := h.varSkills i
    simp only [takeBonuses, h.player, hsum]
    split_ifs with hplayer
    · dsimp only
      split_ifs with htake
      · rw [hskill, if_pos hplayer]
        ring
      · rw [not_or, not_not] at htake
        rw [hskill, if_pos hplayer, htake.1, sub_zero]
    · rw [hskill, if_neg hplayer]
  · have hstat := h.varStats i
    simp only [takeBonuses, h.player, hsum]
    split_ifs with hplayer
    · rw [takeValues_eq (hne _), hstat, if_pos hplayer]
      ring
    · rw [hstat, if_neg hplayer]
  · simp only [takeBonuses, hsum]
    rw [takeValues_eq (hne _), h.varBuffs]
    ring
  · simp only [takeBonuses, hsum]
    rw [takeValues_eq (hne _), h.absorbPercent]
    ring
  · simp only [takeBonuses, hsum]
    rw [takeValues_eq fun hvalue => decide_eq_true (lt_of_le_of_ne (hc.1 i) (Ne.symm hvalue)),
      h.increasePercent]
    ring
  · simp only [takeBonuses, hsum]
    split_ifs with hplayer
    · rw [h.charmChanceModifier]
      abel
    · rw [h.charmChanceModifier, hc.2.resolve_left hplayer, sub_zero]

end Numbers

/-! ## Defence -/

section Defence

variable {active : List ((ℤ × ℕ) × ConditionAttributes)} {key : ℤ × ℕ}

theorem disables_put (h : Assoc.Distinct active) (c : ConditionAttributes) : Disables (Assoc.put active key c) ↔
      c.disableDefense = true ∨ Disables (Assoc.erase active key) := by
  simp only [Disables, Assoc.mem_put_iff h]
  constructor
  · rintro ⟨p, rfl | hp, hdisable⟩
    · exact Or.inl hdisable
    · exact Or.inr ⟨p, hp, hdisable⟩
  · rintro (hdisable | ⟨p, hp, hdisable⟩)
    · exact ⟨(key, c), Or.inl rfl, hdisable⟩
    · exact ⟨p, Or.inr hp, hdisable⟩

theorem disables_of_get (h : Assoc.Distinct active) {c : ConditionAttributes}
    (hget : Assoc.get active key = some c) :
    Disables active ↔ c.disableDefense = true ∨ Disables (Assoc.erase active key) := by
  simp only [Disables, Assoc.mem_iff_of_get h hget]
  constructor
  · rintro ⟨p, rfl | hp, hdisable⟩
    · exact Or.inl hdisable
    · exact Or.inr ⟨p, hp, hdisable⟩
  · rintro (hdisable | ⟨p, hp, hdisable⟩)
    · exact ⟨(key, c), Or.inl rfl, hdisable⟩
    · exact ⟨p, Or.inr hp, hdisable⟩

end Defence

/-! ## Runs -/

section Runs

variable {fl} {before : Creature} {s : State}

/-- The numbers for the percentages leave the defence of a condition as it is. -/
theorem disableDefense_withNumbers (base : Base) (creature : Creature) (c : ConditionAttributes) :
    (withNumbers fl base creature c).disableDefense = c.disableDefense := by
  rw [withNumbers]
  split_ifs <;> rfl

theorem balanced_startCondition (h : Balanced before s) {key : ℤ × ℕ}
    (hget : Assoc.get s.active key = none) (now : ℤ) (base : Base) {c : ConditionAttributes}
    (hc : Disables s.active → c.disableDefense = true) : Balanced before (startCondition fl s now base key c) := by
  have herase : Assoc.erase s.active key = s.active := Assoc.erase_of_get_none hget
  refine ⟨h.distinct.put key _, numbers_addBonuses h.distinct ?_ _, ?_⟩
  · rw [herase]
    exact h.numbers.setUseDefense _
  · rw [startCondition, disables_put h.distinct, herase, disableDefense_withNumbers]
    simp only [addBonuses, setUseDefense, Bool.not_eq_false']
    exact ⟨Or.inl, fun hor => hor.elim id hc⟩

theorem balanced_endCondition (h : Balanced before s) {key : ℤ × ℕ} {c : ConditionAttributes}
    (hget : Assoc.get s.active key = some c) (hc : Takes s.creature c)
    (hothers : Disables (Assoc.erase s.active key) → c.disableDefense = false) :
    Balanced before ⟨endCondition s.creature c, Assoc.erase s.active key⟩ := by
  have hnumbers := numbers_takeBonuses h.distinct h.numbers hget hc
  have hdefense := h.canUseDefense
  rw [disables_of_get h.distinct hget] at hdefense
  rw [endCondition]
  by_cases hdisable : c.disableDefense = true
  · simp only [if_pos hdisable]
    refine ⟨h.distinct.erase key, hnumbers.setUseDefense true, ?_⟩
    refine iff_of_false (fun hfalse => (by cases hfalse)) fun hothers' => ?_
    rw [hothers hothers'] at hdisable
    cases hdisable
  · simp only [if_neg hdisable]
    refine ⟨h.distinct.erase key, hnumbers, hdefense.trans ?_⟩
    exact ⟨fun hor => hor.resolve_left hdisable, Or.inr⟩

theorem balanced_addCondition (h : Balanced before s) {key : ℤ × ℕ} {prev : ConditionAttributes}
    (hget : Assoc.get s.active key = some prev) {now : ℤ} {c : ConditionAttributes}
    (hc : updateCondition now prev c = true → Takes s.creature prev ∧
      (Disables (Assoc.erase s.active key) → prev.disableDefense = false) ∧
      (c.disableDefense = true → Disables (Assoc.erase s.active key))) (base : Base) :
    Balanced before (addCondition fl s now base key prev c) := by
  rw [addCondition]
  by_cases hupdate : updateCondition now prev c = true
  · rw [if_pos hupdate]
    obtain ⟨htakes, hprev, hdisable⟩ := hc hupdate
    have hended := balanced_endCondition h hget htakes hprev
    refine ⟨h.distinct.put key _, numbers_addBonuses h.distinct hended.numbers _, ?_⟩
    have hdefense := hended.canUseDefense
    rw [disables_put h.distinct, disableDefense_withNumbers]
    exact hdefense.trans ⟨Or.inr, fun hor => hor.elim hdisable id⟩
  · rw [if_neg hupdate]
    exact h

/-- **A step** that takes back what it ends keeps the balance. -/
theorem step_balanced (h : Balanced before s) {a : Step} (ha : TakesBack s a) : Balanced before (step fl s a) := by
  cases a with
  | addCondition now base key c =>
    rw [TakesBack] at ha
    rw [step]
    cases hget : Assoc.get s.active key with
    | none =>
      rw [hget] at ha
      exact balanced_startCondition h hget now base ha
    | some prev =>
      rw [hget] at ha
      exact balanced_addCondition h hget ha base
  | endCondition key =>
    rw [step]
    cases hget : Assoc.get s.active key with
    | none => exact h
    | some c =>
      obtain ⟨htakes, hothers⟩ := ha c hget
      exact balanced_endCondition h hget htakes hothers

/-- A balanced creature without conditions is as it was before. -/
theorem Balanced.creature_eq (h : Balanced before s) (hbefore : before.canUseDefense = true)
    (hactive : s.active = []) : s.creature = before := by
  have hnumbers := h.numbers
  have hdefense := h.canUseDefense
  rw [hactive] at hnumbers hdefense
  have hnone : ¬ Disables [] := by
    rintro ⟨p, hp, -⟩
    cases hp
  have huse : s.creature.canUseDefense = true := by
    rw [← Bool.not_eq_false, hdefense]
    exact hnone
  obtain ⟨hplayer, hskills, hstats, hbuffs, habsorb, hincrease, hcharm⟩ := hnumbers
  simp only [Assoc.sum_nil, ite_self, add_zero] at hskills hstats hbuffs habsorb hincrease hcharm
  cases hcreature : s.creature with
  | mk =>
    rw [hcreature] at hplayer hskills hstats hbuffs habsorb hincrease hcharm huse
    cases before with
    | mk =>
      simp only at hplayer hskills hstats hbuffs habsorb hincrease hcharm huse hbefore
      rw [hplayer, funext hskills, funext hstats, funext hbuffs, funext habsorb, funext hincrease,
        hcharm, huse, hbefore]

/-- **A run** of steps that take back what they end leaves no trace: without active conditions the
creature is as it was before, and while one is active that disables the defence, it is disabled. A
creature can use its defence before its first condition. -/
theorem run_leaves_no_trace (fl : Rounding) {s : State} (hactive : s.active = [])
    (hdefense : s.creature.canUseDefense = true) {l : List Step}
    (hl : Runs.Meets (step fl) TakesBack s l) :
    ((Runs.run (step fl) s l).active = [] → (Runs.run (step fl) s l).creature = s.creature) ∧
    (Disables (Runs.run (step fl) s l).active →
      (Runs.run (step fl) s l).creature.canUseDefense = false) := by
  have h0 : Balanced s.creature s := by
    rw [show s = ⟨s.creature, []⟩ by rw [← hactive]]
    refine ⟨List.nodup_nil, ⟨rfl, ?_, ?_, ?_, ?_, ?_, ?_⟩, ?_⟩
    all_goals simp [Disables, hdefense]
  have hrun := Runs.invariant (P := Balanced s.creature) (step fl)
    (fun _ _ h ha => step_balanced h ha) h0 hl
  exact ⟨hrun.creature_eq hdefense, hrun.canUseDefense.2⟩

end Runs

/-- The percentages in whole numbers. -/
def whole : Rounding where
  scale value percent := Int.tdiv (value * (percent - 100)) 100
  part value percent := Int.tdiv (value * percent) 100
  rest current percent := round (((100 - current) * percent : ℚ) / 100)

/-- A player without bonuses. -/
def hero : Creature :=
  ⟨true, fun _ => 0, fun _ => 0, fun _ => 0, fun _ => 0, fun _ => 0, 0, true⟩

/-- A condition that adds three to all skills, and `increase` to all damage that is dealt. -/
def skilled (increase : ℤ) : ConditionAttributes :=
  ⟨1000, 0, fun _ => 3, fun _ => 0, fun _ => 0, fun _ => 0, fun _ => 0, fun _ => 0, fun _ => 0,
    fun _ => 0, fun _ => increase, fun _ => 0, 0, false⟩

/-- The condition starts and ends. -/
def startAndEnd (increase : ℤ) : List Step :=
  [.addCondition 0 ⟨fun _ => 10, 100, 100, 0, 400⟩ (0, 0) (skilled increase), .endCondition (0, 0)]

theorem run_leaves_no_trace_hero :
    (Runs.run (step whole) ⟨hero, []⟩ (startAndEnd 5)).creature = hero := by
  refine (run_leaves_no_trace whole (s := ⟨hero, []⟩) (l := startAndEnd 5) rfl rfl
    ⟨?_, ?_, trivial⟩).1 rfl
  · rintro ⟨p, hp, -⟩
    cases hp
  · intro c hc
    obtain rfl := Option.some.inj hc
    exact ⟨⟨by decide, Or.inl rfl⟩, fun _ => rfl⟩

/-- An increase below zero is not taken back. -/
theorem not_run_leaves_no_trace :
    ¬ ∀ (fl : Rounding) (s : State) (l : List Step), s.active = [] → s.creature.canUseDefense = true →
      ((Runs.run (step fl) s l).active = [] → (Runs.run (step fl) s l).creature = s.creature) ∧
      (Disables (Runs.run (step fl) s l).active →
        (Runs.run (step fl) s l).creature.canUseDefense = false) := by
  intro h
  have hcreature := (h whole ⟨hero, []⟩ (startAndEnd (-5)) rfl rfl).1 rfl
  have hincrease := congrArg (fun creature => creature.increasePercent 0) hcreature
  revert hincrease
  decide

end TiabloServer.Bonuses
