import TiabloServer.Lib.Assoc
import TiabloServer.Lib.Runs

/-!
# The speed of a creature

The speed of a creature is its base speed and a variable part. Haste and paralyze conditions, mounts
and imbuements change the variable part when they begin and change it back when they end, all
through `Game::changeSpeed` (`game.cpp`, `creature.cpp`, `condition.cpp`, `player.cpp`).

## Main definitions

* `Speed.deltas` — the sum of the deltas of the active sources.
* `Speed.Undoes` — the steps whose change is not refused and can be taken back.

## Main results

* `Speed.step_exact` — such a step keeps the speed at the base speed plus the deltas.
* `Speed.run_exact` — and so does a run of them.
-/

namespace TiabloServer.Speed

/-! ## The sources -/

/-- The types of a `ConditionSpeed`. -/
inductive ConditionType where
  | CONDITION_HASTE
  | CONDITION_PARALYZE
  deriving DecidableEq

open ConditionType

/-- What `getCondition` looks for. -/
structure ConditionKey where
  conditionType : ConditionType
  id : ℤ
  subId : ℕ
  deriving DecidableEq

structure ConditionSpeed where
  ticks : ℤ
  speedDelta : ℤ
  deriving DecidableEq

def PLAYER_MAX_SPEED : ℕ := 65535

/-- A conversion to `uint16_t`. -/
def uint16 (n : ℤ) : ℕ := (n % 65536).toNat

theorem uint16_of_range {n : ℤ} (h : 0 ≤ n ∧ n ≤ 65535) : (uint16 n : ℤ) = n := by
  rw [uint16]
  omega

/-- A creature: the imbuements are those of its items, by their places. -/
structure State (ι : Type*) where
  baseSpeed : ℕ
  varSpeed : ℤ
  /-- The conditions that have started and not ended. -/
  conditions : List (ConditionKey × ConditionSpeed)
  /-- Whether `defaultOutfit.lookMount` is set. -/
  lookMount : Bool
  /-- The speed of the mount with the id `getCurrentMount()`. -/
  currentMount : ℤ
  /-- The speeds of the imbuements whose stats have been added and not removed. -/
  imbuements : List (ι × ℤ)

variable {ι : Type*}

/-- `Creature::getSpeed`. -/
def getSpeed (s : State ι) : ℕ := uint16 (s.baseSpeed + s.varSpeed)

/-- `Creature::setSpeed`. -/
def setSpeed (s : State ι) (varSpeedDelta : ℤ) : State ι :=
  if getSpeed s ≥ PLAYER_MAX_SPEED then s else { s with varSpeed := varSpeedDelta }

/-- `Game::changeSpeed`. -/
def changeSpeed (s : State ι) (varSpeedDelta : ℤ) : State ι :=
  setSpeed s (getSpeed s - s.baseSpeed + varSpeedDelta)

/-! ## Conditions -/

/-- The delta of a condition: one without a delta takes `random`, the number that `uniform_random`
gives for its formula, for the new speed. -/
def ConditionSpeed.delta (c : ConditionSpeed) (conditionType : ConditionType) (baseSpeed : ℕ)
    (random : ℤ) : ℤ :=
  if c.speedDelta = 0 then
    if conditionType = CONDITION_PARALYZE ∧ random - baseSpeed < 40 - baseSpeed then 40 - baseSpeed
    else random - baseSpeed
  else c.speedDelta

/-- `ConditionSpeed::startCondition`, of a condition that then enters the list. -/
def startCondition (s : State ι) (key : ConditionKey) (c : ConditionSpeed) (random : ℤ) : State ι :=
  let speedDelta := c.delta key.conditionType s.baseSpeed random
  changeSpeed
    { s with conditions := Assoc.put s.conditions key { c with speedDelta := speedDelta } } speedDelta

/-- `ConditionSpeed::addCondition`, of the condition `prev` in the list. -/
def addCondition (s : State ι) (key : ConditionKey) (prev c : ConditionSpeed) (random : ℤ) :
    State ι :=
  if prev.ticks = -1 ∧ c.ticks > 0 then s
  else
    let speedDelta := c.delta key.conditionType s.baseSpeed random
    let s' := { s with
      conditions := Assoc.put s.conditions key { ticks := c.ticks, speedDelta := speedDelta } }
    if speedDelta - prev.speedDelta ≠ 0 then changeSpeed s' (speedDelta - prev.speedDelta) else s'

/-- `ConditionSpeed::endCondition`, of a condition that leaves the list. -/
def endCondition (s : State ι) (key : ConditionKey) (c : ConditionSpeed) : State ι :=
  changeSpeed { s with conditions := Assoc.erase s.conditions key } (-c.speedDelta)

/-! ## Mounts -/

/-- `Player::toggleMount(true)` of a player on foot, where nothing keeps the mount away. -/
def toggleMount (s : State ι) (speed : ℤ) : State ι :=
  let s' := { s with lookMount := true, currentMount := speed }
  if speed ≠ 0 then changeSpeed s' speed else s'

/-- `Player::dismount`. -/
def dismount (s : State ι) : State ι :=
  let s' := { s with lookMount := false }
  if s.currentMount > 0 then changeSpeed s' (-s.currentMount) else s'

/-- `Game::playerChangeOutfit` to an outfit with a mount: a protection zone takes the mount from the
outfit, and an outfit that the player cannot wear is not put on. -/
def playerChangeOutfit (s : State ι) (speed : ℤ) (protectionZone canWear : Bool) : State ι :=
  let deltaSpeedChange := if s.lookMount then speed - s.currentMount else speed
  changeSpeed
    { s with
      currentMount := speed
      lookMount := if canWear then !protectionZone else s.lookMount }
    deltaSpeedChange

/-! ## Imbuements -/

section Imbuements

variable [DecidableEq ι]

/-- `Player::addItemImbuementStats`. -/
def addItemImbuementStats (s : State ι) (key : ι) (speed : ℤ) : State ι :=
  let s' := { s with imbuements := Assoc.put s.imbuements key speed }
  if speed ≠ 0 then changeSpeed s' speed else s'

/-- `Player::removeItemImbuementStats`. -/
def removeItemImbuementStats (s : State ι) (key : ι) (speed : ℤ) : State ι :=
  let s' := { s with imbuements := Assoc.erase s.imbuements key }
  if speed ≠ 0 then changeSpeed s' (-speed) else s'

end Imbuements

/-! ## Steps -/

/-- A step of a source, or a new base speed. -/
inductive Step (ι : Type*) where
  | setBaseSpeed (newBaseSpeed : ℤ)
  | addCondition (key : ConditionKey) (condition : ConditionSpeed) (random : ℤ)
  | endCondition (key : ConditionKey)
  | toggleMount (speed : ℤ)
  | dismount
  | playerChangeOutfit (speed : ℤ) (protectionZone canWear : Bool)
  | addItemImbuementStats (key : ι) (speed : ℤ)
  | removeItemImbuementStats (key : ι)

/-- The state after a step. Adding a condition starts it unless it is in the list, as in
`Creature::addCondition`; what is not active does not end, and what is active does not begin. -/
def step [DecidableEq ι] (s : State ι) : Step ι → State ι
  | .setBaseSpeed newBaseSpeed => { s with baseSpeed := uint16 newBaseSpeed }
  | .addCondition key c random =>
    match Assoc.get s.conditions key with
    | some prev => Speed.addCondition s key prev c random
    | none => startCondition s key c random
  | .endCondition key => (Assoc.get s.conditions key).elim s (Speed.endCondition s key)
  | .toggleMount speed => if s.lookMount then s else Speed.toggleMount s speed
  | .dismount => if s.lookMount then Speed.dismount s else s
  | .playerChangeOutfit speed protectionZone canWear =>
    Speed.playerChangeOutfit s speed protectionZone canWear
  | .addItemImbuementStats key speed =>
    (Assoc.get s.imbuements key).elim (Speed.addItemImbuementStats s key speed) fun _ => s
  | .removeItemImbuementStats key =>
    (Assoc.get s.imbuements key).elim s (Speed.removeItemImbuementStats s key)

/-- The sum of the deltas of the active sources. -/
def deltas (s : State ι) : ℤ :=
  Assoc.sum ConditionSpeed.speedDelta s.conditions + (if s.lookMount then s.currentMount else 0) +
    Assoc.sum id s.imbuements

/-- The base speed and the deltas make a speed. -/
def InRange (s : State ι) : Prop := 0 ≤ s.baseSpeed + deltas s ∧ s.baseSpeed + deltas s ≤ 65535

/-- The change that a step asks for. -/
def requested [DecidableEq ι] (s : State ι) : Step ι → ℤ
  | .setBaseSpeed _ => 0
  | .addCondition key c random =>
    match Assoc.get s.conditions key with
    | some prev =>
      if prev.ticks = -1 ∧ c.ticks > 0 then 0
      else c.delta key.conditionType s.baseSpeed random - prev.speedDelta
    | none => c.delta key.conditionType s.baseSpeed random
  | .endCondition key => (Assoc.get s.conditions key).elim 0 fun c => -c.speedDelta
  | .toggleMount speed => if s.lookMount then 0 else speed
  | .dismount => if s.lookMount then -s.currentMount else 0
  | .playerChangeOutfit speed _ _ => if s.lookMount then speed - s.currentMount else speed
  | .addItemImbuementStats key speed => (Assoc.get s.imbuements key).elim speed fun _ => 0
  | .removeItemImbuementStats key => (Assoc.get s.imbuements key).elim 0 fun speed => -speed

/-- A mount that slows its rider down is not dismounted, and a player who takes a mount with the
outfit rides it then. -/
def Rides (s : State ι) : Step ι → Prop
  | .dismount => s.lookMount = true → 0 ≤ s.currentMount
  | .playerChangeOutfit speed protectionZone canWear =>
    speed = 0 ∨ if canWear then protectionZone = false else s.lookMount = true
  | _ => True

/-- A step whose change is made and can be taken back: none is asked for at the largest speed. -/
def Undoes [DecidableEq ι] (s : State ι) (a : Step ι) : Prop :=
  (getSpeed s = PLAYER_MAX_SPEED → requested s a = 0) ∧ Rides s a

/-- No source is active. -/
structure NoneActive (s : State ι) : Prop where
  conditions : s.conditions = []
  lookMount : s.lookMount = false
  imbuements : s.imbuements = []

/-- A creature as it is made. -/
structure Fresh (s : State ι) : Prop extends NoneActive s where
  varSpeed : s.varSpeed = 0

/-- The speed is the base speed plus the deltas. -/
structure Exact (s : State ι) : Prop where
  speed : (getSpeed s : ℤ) = s.baseSpeed + deltas s
  conditions : Assoc.Distinct s.conditions
  imbuements : Assoc.Distinct s.imbuements

/-! ## A change -/

section Change

variable (s : State ι) (d : ℤ)

@[simp]
theorem changeSpeed_baseSpeed : (changeSpeed s d).baseSpeed = s.baseSpeed := by
  rw [changeSpeed, setSpeed, apply_ite State.baseSpeed]
  exact ite_self _

@[simp]
theorem changeSpeed_conditions : (changeSpeed s d).conditions = s.conditions := by
  rw [changeSpeed, setSpeed, apply_ite State.conditions]
  exact ite_self _

@[simp]
theorem changeSpeed_imbuements : (changeSpeed s d).imbuements = s.imbuements := by
  rw [changeSpeed, setSpeed, apply_ite State.imbuements]
  exact ite_self _

@[simp]
theorem changeSpeed_deltas : deltas (changeSpeed s d) = deltas s := by
  rw [changeSpeed, setSpeed]
  split_ifs <;> rfl

theorem getSpeed_le : getSpeed s ≤ PLAYER_MAX_SPEED := by
  rw [getSpeed, uint16, PLAYER_MAX_SPEED]
  omega

/-- **A change of the speed** adds its delta, if the speed is not the largest or nothing is
added. -/
theorem getSpeed_changeSpeed {s : State ι} {d : ℤ} (hd : getSpeed s = PLAYER_MAX_SPEED → d = 0)
    (hrange : 0 ≤ getSpeed s + d ∧ getSpeed s + d ≤ 65535) : (getSpeed (changeSpeed s d) : ℤ) = getSpeed s + d := by
  rw [changeSpeed, setSpeed]
  split_ifs with hmax
  · rw [hd (le_antisymm (getSpeed_le s) hmax), add_zero]
  · have hsum : (s.baseSpeed : ℤ) + (getSpeed s - s.baseSpeed + d) = getSpeed s + d := by ring
    rw [getSpeed, hsum, uint16_of_range hrange]

end Change

/-! ## Steps of the sources -/

section Runs

variable [DecidableEq ι] {s : State ι}

/-- The state `s'` with the sources after the step `a`, before the change that it asks for is
made. -/
structure Prepares (s : State ι) (a : Step ι) (s' : State ι) : Prop where
  baseSpeed : s'.baseSpeed = s.baseSpeed
  varSpeed : s'.varSpeed = s.varSpeed
  conditions : Assoc.Distinct s'.conditions
  imbuements : Assoc.Distinct s'.imbuements
  deltas : deltas s' = deltas s + requested s a
  step : step s a = changeSpeed s' (requested s a) ∨ step s a = s' ∧ requested s a = 0

/-- A step that does nothing. -/
theorem prepares_self (hs : Exact s) {a : Step ι} (hstep : step s a = s) (hrequested : requested s a = 0) :
    Prepares s a s :=
  ⟨rfl, rfl, hs.conditions, hs.imbuements, by rw [hrequested, add_zero], Or.inr ⟨hstep, hrequested⟩⟩

theorem prepares_addCondition (hs : Exact s) (key : ConditionKey) (c : ConditionSpeed) (random : ℤ) :
    ∃ s', Prepares s (.addCondition key c random) s' := by
  let c' : ConditionSpeed := ⟨c.ticks, c.delta key.conditionType s.baseSpeed random⟩
  have hc' : c'.speedDelta = c.delta key.conditionType s.baseSpeed random := rfl
  cases hget : Assoc.get s.conditions key with
  | none =>
    refine ⟨{ s with conditions := Assoc.put s.conditions key c' }, rfl, rfl,
      hs.conditions.put key c', hs.imbuements, ?_, Or.inl ?_⟩
    · simp only [deltas, requested, hget, Assoc.sum_put, Option.elim_none, hc']
      ring
    · simp only [step, requested, hget, startCondition, c']
  | some prev =>
    by_cases hkeep : prev.ticks = -1 ∧ c.ticks > 0
    · refine ⟨s, prepares_self hs ?_ ?_⟩
      · simp only [step, hget, addCondition, if_pos hkeep]
      · simp only [requested, hget, if_pos hkeep]
    · have hrequested : requested s (.addCondition key c random) =
          c.delta key.conditionType s.baseSpeed random - prev.speedDelta := by
        simp only [requested, hget, if_neg hkeep]
      refine ⟨{ s with conditions := Assoc.put s.conditions key c' }, rfl, rfl,
        hs.conditions.put key c', hs.imbuements, ?_, ?_⟩
      · simp only [deltas, hrequested, Assoc.sum_put, hget, Option.elim_some, hc']
        ring
      · rw [hrequested]
        simp only [step, hget, addCondition, if_neg hkeep]
        split_ifs with hchange
        · exact Or.inl rfl
        · exact Or.inr ⟨rfl, not_not.1 hchange⟩

theorem prepares_endCondition (hs : Exact s) (key : ConditionKey) : ∃ s', Prepares s (.endCondition key) s' := by
  cases hget : Assoc.get s.conditions key with
  | none =>
    refine ⟨s, prepares_self hs ?_ ?_⟩
    · simp only [step, hget, Option.elim_none]
    · simp only [requested, hget, Option.elim_none]
  | some c =>
    refine ⟨{ s with conditions := Assoc.erase s.conditions key }, rfl, rfl, hs.conditions.erase key,
      hs.imbuements, ?_, Or.inl ?_⟩
    · simp only [deltas, requested, hget, Assoc.sum_erase _ hs.conditions, Option.elim_some]
      ring
    · simp only [step, requested, hget, endCondition, Option.elim_some]

theorem prepares_toggleMount (hs : Exact s) (speed : ℤ) : ∃ s', Prepares s (.toggleMount speed) s' := by
  by_cases hlook : s.lookMount = true
  · exact ⟨s, prepares_self hs (by simp only [step, if_pos hlook]) (by simp only [requested, if_pos hlook])⟩
  · refine ⟨{ s with lookMount := true, currentMount := speed }, rfl, rfl, hs.conditions,
      hs.imbuements, ?_, ?_⟩
    · simp only [deltas, requested, if_neg hlook, if_true]
      ring
    · simp only [step, requested, toggleMount, if_neg hlook]
      split_ifs with hspeed
      · exact Or.inl rfl
      · exact Or.inr ⟨rfl, not_not.1 hspeed⟩

theorem prepares_dismount (hs : Exact s) (ha : Rides s .dismount) : ∃ s', Prepares s .dismount s' := by
  by_cases hlook : s.lookMount = true
  · refine ⟨{ s with lookMount := false }, rfl, rfl, hs.conditions, hs.imbuements, ?_, ?_⟩
    · simp only [deltas, requested, if_pos hlook, Bool.false_eq_true, if_false]
      ring
    · have hnonneg := ha hlook
      simp only [step, requested, dismount, if_pos hlook]
      split_ifs with hspeed
      · exact Or.inl rfl
      · exact Or.inr ⟨rfl, by omega⟩
  · exact ⟨s, prepares_self hs (by simp only [step, if_neg hlook]) (by simp only [requested, if_neg hlook])⟩

theorem prepares_playerChangeOutfit (hs : Exact s) {speed : ℤ} {protectionZone canWear : Bool}
    (ha : Rides s (.playerChangeOutfit speed protectionZone canWear)) :
    ∃ s', Prepares s (.playerChangeOutfit speed protectionZone canWear) s' := by
  refine ⟨{ s with
      currentMount := speed
      lookMount := if canWear then !protectionZone else s.lookMount },
    rfl, rfl, hs.conditions, hs.imbuements, ?_, Or.inl rfl⟩
  -- the rider's part of the deltas is the speed of the new mount
  have hrides : (if (if canWear then !protectionZone else s.lookMount) = true then speed else 0) =
      speed := by
    rcases ha with rfl | hrides
    · exact ite_self 0
    · cases canWear with
      | true => rw [if_pos rfl] at hrides; simp [hrides]
      | false => rw [if_neg Bool.false_ne_true] at hrides; simp [hrides]
  simp only [deltas, requested, hrides]
  split_ifs <;> ring

theorem prepares_addItemImbuementStats (hs : Exact s) (key : ι) (speed : ℤ) :
    ∃ s', Prepares s (.addItemImbuementStats key speed) s' := by
  cases hget : Assoc.get s.imbuements key with
  | none =>
    refine ⟨{ s with imbuements := Assoc.put s.imbuements key speed }, rfl, rfl, hs.conditions,
      hs.imbuements.put key speed, ?_, ?_⟩
    · simp only [deltas, requested, hget, Assoc.sum_put, Option.elim_none, id]
      ring
    · simp only [step, requested, hget, Option.elim_none, addItemImbuementStats]
      split_ifs with hspeed
      · exact Or.inl rfl
      · exact Or.inr ⟨rfl, not_not.1 hspeed⟩
  | some old =>
    refine ⟨s, prepares_self hs ?_ ?_⟩
    · simp only [step, hget, Option.elim_some]
    · simp only [requested, hget, Option.elim_some]

theorem prepares_removeItemImbuementStats (hs : Exact s) (key : ι) :
    ∃ s', Prepares s (.removeItemImbuementStats key) s' := by
  cases hget : Assoc.get s.imbuements key with
  | none =>
    refine ⟨s, prepares_self hs ?_ ?_⟩
    · simp only [step, hget, Option.elim_none]
    · simp only [requested, hget, Option.elim_none]
  | some speed =>
    refine ⟨{ s with imbuements := Assoc.erase s.imbuements key }, rfl, rfl, hs.conditions,
      hs.imbuements.erase key, ?_, ?_⟩
    · simp only [deltas, requested, hget, Assoc.sum_erase _ hs.imbuements, Option.elim_some, id]
      ring
    · simp only [step, requested, hget, Option.elim_some, removeItemImbuementStats]
      split_ifs with hspeed
      · exact Or.inl rfl
      · exact Or.inr ⟨rfl, by omega⟩

/-- A step of a source changes the sources, and then the speed by what it asks for. -/
theorem exists_prepares (hs : Exact s) {a : Step ι} (ha : Rides s a)
    (hbase : ∀ newBaseSpeed, a ≠ .setBaseSpeed newBaseSpeed) : ∃ s', Prepares s a s' := by
  cases a with
  | setBaseSpeed newBaseSpeed => exact absurd rfl (hbase newBaseSpeed)
  | addCondition key c random => exact prepares_addCondition hs key c random
  | endCondition key => exact prepares_endCondition hs key
  | toggleMount speed => exact prepares_toggleMount hs speed
  | dismount => exact prepares_dismount hs ha
  | playerChangeOutfit speed protectionZone canWear => exact prepares_playerChangeOutfit hs ha
  | addItemImbuementStats key speed => exact prepares_addItemImbuementStats hs key speed
  | removeItemImbuementStats key => exact prepares_removeItemImbuementStats hs key

/-- A new base speed leaves the difference from the base speed as it is, as long as the speed has
room for it. -/
theorem exact_setBaseSpeed (hs : Exact s) {newBaseSpeed : ℤ}
    (hrange : InRange (step s (.setBaseSpeed newBaseSpeed))) : Exact (step s (.setBaseSpeed newBaseSpeed)) := by
  refine ⟨?_, hs.conditions, hs.imbuements⟩
  have hspeed := hs.speed
  have hdeltas : deltas (step s (.setBaseSpeed newBaseSpeed)) = deltas s := rfl
  rw [InRange, hdeltas] at hrange
  rw [hdeltas]
  simp only [step, getSpeed, uint16] at hspeed hrange ⊢
  omega

/-- **A step** that undoes what it ends keeps the speed at the base speed plus the deltas. -/
theorem step_exact (hs : Exact s) {a : Step ι} (ha : Undoes s a) (hrange : InRange (step s a)) :
    Exact (step s a) := by
  by_cases hbase : ∃ newBaseSpeed, a = .setBaseSpeed newBaseSpeed
  · obtain ⟨newBaseSpeed, rfl⟩ := hbase
    exact exact_setBaseSpeed hs hrange
  · obtain ⟨s', hprepares⟩ := exists_prepares hs ha.2 fun n hn => hbase ⟨n, hn⟩
    have hspeed : (getSpeed s' : ℤ) = s.baseSpeed + deltas s := by
      rw [getSpeed, hprepares.baseSpeed, hprepares.varSpeed]
      exact hs.speed
    rcases hprepares.step with hstep | ⟨hstep, hzero⟩
    · rw [hstep] at hrange ⊢
      refine ⟨?_, by simpa using hprepares.conditions, by simpa using hprepares.imbuements⟩
      rw [InRange, changeSpeed_baseSpeed, changeSpeed_deltas, hprepares.baseSpeed,
        hprepares.deltas] at hrange
      rw [changeSpeed_baseSpeed, changeSpeed_deltas, hprepares.baseSpeed, hprepares.deltas,
        getSpeed_changeSpeed ?_ (by rw [hspeed]; omega), hspeed, add_assoc]
      intro hmax
      refine ha.1 ?_
      rw [← hmax, getSpeed, getSpeed, hprepares.baseSpeed, hprepares.varSpeed]
    · rw [hstep]
      refine ⟨?_, hprepares.conditions, hprepares.imbuements⟩
      rw [hspeed, hprepares.baseSpeed, hprepares.deltas, hzero, add_zero]

/-! ## Runs -/

omit [DecidableEq ι] in
theorem deltas_of_noneActive (hs : NoneActive s) : deltas s = 0 := by
  rw [deltas, hs.conditions, hs.imbuements, hs.lookMount]
  rfl

omit [DecidableEq ι] in
/-- Without sources the speed is the base speed. -/
theorem exact_of_fresh (hs : Fresh s) (hrange : InRange s) : Exact s := by
  have hdeltas := deltas_of_noneActive hs.toNoneActive
  refine ⟨?_, ?_, ?_⟩
  · rw [InRange, hdeltas, add_zero] at hrange
    rw [getSpeed, hs.varSpeed, hdeltas, uint16_of_range (by simpa using hrange)]
  · rw [hs.conditions]
    exact List.nodup_nil
  · rw [hs.imbuements]
    exact List.nodup_nil

/-- **A run** of steps that undo what they end keeps the speed at the base speed plus the deltas of
the active sources; when none is active, the speed is the base speed. -/
theorem run_exact (hs : Fresh s) (h0 : InRange s) {l : List (Step ι)}
    (hrange : Runs.Meets step (fun s a => InRange (step s a)) s l) (hl : Runs.Meets step Undoes s l) :
    (getSpeed (Runs.run step s l) : ℤ) = (Runs.run step s l).baseSpeed + deltas (Runs.run step s l) ∧
    (NoneActive (Runs.run step s l) → getSpeed (Runs.run step s l) = (Runs.run step s l).baseSpeed) := by
  have hexact : Exact (Runs.run step s l) :=
    Runs.invariant (P := Exact) step (fun s a hs ha => step_exact hs ha.1 ha.2) (exact_of_fresh hs h0)
      (hl.and step hrange)
  refine ⟨hexact.speed, fun hnone => ?_⟩
  have hspeed := hexact.speed
  rw [deltas_of_noneActive hnone, add_zero] at hspeed
  exact_mod_cast hspeed

end Runs

/-- A creature with base speed 110. -/
def walker : State ℕ := ⟨110, 0, [], false, 0, []⟩

theorem fresh_walker : Fresh walker := ⟨⟨rfl, rfl, rfl⟩, rfl⟩

theorem inRange_walker : InRange walker := by
  constructor <;> decide

/-- A haste by `speedDelta` that begins and ends. -/
def haste (speedDelta : ℤ) : List (Step ℕ) :=
  [.addCondition ⟨CONDITION_HASTE, 0, 0⟩ ⟨1000, speedDelta⟩ 0, .endCondition ⟨CONDITION_HASTE, 0, 0⟩]

/-- A haste by 100 keeps the speed below the largest. -/
theorem run_exact_haste :
    getSpeed (Runs.run step walker (haste 100)) = (Runs.run step walker (haste 100)).baseSpeed :=
  (run_exact fresh_walker inRange_walker
    (l := haste 100)
    ⟨⟨by decide, by decide⟩, ⟨by decide, by decide⟩, trivial⟩
    ⟨⟨by decide, trivial⟩, ⟨by decide, trivial⟩, trivial⟩).2 ⟨rfl, rfl, rfl⟩

/-- A haste to the largest speed stays when it has ended. -/
theorem not_run_exact :
    ¬ ∀ (s : State ℕ) (l : List (Step ℕ)), Fresh s → InRange s →
      Runs.Meets step (fun s a => InRange (step s a)) s l →
      (getSpeed (Runs.run step s l) : ℤ) = (Runs.run step s l).baseSpeed + deltas (Runs.run step s l) := by
  intro h
  have hspeed := h walker (haste 65425) fresh_walker inRange_walker
    ⟨⟨by decide, by decide⟩, ⟨by decide, by decide⟩, trivial⟩
  revert hspeed
  decide

end TiabloServer.Speed
