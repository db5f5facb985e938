import TiabloServer.Lib.Assoc
import TiabloServer.Lib.Runs

/-!
# Monster spawns

`SpawnMonster` (`spawn_monster.cpp`, `spawn_monster.hpp`) with the dispatcher's events for it. What
chance and the map answer during a call (which kind of monster a block draws, whether it can spawn
or is seen, whether it is placed) is given to the call, for each block. The copy of a block that a
delayed spawn carries is only written to, and is left out. Beside the program's data the state has a
record of the monsters that live, of the last clean-up of each block and of the time at which a
delayed spawn was asked for.

## Main definitions

* `Spawns.Orderly` — no block is doubled, none is starved, and none is filled too soon.
* `Spawns.Fitting` — when a call keeps to that.

## Main results

* `Spawns.run_spawns_orderly` — runs of such calls are orderly in every state.
-/

namespace TiabloServer.Spawns

/-! ## Spawns -/

def NONBLOCKABLE_SPAWN_MONSTER_INTERVAL : ℕ := 1400

/-- `spawnBlock_t`. -/
structure SpawnBlock where
  lastSpawn : ℕ
  interval : ℕ
  deriving DecidableEq

/-- A monster that lives, with the block it was placed for. -/
structure Monster where
  number : ℕ
  block : ℕ
  placedAt : ℕ
  deriving DecidableEq

/-- A spawn in the dispatcher. -/
structure SpawnTask where
  spawnMonsterId : ℕ
  interval : ℕ
  startup : Bool
  due : ℕ
  /-- When the spawn was asked for. -/
  made : ℕ
  deriving DecidableEq

structure SpawnMonster where
  spawnedMonsterMap : List (ℕ × ℕ)
  spawnMonsterMap : List (ℕ × SpawnBlock)
  interval : ℕ
  /-- When the check is due. -/
  checkSpawnMonsterEvent : Option ℕ
  tasks : List SpawnTask
  monsters : List Monster
  nextMonster : ℕ
  now : ℕ
  started : Bool
  cleaned : ℕ → Option ℕ

structure MonsterType where
  isBlockable : Bool

/-- What chance and the map answer, for each block. -/
structure Surroundings where
  getMonsterType : ℕ → Option MonsterType
  canSpawn : ℕ → Bool
  findPlayer : ℕ → Bool
  placeCreature : ℕ → Bool

/-- A monster lives. -/
def Alive (s : SpawnMonster) (number : ℕ) : Prop := ∃ m ∈ s.monsters, m.number = number

instance (s : SpawnMonster) (number : ℕ) : Decidable (Alive s number) :=
  inferInstanceAs (Decidable (∃ m ∈ s.monsters, m.number = number))

/-- `lastSpawn` of a block is now. A block that is not there is made. -/
def setLastSpawn (s : SpawnMonster) (spawnMonsterId : ℕ) : SpawnMonster :=
  { s with
    spawnMonsterMap := Assoc.put s.spawnMonsterMap spawnMonsterId
      { (Assoc.get s.spawnMonsterMap spawnMonsterId).getD ⟨0, 0⟩ with lastSpawn := s.now } }

/-- A new monster of a block. -/
def place (s : SpawnMonster) (spawnMonsterId : ℕ) : SpawnMonster :=
  { s with
    spawnedMonsterMap := Assoc.put s.spawnedMonsterMap spawnMonsterId s.nextMonster
    monsters := ⟨s.nextMonster, spawnMonsterId, s.now⟩ :: s.monsters
    nextMonster := s.nextMonster + 1 }

/-- `SpawnMonster::spawnMonster`, for the block itself or for a copy of it. -/
def spawnMonster (w : Surroundings) (s : SpawnMonster) (spawnMonsterId : ℕ) (copied : Bool) : SpawnMonster :=
  if (Assoc.get s.spawnedMonsterMap spawnMonsterId).isSome then s
  else if !w.placeCreature spawnMonsterId then s
  else if copied then place s spawnMonsterId
  else setLastSpawn (place s spawnMonsterId) spawnMonsterId

/-- `SpawnMonster::scheduleSpawn`. -/
def scheduleSpawn (w : Surroundings) (s : SpawnMonster) (spawnMonsterId : ℕ) (copied : Bool) (interval : ℕ)
    (startup : Bool) (made : ℕ) : SpawnMonster :=
  if interval = 0 then spawnMonster w s spawnMonsterId copied
  else { s with
    tasks := s.tasks ++ [⟨spawnMonsterId, interval - NONBLOCKABLE_SPAWN_MONSTER_INTERVAL, startup,
      s.now + NONBLOCKABLE_SPAWN_MONSTER_INTERVAL, made⟩] }

/-- A round of `SpawnMonster::startup`. -/
def startBlock (w : Surroundings) (delayed : Bool) (s : SpawnMonster) (spawnMonsterId : ℕ) : SpawnMonster :=
  if (w.getMonsterType spawnMonsterId).isNone then s
  else if delayed then { s with tasks := s.tasks ++ [⟨spawnMonsterId, 0, true, s.now, s.now⟩] }
  else scheduleSpawn w s spawnMonsterId false 0 true s.now

/-- `SpawnMonster::startup`. -/
def startup (w : Surroundings) (s : SpawnMonster) (delayed : Bool) : SpawnMonster :=
  { (s.spawnMonsterMap.map Prod.fst).foldl (startBlock w delayed) s with started := true }

/-- `SpawnMonster::startSpawnMonsterCheck`. -/
def startSpawnMonsterCheck (s : SpawnMonster) : SpawnMonster :=
  if s.checkSpawnMonsterEvent.isSome then s
  else { s with checkSpawnMonsterEvent := some (s.now + s.interval) }

/-- A round of `SpawnMonster::cleanup`. -/
def cleanBlock (s : SpawnMonster) (spawnMonsterId : ℕ) : SpawnMonster :=
  { setLastSpawn s spawnMonsterId with
    spawnedMonsterMap := Assoc.erase s.spawnedMonsterMap spawnMonsterId
    cleaned := Function.update s.cleaned spawnMonsterId (some s.now) }

/-- The `removeList` of `SpawnMonster::cleanup`. -/
def removeList (s : SpawnMonster) : List ℕ :=
  (s.spawnedMonsterMap.filter fun p => ¬ Alive s p.2).map Prod.fst

/-- `SpawnMonster::cleanup`. -/
def cleanup (s : SpawnMonster) : SpawnMonster := (removeList s).foldl cleanBlock s

/-- A round of `SpawnMonster::checkSpawnMonster`. -/
def checkBlock (w : Surroundings) (s : SpawnMonster) (spawnMonsterId : ℕ) : SpawnMonster :=
  match Assoc.get s.spawnMonsterMap spawnMonsterId with
  | none => s
  | some sb =>
    if (Assoc.get s.spawnedMonsterMap spawnMonsterId).isSome then s
    else
      match w.getMonsterType spawnMonsterId with
      | none => s
      | some mType =>
        if !w.canSpawn spawnMonsterId || mType.isBlockable && w.findPlayer spawnMonsterId then
          setLastSpawn s spawnMonsterId
        else if s.now < sb.lastSpawn + sb.interval then s
        else if mType.isBlockable then spawnMonster w s spawnMonsterId false
        else scheduleSpawn w s spawnMonsterId false (3 * NONBLOCKABLE_SPAWN_MONSTER_INTERVAL) false s.now

/-- `SpawnMonster::checkSpawnMonster`. -/
def checkSpawnMonster (w : Surroundings) (s : SpawnMonster) : SpawnMonster :=
  if s.checkSpawnMonsterEvent.isNone then s
  else
    let s := cleanup { s with checkSpawnMonsterEvent := none }
    let s := (s.spawnMonsterMap.map Prod.fst).foldl (checkBlock w) s
    if s.spawnedMonsterMap.length < s.spawnMonsterMap.length then
      { s with checkSpawnMonsterEvent := some (s.now + s.interval) }
    else s

/-- `Monster::onRemoveCreature`, when the monster is removed that has this number. -/
def onRemoveCreature (s : SpawnMonster) (number : ℕ) : SpawnMonster :=
  if Alive s number then
    startSpawnMonsterCheck { s with monsters := s.monsters.filter fun m => m.number ≠ number }
  else s

/-- The key that `SpawnMonster::removeMonster` erases. -/
def removeKey (s : SpawnMonster) (number : ℕ) : ℕ :=
  ((s.spawnedMonsterMap.find? fun p => p.2 = number).map Prod.fst).getD 0

/-- `SpawnMonster::removeMonster`. -/
def removeMonster (s : SpawnMonster) (number : ℕ) : SpawnMonster :=
  { s with spawnedMonsterMap := Assoc.erase s.spawnedMonsterMap (removeKey s number) }

/-- `SpawnMonster::removeMonsters`. -/
def removeMonsters (s : SpawnMonster) : SpawnMonster :=
  { s with spawnMonsterMap := [], spawnedMonsterMap := [] }

/-- A call, or an event of the dispatcher. -/
inductive Call where
  | startup (w : Surroundings) (delayed : Bool)
  | checkSpawnMonster (w : Surroundings)
  /-- A pending spawn, by its place among them. -/
  | scheduleSpawn (w : Surroundings) (i : ℕ)
  | onRemoveCreature (number : ℕ)
  | removeMonster (number : ℕ)
  | removeMonsters

/-- The state some milliseconds later. -/
def wait (s : SpawnMonster) (elapsed : ℕ) : SpawnMonster := { s with now := s.now + elapsed }

/-- The state after a call. An event does not come before it is due. -/
def call (s : SpawnMonster) : Call → SpawnMonster
  | .startup w delayed => startup w s delayed
  | .checkSpawnMonster w => if s.checkSpawnMonsterEvent.any (· ≤ s.now) then checkSpawnMonster w s else s
  | .scheduleSpawn w i =>
    match s.tasks[i]? with
    | none => s
    | some task =>
      if task.due ≤ s.now then
        scheduleSpawn w { s with tasks := s.tasks.eraseIdx i } task.spawnMonsterId true task.interval task.startup
          task.made
      else s
  | .onRemoveCreature number => onRemoveCreature s number
  | .removeMonster number => removeMonster s number
  | .removeMonsters => removeMonsters s

/-- A call, some milliseconds after the last one. -/
def step (s : SpawnMonster) (c : ℕ × Call) : SpawnMonster := call (wait s c.1) c.2

/-- A spawn with these blocks. -/
def start (blocks : List (ℕ × SpawnBlock)) (interval : ℕ) : SpawnMonster where
  spawnedMonsterMap := []
  spawnMonsterMap := blocks
  interval := interval
  checkSpawnMonsterEvent := none
  tasks := []
  monsters := []
  nextMonster := 0
  now := 0
  started := false
  cleaned _ := none

/-! ## What a spawn is to do -/

/-- No block is doubled, none is starved, and none is filled again too soon. -/
structure Orderly (s : SpawnMonster) : Prop where
  /-- A block has one live monster at most. -/
  single : ∀ m ∈ s.monsters, ∀ m' ∈ s.monsters, m.block = m'.block → m = m'
  keys : ∀ id n, Assoc.get s.spawnedMonsterMap id = some n → (Assoc.get s.spawnMonsterMap id).isSome = true
  /-- Cleaning up makes no block. -/
  cleanup_keys : ∀ id, (Assoc.get (cleanup s).spawnMonsterMap id).isSome = (Assoc.get s.spawnMonsterMap id).isSome
  /-- A block without a live monster has something to wait for. -/
  fed : s.started = true → ∀ id, (Assoc.get s.spawnMonsterMap id).isSome = true →
    (∀ m ∈ s.monsters, m.block ≠ id) →
    s.checkSpawnMonsterEvent.isSome = true ∨ ∃ task ∈ s.tasks, task.spawnMonsterId = id
  /-- A monster came when the interval of its block had passed since the block was cleaned up. -/
  waited : ∀ m ∈ s.monsters, ∀ sb t, Assoc.get s.spawnMonsterMap m.block = some sb →
    s.cleaned m.block = some t → t + sb.interval ≤ m.placedAt

/-- The interval of a block has passed since it was cleaned up. -/
def Rested (s : SpawnMonster) (id : ℕ) (sb : SpawnBlock) : Prop :=
  ∀ t, s.cleaned id = some t → t + sb.interval ≤ s.now

/-- A delayed spawn for a block that has no monster is for a block that is still there, at whose
clean-up it had not been asked for yet or whose interval has passed since; and where placing fails
at startup, something else is pending. -/
def Fits (w : Surroundings) (s : SpawnMonster) (i : ℕ) (task : SpawnTask) : Prop :=
  if w.placeCreature task.spawnMonsterId then
    ∃ sb, Assoc.get s.spawnMonsterMap task.spawnMonsterId = some sb ∧
      (Rested s task.spawnMonsterId sb ∨
        task.startup = false ∧ ∀ t, s.cleaned task.spawnMonsterId = some t → t < task.made)
  else
    (Assoc.get s.spawnMonsterMap task.spawnMonsterId).isSome = true → task.startup = true →
      s.checkSpawnMonsterEvent.isSome = true ∨
        ∃ other ∈ s.tasks.eraseIdx i, other.spawnMonsterId = task.spawnMonsterId ∧ other.startup = true ∧
          other.interval = 0

/-- A call that keeps a spawn in order, at its time. At startup every block has a monster, gets one
or waits for one, and none too soon; pending spawns fit; and a monster that is taken from the map
does not live. -/
def FittingCall (s : SpawnMonster) : Call → Prop
  | .startup w delayed =>
    (s.checkSpawnMonsterEvent.isSome = true ∨
      ∀ id sb, (id, sb) ∈ s.spawnMonsterMap → (Assoc.get s.spawnedMonsterMap id).isSome = true ∨
        (w.getMonsterType id).isSome = true ∧ (delayed = true ∨ w.placeCreature id = true)) ∧
    (delayed = false → ∀ id sb, (id, sb) ∈ s.spawnMonsterMap → Assoc.get s.spawnedMonsterMap id = none →
      (w.getMonsterType id).isSome = true → w.placeCreature id = true → Rested s id sb)
  | .scheduleSpawn w i => ∀ task, s.tasks[i]? = some task → task.due ≤ s.now → task.interval = 0 →
    Assoc.get s.spawnedMonsterMap task.spawnMonsterId = none → Fits w s i task
  | .removeMonster number => ∀ n, Assoc.get s.spawnedMonsterMap (removeKey s number) = some n → ¬ Alive s n
  | _ => True

/-- The same some milliseconds after the last call. -/
def Fitting (s : SpawnMonster) (c : ℕ × Call) : Prop := FittingCall (wait s c.1) c.2

/-! ## The invariant -/

/-- What holds of the maps and the records. -/
structure Core (s : SpawnMonster) : Prop where
  blocks : Assoc.Distinct s.spawnMonsterMap
  spawned : Assoc.Distinct s.spawnedMonsterMap
  keys : ∀ id n, Assoc.get s.spawnedMonsterMap id = some n → (Assoc.get s.spawnMonsterMap id).isSome = true
  single : ∀ m ∈ s.monsters, ∀ m' ∈ s.monsters, m.block = m'.block → m = m'
  registered : ∀ m ∈ s.monsters, (Assoc.get s.spawnMonsterMap m.block).isSome = true →
    Assoc.get s.spawnedMonsterMap m.block = some m.number
  own : ∀ id n, Assoc.get s.spawnedMonsterMap id = some n → ∀ m ∈ s.monsters, m.number = n → m.block = id
  newMonster : ∀ m ∈ s.monsters, m.number < s.nextMonster
  newSpawned : ∀ id n, Assoc.get s.spawnedMonsterMap id = some n → n < s.nextMonster
  later : ∀ id sb t, Assoc.get s.spawnMonsterMap id = some sb → s.cleaned id = some t → t ≤ sb.lastSpawn
  past : ∀ id t, s.cleaned id = some t → t ≤ s.now
  waited : ∀ m ∈ s.monsters, ∀ sb t, Assoc.get s.spawnMonsterMap m.block = some sb →
    s.cleaned m.block = some t → t + sb.interval ≤ m.placedAt
  made : ∀ task ∈ s.tasks, task.made ≤ s.now
  asked : ∀ task ∈ s.tasks, task.startup = false → ∀ sb t,
    Assoc.get s.spawnMonsterMap task.spawnMonsterId = some sb → s.cleaned task.spawnMonsterId = some t →
    t + sb.interval ≤ task.made ∨ task.made ≤ t

/-- What is pending. -/
structure Inv (s : SpawnMonster) : Prop extends Core s where
  /-- The dead in the map are to be cleaned up. -/
  dead : ∀ id n, Assoc.get s.spawnedMonsterMap id = some n → ¬ Alive s n →
    s.checkSpawnMonsterEvent.isSome = true
  fed : s.started = true → ∀ id, (Assoc.get s.spawnMonsterMap id).isSome = true →
    (∀ m ∈ s.monsters, m.block ≠ id) →
    s.checkSpawnMonsterEvent.isSome = true ∨
      ∃ task ∈ s.tasks, task.spawnMonsterId = id ∧ task.startup = true ∧ task.interval = 0

variable {s : SpawnMonster} {id n number : ℕ} {sb : SpawnBlock} {w : Surroundings}

theorem inv_start {blocks : List (ℕ × SpawnBlock)} (h : Assoc.Distinct blocks) (interval : ℕ) :
    Inv (start blocks interval) where
  blocks := h
  spawned := List.nodup_nil
  keys := nofun
  single := nofun
  registered := nofun
  own := nofun
  newMonster := nofun
  newSpawned := nofun
  later := nofun
  past := nofun
  waited := nofun
  made := nofun
  asked := nofun
  dead := nofun
  fed := nofun

/-! ### Blocks -/

/-- A block keeps its interval. -/
theorem get_setLastSpawn (hid : (Assoc.get s.spawnMonsterMap id).isSome = true) {k : ℕ}
    (h : Assoc.get (setLastSpawn s id).spawnMonsterMap k = some sb) :
    ∃ sb', Assoc.get s.spawnMonsterMap k = some sb' ∧ sb'.interval = sb.interval ∧
      (sb.lastSpawn = sb'.lastSpawn ∨ sb.lastSpawn = s.now) ∧ (k = id → sb.lastSpawn = s.now) := by
  simp only [setLastSpawn, Assoc.get_put] at h
  obtain ⟨old, hold⟩ := Option.isSome_iff_exists.1 hid
  split_ifs at h with hk
  · obtain rfl := Option.some.inj h
    exact ⟨old, hk ▸ hold, by rw [hold]; rfl, .inr rfl, fun _ => rfl⟩
  · exact ⟨sb, h, rfl, .inl rfl, fun e => absurd e hk⟩

theorem isSome_setLastSpawn (hid : (Assoc.get s.spawnMonsterMap id).isSome = true) (k : ℕ) :
    (Assoc.get (setLastSpawn s id).spawnMonsterMap k).isSome = (Assoc.get s.spawnMonsterMap k).isSome := by
  simp only [setLastSpawn, Assoc.get_put]
  split_ifs with hk
  · rw [hk, hid]
    rfl
  · rfl

theorem Core.setLastSpawn (h : Core s) (hid : (Assoc.get s.spawnMonsterMap id).isSome = true) :
    Core (setLastSpawn s id) where
  blocks := h.blocks.put _ _
  spawned := h.spawned
  keys k n hk := (isSome_setLastSpawn hid k).trans (h.keys k n hk)
  single := h.single
  registered m hm hk := h.registered m hm ((isSome_setLastSpawn hid _).symm.trans hk)
  own := h.own
  newMonster := h.newMonster
  newSpawned := h.newSpawned
  later k sb t hk ht := by
    obtain ⟨sb', hsb', -, hlast, -⟩ := get_setLastSpawn hid hk
    rcases hlast with hlast | hlast
    · rw [hlast]
      exact h.later k sb' t hsb' ht
    · rw [hlast]
      exact h.past k t ht
  past := h.past
  waited m hm sb t hk ht := by
    obtain ⟨sb', hsb', hinterval, -⟩ := get_setLastSpawn hid hk
    rw [← hinterval]
    exact h.waited m hm sb' t hsb' ht
  made := h.made
  asked task htask hstartup sb t hk ht := by
    obtain ⟨sb', hsb', hinterval, -⟩ := get_setLastSpawn hid hk
    rw [← hinterval]
    exact h.asked task htask hstartup sb' t hsb' ht

/-- **A new monster**, for a block that has none and has rested. -/
theorem Core.place (h : Core s) (hid : Assoc.get s.spawnMonsterMap id = some sb)
    (hfree : Assoc.get s.spawnedMonsterMap id = none) (hrested : Rested s id sb) : Core (place s id) := by
  have hnone : ∀ m ∈ s.monsters, m.block ≠ id := by
    rintro m hm rfl
    have hin := h.registered m hm (by rw [hid]; rfl)
    rw [hfree] at hin
    exact nomatch hin
  refine { h with
    spawned := h.spawned.put _ _
    keys := fun k n hk => ?_
    single := fun m hm m' hm' e => ?_
    registered := fun m hm hk => ?_
    own := fun k n hk m hm e => ?_
    newMonster := fun m hm => ?_
    newSpawned := fun k n hk => ?_
    waited := fun m hm sb' t hk ht => ?_ }
  · simp only [Spawns.place, Assoc.get_put] at hk
    split_ifs at hk with e
    · rw [e]
      exact Option.isSome_of_eq_some hid
    · exact h.keys k n hk
  · rcases List.mem_cons.1 hm with rfl | hm <;> rcases List.mem_cons.1 hm' with rfl | hm'
    · rfl
    · exact absurd e.symm (hnone m' hm')
    · exact absurd e (hnone m hm)
    · exact h.single m hm m' hm' e
  · simp only [Spawns.place, Assoc.get_put]
    rcases List.mem_cons.1 hm with rfl | hm
    · rw [if_pos rfl]
    · rw [if_neg (hnone m hm)]
      exact h.registered m hm hk
  · simp only [Spawns.place, Assoc.get_put] at hk
    rcases List.mem_cons.1 hm with rfl | hm
    · dsimp only at e ⊢
      split_ifs at hk with hk'
      · exact hk'.symm
      · exact absurd (h.newSpawned k n hk) (by omega)
    · split_ifs at hk with hk'
      · have := h.newMonster m hm
        have := Option.some.inj hk
        omega
      · exact h.own k n hk m hm e
  · rcases List.mem_cons.1 hm with rfl | hm
    · exact Nat.lt_succ_self _
    · exact (h.newMonster m hm).trans (Nat.lt_succ_self _)
  · simp only [Spawns.place, Assoc.get_put] at hk
    split_ifs at hk
    · rw [← Option.some.inj hk]
      exact Nat.lt_succ_self _
    · exact (h.newSpawned k n hk).trans (Nat.lt_succ_self _)
  · rcases List.mem_cons.1 hm with rfl | hm
    · have hsame : sb = sb' := Option.some.inj (hid.symm.trans hk)
      rw [← hsame]
      exact hrested t ht
    · exact h.waited m hm sb' t hk ht

/-! ### Cleaning up -/

theorem Core.cleanBlock (h : Core s) (hid : (Assoc.get s.spawnMonsterMap id).isSome = true)
    (hdead : ∀ n, Assoc.get s.spawnedMonsterMap id = some n → ¬ Alive s n) : Core (cleanBlock s id) := by
  have hnone : ∀ m ∈ s.monsters, m.block ≠ id := by
    rintro m hm rfl
    exact hdead m.number (h.registered m hm hid) ⟨m, hm, rfl⟩
  have hset := h.setLastSpawn hid
  refine { hset with
    spawned := h.spawned.erase _
    keys := fun k n hk => ?_
    registered := fun m hm hk => ?_
    own := fun k n hk => ?_
    newSpawned := fun k n hk => ?_
    later := fun k sb t hk ht => ?_
    past := fun k t ht => ?_
    waited := fun m hm sb t hk ht => ?_
    asked := fun task htask hstartup sb t hk ht => ?_ }
  · simp only [Spawns.cleanBlock, Assoc.get_erase] at hk
    split_ifs at hk
    exact hset.keys k n hk
  · simp only [Spawns.cleanBlock, Assoc.get_erase]
    rw [if_neg (hnone m hm)]
    exact hset.registered m hm hk
  · simp only [Spawns.cleanBlock, Assoc.get_erase] at hk
    split_ifs at hk
    exact h.own k n hk
  · simp only [Spawns.cleanBlock, Assoc.get_erase] at hk
    split_ifs at hk
    exact h.newSpawned k n hk
  · by_cases hself : k = id
    · obtain ⟨-, -, -, -, hlast⟩ := get_setLastSpawn hid hk
      simp only [Spawns.cleanBlock, hself, Function.update_self, Option.some.injEq] at ht
      rw [hlast hself, ← ht]
    · simp only [Spawns.cleanBlock, Function.update_of_ne hself] at ht
      exact hset.later k sb t hk ht
  · by_cases hself : k = id
    · simp only [Spawns.cleanBlock, hself, Function.update_self, Option.some.injEq] at ht
      exact ht.symm.le
    · simp only [Spawns.cleanBlock, Function.update_of_ne hself] at ht
      exact h.past k t ht
  · simp only [Spawns.cleanBlock, Function.update_of_ne (hnone m hm)] at ht
    exact hset.waited m hm sb t hk ht
  · by_cases hself : task.spawnMonsterId = id
    · simp only [Spawns.cleanBlock, hself, Function.update_self, Option.some.injEq] at ht
      exact .inr (ht ▸ h.made task htask)
    · simp only [Spawns.cleanBlock, Function.update_of_ne hself] at ht
      exact hset.asked task htask hstartup sb t hk ht

/-- What cleaning up leaves as it was. -/
structure CleanedUp (s s' : SpawnMonster) (ids : List ℕ) : Prop where
  monsters : s'.monsters = s.monsters
  tasks : s'.tasks = s.tasks
  event : s'.checkSpawnMonsterEvent = s.checkSpawnMonsterEvent
  started : s'.started = s.started
  blocks : ∀ k, (Assoc.get s'.spawnMonsterMap k).isSome = (Assoc.get s.spawnMonsterMap k).isSome
  spawned : ∀ k, Assoc.get s'.spawnedMonsterMap k = if k ∈ ids then none else Assoc.get s.spawnedMonsterMap k

/-- Blocks that are there and whose monsters are dead are cleaned up one after another. -/
theorem Core.foldl_cleanBlock {ids : List ℕ} : ∀ {s : SpawnMonster}, Core s →
    (∀ id ∈ ids, (Assoc.get s.spawnMonsterMap id).isSome = true) →
    (∀ id ∈ ids, ∀ n, Assoc.get s.spawnedMonsterMap id = some n → ¬ Alive s n) →
    Core (ids.foldl Spawns.cleanBlock s) ∧ CleanedUp s (ids.foldl Spawns.cleanBlock s) ids := by
  induction ids with
  | nil => exact fun h _ _ => ⟨h, rfl, rfl, rfl, rfl, fun _ => rfl, fun _ => by simp⟩
  | cons id ids ih =>
    intro s h hids hdead
    have hid := hids id List.mem_cons_self
    have hblocks : ∀ k, (Assoc.get (Spawns.cleanBlock s id).spawnMonsterMap k).isSome =
        (Assoc.get s.spawnMonsterMap k).isSome := isSome_setLastSpawn hid
    have hspawned : ∀ k, Assoc.get (Spawns.cleanBlock s id).spawnedMonsterMap k =
        if k = id then none else Assoc.get s.spawnedMonsterMap k := Assoc.get_erase _ _
    obtain ⟨hcore, hrest⟩ := ih (h.cleanBlock hid (hdead id List.mem_cons_self))
      (fun k hk => (hblocks k).trans (hids k (List.mem_cons_of_mem _ hk)))
      (fun k hk n hn => by
        rw [hspawned] at hn
        split_ifs at hn
        exact hdead k (List.mem_cons_of_mem _ hk) n hn)
    refine ⟨hcore, hrest.monsters, hrest.tasks, hrest.event, hrest.started,
      fun k => (hrest.blocks k).trans (hblocks k), fun k => ?_⟩
    rw [List.foldl_cons, hrest.spawned, hspawned]
    by_cases hself : k = id <;> by_cases hk : k ∈ ids <;> simp [hself, hk]

theorem mem_removeList (h : Core s) : id ∈ removeList s ↔
    ∃ n, Assoc.get s.spawnedMonsterMap id = some n ∧ ¬ Alive s n := by
  rw [removeList, List.mem_map]
  constructor
  · rintro ⟨⟨k, n⟩, hp, rfl⟩
    obtain ⟨hin, hdead⟩ := List.mem_filter.1 hp
    exact ⟨n, (Assoc.get_eq_some_iff h.spawned).2 hin, of_decide_eq_true hdead⟩
  · rintro ⟨n, hn, hdead⟩
    exact ⟨(id, n), List.mem_filter.2 ⟨Assoc.mem_of_get hn, decide_eq_true hdead⟩, rfl⟩

/-- **Cleaning up** takes the dead out of the map. -/
theorem Core.cleanup (h : Core s) : Core (cleanup s) ∧ CleanedUp s (cleanup s) (removeList s) := by
  refine h.foldl_cleanBlock (fun id hid => ?_) fun id hid n hn => ?_
  · obtain ⟨n, hn, -⟩ := (mem_removeList h).1 hid
    exact h.keys id n hn
  · obtain ⟨n', hn', hdead⟩ := (mem_removeList h).1 hid
    rw [hn] at hn'
    rwa [Option.some.inj hn']

/-! ### Rounds -/

/-- What the rounds of a call keep: monsters, entries and pending spawns are only added, and a new
entry is of a live monster. -/
structure Grown (s s' : SpawnMonster) : Prop where
  event : s'.checkSpawnMonsterEvent = s.checkSpawnMonsterEvent
  now : s'.now = s.now
  started : s'.started = s.started
  cleaned : s'.cleaned = s.cleaned
  monsters : ∀ m ∈ s.monsters, m ∈ s'.monsters
  tasks : ∀ task ∈ s.tasks, task ∈ s'.tasks
  kept : ∀ k n, Assoc.get s.spawnedMonsterMap k = some n → Assoc.get s'.spawnedMonsterMap k = some n
  entered : ∀ k n, Assoc.get s'.spawnedMonsterMap k = some n →
    Assoc.get s.spawnedMonsterMap k = some n ∨ Alive s' n
  blocks : ∀ k, (Assoc.get s'.spawnMonsterMap k).isSome = (Assoc.get s.spawnMonsterMap k).isSome
  intervals : ∀ k sb', Assoc.get s'.spawnMonsterMap k = some sb' →
    ∃ sb, Assoc.get s.spawnMonsterMap k = some sb ∧ sb.interval = sb'.interval

namespace Grown

theorem refl (s : SpawnMonster) : Grown s s where
  event := rfl
  now := rfl
  started := rfl
  cleaned := rfl
  monsters _ hm := hm
  tasks _ htask := htask
  kept _ _ hk := hk
  entered _ _ hk := .inl hk
  blocks _ := rfl
  intervals _ sb hk := ⟨sb, hk, rfl⟩

variable {s s' s'' : SpawnMonster} {id : ℕ} {sb : SpawnBlock} {w : Surroundings}

theorem alive (h : Grown s s') {n : ℕ} (hn : Alive s n) : Alive s' n := by
  obtain ⟨m, hm, rfl⟩ := hn
  exact ⟨m, h.monsters m hm, rfl⟩

theorem trans (h : Grown s s') (h' : Grown s' s'') : Grown s s'' where
  event := h'.event.trans h.event
  now := h'.now.trans h.now
  started := h'.started.trans h.started
  cleaned := h'.cleaned.trans h.cleaned
  monsters m hm := h'.monsters m (h.monsters m hm)
  tasks task htask := h'.tasks task (h.tasks task htask)
  kept k n hk := h'.kept k n (h.kept k n hk)
  entered k n hk := by
    rcases h'.entered k n hk with hk | hn
    · exact (h.entered k n hk).imp_right h'.alive
    · exact .inr hn
  blocks k := (h'.blocks k).trans (h.blocks k)
  intervals k sb hk := by
    obtain ⟨sb', hk', hinterval'⟩ := h'.intervals k sb hk
    obtain ⟨sb'', hk'', hinterval''⟩ := h.intervals k sb' hk'
    exact ⟨sb'', hk'', hinterval''.trans hinterval'⟩

theorem setLastSpawn (hid : (Assoc.get s.spawnMonsterMap id).isSome = true) : Grown s (setLastSpawn s id) :=
  { refl s with
    blocks := isSome_setLastSpawn hid
    intervals := fun k sb hk => by
      obtain ⟨sb', hk', hinterval, -⟩ := get_setLastSpawn hid hk
      exact ⟨sb', hk', hinterval⟩ }

theorem place (hfree : Assoc.get s.spawnedMonsterMap id = none) : Grown s (place s id) :=
  { refl s with
    monsters := fun m hm => List.mem_cons_of_mem _ hm
    kept := fun k n hk => by
      simp only [Spawns.place, Assoc.get_put]
      have hne : k ≠ id := by
        rintro rfl
        simp [hfree] at hk
      rwa [if_neg hne]
    entered := fun k n hk => by
      simp only [Spawns.place, Assoc.get_put] at hk
      split_ifs at hk
      · exact .inr ⟨_, List.mem_cons_self, Option.some.inj hk⟩
      · exact .inl hk }

theorem addTask (s : SpawnMonster) (task : SpawnTask) : Grown s { s with tasks := s.tasks ++ [task] } :=
  { refl s with tasks := fun _ htask => List.mem_append_left _ htask }

/-- Entries of the dead are old. -/
theorem dead (h : Grown s s') {k n : ℕ} (hk : Assoc.get s'.spawnedMonsterMap k = some n) (hn : ¬ Alive s' n) :
    Assoc.get s.spawnedMonsterMap k = some n ∧ ¬ Alive s n :=
  ⟨(h.entered k n hk).resolve_right hn, fun halive => hn (h.alive halive)⟩

theorem free (h : Grown s s') {k : ℕ} (hk : Assoc.get s'.spawnedMonsterMap k = none) :
    Assoc.get s.spawnedMonsterMap k = none := by
  cases hold : Assoc.get s.spawnedMonsterMap k with
  | none => rfl
  | some n => rw [h.kept k n hold] at hk; exact nomatch hk

end Grown

/-- A block that is free for a monster that can be placed is there and has rested. -/
def Ready (w : Surroundings) (s : SpawnMonster) (id : ℕ) : Prop :=
  Assoc.get s.spawnedMonsterMap id = none → w.placeCreature id = true →
    ∃ sb, Assoc.get s.spawnMonsterMap id = some sb ∧ Rested s id sb

theorem Core.spawnMonster (h : Core s) (copied : Bool) (hready : Ready w s id)
    (hid : copied = false → (Assoc.get s.spawnMonsterMap id).isSome = true) :
    Core (spawnMonster w s id copied) ∧ Grown s (spawnMonster w s id copied) := by
  unfold Spawns.spawnMonster
  split_ifs with hin hplace hcopied
  · exact ⟨h, .refl s⟩
  · exact ⟨h, .refl s⟩
  all_goals
    have hfree := Option.not_isSome_iff_eq_none.1 hin
    obtain ⟨sb, hsb, hrested⟩ := hready hfree (by simpa using hplace)
  · exact ⟨h.place hsb hfree hrested, .place hfree⟩
  · have hblock : (Assoc.get (Spawns.place s id).spawnMonsterMap id).isSome = true := hid (by simpa using hcopied)
    exact ⟨(h.place hsb hfree hrested).setLastSpawn hblock, (Grown.place hfree).trans (.setLastSpawn hblock)⟩

/-- A new pending spawn of a block that is there and has rested, or of a startup. -/
theorem Core.addTask (h : Core s) {task : SpawnTask} (hmade : task.made ≤ s.now)
    (hasked : task.startup = false → ∀ sb t, Assoc.get s.spawnMonsterMap task.spawnMonsterId = some sb →
      s.cleaned task.spawnMonsterId = some t → t + sb.interval ≤ task.made ∨ task.made ≤ t) :
    Core { s with tasks := s.tasks ++ [task] } :=
  { h with
    made := fun task' htask => by
      rcases List.mem_append.1 htask with htask | htask
      · exact h.made task' htask
      · rwa [List.mem_singleton.1 htask]
    asked := fun task' htask => by
      rcases List.mem_append.1 htask with htask | htask
      · exact h.asked task' htask
      · rwa [List.mem_singleton.1 htask] }

/-- **A round of a check.** -/
theorem Core.checkBlock (h : Core s) (w : Surroundings) (id : ℕ) :
    Core (checkBlock w s id) ∧ Grown s (checkBlock w s id) := by
  unfold Spawns.checkBlock
  cases hsb : Assoc.get s.spawnMonsterMap id with
  | none => exact ⟨h, .refl s⟩
  | some sb =>
    have hid : (Assoc.get s.spawnMonsterMap id).isSome = true := Option.isSome_of_eq_some hsb
    dsimp only
    by_cases hin : (Assoc.get s.spawnedMonsterMap id).isSome = true
    · rw [if_pos hin]
      exact ⟨h, .refl s⟩
    rw [if_neg hin]
    cases w.getMonsterType id with
    | none => exact ⟨h, .refl s⟩
    | some mType =>
      dsimp only
      split_ifs with hseen hearly hblockable
      · exact ⟨h.setLastSpawn hid, .setLastSpawn hid⟩
      · exact ⟨h, .refl s⟩
      all_goals
        have hrested : Rested s id sb := fun t ht =>
          (Nat.add_le_add_right (h.later id sb t hsb ht) _).trans (Nat.le_of_not_lt hearly)
      · exact h.spawnMonster false (fun _ _ => ⟨sb, hsb, hrested⟩) fun _ => hid
      · rw [Spawns.scheduleSpawn, if_neg (by decide)]
        refine ⟨h.addTask le_rfl fun _ sb' t hk ht => .inl ?_, .addTask s _⟩
        rw [hsb] at hk
        rw [← Option.some.inj hk]
        exact hrested t ht

theorem Core.foldl_checkBlock (w : Surroundings) {ids : List ℕ} : ∀ {s : SpawnMonster}, Core s →
    Core (ids.foldl (Spawns.checkBlock w) s) ∧ Grown s (ids.foldl (Spawns.checkBlock w) s) := by
  induction ids with
  | nil => exact fun h => ⟨h, .refl _⟩
  | cons id ids ih =>
    intro s h
    obtain ⟨hcore, hgrown⟩ := h.checkBlock w id
    obtain ⟨hcore', hgrown'⟩ := ih hcore
    exact ⟨hcore', hgrown.trans hgrown'⟩

/-! ### Calls -/

theorem Inv.grown {s' : SpawnMonster} (h : Inv s) (hcore : Core s') (hgrown : Grown s s') : Inv s' where
  toCore := hcore
  dead k n hk hn := by
    obtain ⟨hold, hdead⟩ := hgrown.dead hk hn
    rw [hgrown.event]
    exact h.dead k n hold hdead
  fed hstarted k hk hnone := by
    rw [hgrown.event]
    have hold := h.fed (hgrown.started ▸ hstarted) k (hgrown.blocks k ▸ hk)
      fun m hm => hnone m (hgrown.monsters m hm)
    exact hold.imp_right fun ⟨task, htask, hrest⟩ => ⟨task, hgrown.tasks task htask, hrest⟩

/-- When every entry is of a live monster, a block without one makes the map the smaller one. -/
theorem Core.length_lt (h : Core s) (hfull : ∀ k n, Assoc.get s.spawnedMonsterMap k = some n → Alive s n)
    (hid : (Assoc.get s.spawnMonsterMap id).isSome = true) (hnone : ∀ m ∈ s.monsters, m.block ≠ id) :
    s.spawnedMonsterMap.length < s.spawnMonsterMap.length := by
  have hfree : id ∉ s.spawnedMonsterMap.map Prod.fst := by
    rintro hin
    obtain ⟨⟨k, n⟩, hp, rfl⟩ := List.mem_map.1 hin
    have hk := (Assoc.get_eq_some_iff h.spawned).2 hp
    obtain ⟨m, hm, hnumber⟩ := hfull k n hk
    exact hnone m hm (h.own k n hk m hm hnumber)
  have hkeys : ∀ {l : List (ℕ × SpawnBlock)} {k : ℕ}, (Assoc.get l k).isSome = true → k ∈ l.map Prod.fst := by
    intro l k hk
    obtain ⟨v, hv⟩ := Option.isSome_iff_exists.1 hk
    exact List.mem_map.2 ⟨(k, v), Assoc.mem_of_get hv, rfl⟩
  have hsub : id :: s.spawnedMonsterMap.map Prod.fst ⊆ s.spawnMonsterMap.map Prod.fst := by
    refine List.cons_subset.2 ⟨hkeys hid, fun k hk => ?_⟩
    obtain ⟨⟨k, n⟩, hp, rfl⟩ := List.mem_map.1 hk
    exact hkeys (h.keys k n ((Assoc.get_eq_some_iff h.spawned).2 hp))
  have hlength := (List.subperm_of_subset (List.nodup_cons.2 ⟨hfree, h.spawned⟩) hsub).length_le
  simpa using hlength

/-- **A check.** -/
theorem Inv.checkSpawnMonster (h : Inv s) (w : Surroundings) : Inv (checkSpawnMonster w s) := by
  unfold Spawns.checkSpawnMonster
  split_ifs with hevent
  · exact h
  have hcleared : Core { s with checkSpawnMonsterEvent := none } := { h.toCore with }
  obtain ⟨hclean, hcleaned⟩ := hcleared.cleanup
  set s₁ := cleanup { s with checkSpawnMonsterEvent := none } with hs₁
  obtain ⟨hcore, hgrown⟩ := hclean.foldl_checkBlock w
  have hfull₁ : ∀ k n, Assoc.get s₁.spawnedMonsterMap k = some n → Alive s₁ n := by
    intro k n hk
    rw [hcleaned.spawned] at hk
    split_ifs at hk with hremoved
    by_contra hdead
    refine hremoved ((mem_removeList hcleared).2 ⟨n, hk, ?_⟩)
    rintro ⟨m, hm, hn⟩
    exact hdead ⟨m, hcleaned.monsters ▸ hm, hn⟩
  dsimp only
  set s₂ := (s₁.spawnMonsterMap.map Prod.fst).foldl (Spawns.checkBlock w) s₁
  have hfull₂ : ∀ k n, Assoc.get s₂.spawnedMonsterMap k = some n → Alive s₂ n := fun k n hk =>
    (hgrown.entered k n hk).elim (fun hold => hgrown.alive (hfull₁ k n hold)) id
  split_ifs with hsize
  · exact { hcore with
      dead := fun _ _ _ _ => rfl
      fed := fun _ _ _ _ => .inl rfl }
  · exact { hcore with
      dead := fun k n hk hn => absurd (hfull₂ k n hk) hn
      fed := fun _ k hk hnone => absurd (hcore.length_lt hfull₂ hk hnone) hsize }

/-- A block gets a monster at startup, or waits for one, or something else is pending. -/
def Served (s : SpawnMonster) (id : ℕ) : Prop :=
  s.checkSpawnMonsterEvent.isSome = true ∨ (Assoc.get s.spawnedMonsterMap id).isSome = true ∨
    ∃ task ∈ s.tasks, task.spawnMonsterId = id ∧ task.startup = true ∧ task.interval = 0

/-- What startup asks of a block. -/
structure Startable (w : Surroundings) (delayed : Bool) (s : SpawnMonster) (id : ℕ) : Prop where
  block : (Assoc.get s.spawnMonsterMap id).isSome = true
  served : s.checkSpawnMonsterEvent.isSome = true ∨ (Assoc.get s.spawnedMonsterMap id).isSome = true ∨
    (w.getMonsterType id).isSome = true ∧ (delayed = true ∨ w.placeCreature id = true)
  ready : delayed = false → (w.getMonsterType id).isSome = true → Ready w s id

theorem Served.grown {s' : SpawnMonster} (h : Served s id) (hgrown : Grown s s') : Served s' id := by
  refine h.imp (fun hevent => hgrown.event ▸ hevent) (Or.imp (fun hin => ?_) fun ⟨task, htask, hrest⟩ => ?_)
  · obtain ⟨n, hn⟩ := Option.isSome_iff_exists.1 hin
    exact Option.isSome_of_eq_some (hgrown.kept id n hn)
  · exact ⟨task, hgrown.tasks task htask, hrest⟩

theorem Startable.grown {s' : SpawnMonster} {delayed : Bool} (h : Startable w delayed s id) (hgrown : Grown s s') :
    Startable w delayed s' id where
  block := (hgrown.blocks id).trans h.block
  served := by
    refine h.served.imp (fun hevent => hgrown.event ▸ hevent) (Or.imp_left fun hin => ?_)
    obtain ⟨n, hn⟩ := Option.isSome_iff_exists.1 hin
    exact Option.isSome_of_eq_some (hgrown.kept id n hn)
  ready hdelayed htype hfree hplace := by
    obtain ⟨sb, hsb, hrested⟩ := h.ready hdelayed htype (hgrown.free hfree) hplace
    obtain ⟨sb', hsb'⟩ := Option.isSome_iff_exists.1 ((hgrown.blocks id).trans h.block)
    obtain ⟨old, hold, hinterval⟩ := hgrown.intervals id sb' hsb'
    rw [hsb] at hold
    refine ⟨sb', hsb', fun t ht => ?_⟩
    rw [← hinterval, ← Option.some.inj hold, hgrown.now]
    exact hrested t (hgrown.cleaned ▸ ht)

/-- **A round of startup.** -/
theorem Core.startBlock (h : Core s) {delayed : Bool} (hstart : Startable w delayed s id) :
    Core (startBlock w delayed s id) ∧ Grown s (startBlock w delayed s id) ∧ Served (startBlock w delayed s id) id := by
  unfold Spawns.startBlock
  split_ifs with hnone hdelayed
  · refine ⟨h, .refl s, hstart.served.imp_right fun hserved => .inl (hserved.resolve_right fun hsome => ?_)⟩
    rw [Option.isNone_iff_eq_none.1 hnone] at hsome
    exact nomatch hsome.1
  · have hnew : Core { s with tasks := s.tasks ++ [⟨id, 0, true, s.now, s.now⟩] } :=
      h.addTask le_rfl fun hfalse => nomatch hfalse
    exact ⟨hnew, .addTask s _, .inr (.inr ⟨_, List.mem_append_right _ (List.mem_singleton_self _), rfl, rfl, rfl⟩)⟩
  · rw [Spawns.scheduleSpawn, if_pos rfl]
    have hready := hstart.ready (by simpa using hdelayed) (by simpa [Option.isSome_iff_ne_none] using hnone)
    obtain ⟨hcore, hgrown⟩ := h.spawnMonster false hready fun _ => hstart.block
    refine ⟨hcore, hgrown, ?_⟩
    rcases hstart.served with hevent | hin | ⟨-, hplace⟩
    · exact .inl (hgrown.event ▸ hevent)
    · obtain ⟨n, hn⟩ := Option.isSome_iff_exists.1 hin
      exact .inr (.inl (Option.isSome_of_eq_some (hgrown.kept id n hn)))
    · refine .inr (.inl ?_)
      have hplaced : w.placeCreature id = true := hplace.resolve_left hdelayed
      by_cases hin : (Assoc.get s.spawnedMonsterMap id).isSome = true
      · simp [Spawns.spawnMonster, hin]
      · simp [Spawns.spawnMonster, hin, hplaced, Spawns.setLastSpawn, Spawns.place, Assoc.get_put]

theorem Core.foldl_startBlock {delayed : Bool} {ids : List ℕ} : ∀ {s : SpawnMonster}, Core s →
    (∀ id ∈ ids, Startable w delayed s id) →
    Core (ids.foldl (Spawns.startBlock w delayed) s) ∧ Grown s (ids.foldl (Spawns.startBlock w delayed) s) ∧
      ∀ id ∈ ids, Served (ids.foldl (Spawns.startBlock w delayed) s) id := by
  induction ids with
  | nil => exact fun h _ => ⟨h, .refl _, fun id hid => absurd hid List.not_mem_nil⟩
  | cons id ids ih =>
    intro s h hstart
    obtain ⟨hcore, hgrown, hserved⟩ := h.startBlock (hstart id List.mem_cons_self)
    obtain ⟨hcore', hgrown', hserved'⟩ := ih hcore fun k hk => (hstart k (List.mem_cons_of_mem _ hk)).grown hgrown
    refine ⟨hcore', hgrown.trans hgrown', fun k hk => ?_⟩
    rcases List.mem_cons.1 hk with rfl | hk
    · exact hserved.grown hgrown'
    · exact hserved' k hk

theorem Inv.startup (h : Inv s) {delayed : Bool} (hfits : FittingCall s (.startup w delayed)) :
    Inv (startup w s delayed) := by
  have hkey : ∀ id ∈ s.spawnMonsterMap.map Prod.fst, ∃ sb, (id, sb) ∈ s.spawnMonsterMap := fun id hid => by
    obtain ⟨⟨k, sb⟩, hp, rfl⟩ := List.mem_map.1 hid
    exact ⟨sb, hp⟩
  have hstart : ∀ id ∈ s.spawnMonsterMap.map Prod.fst, Startable w delayed s id := by
    intro id hid
    obtain ⟨sb, hp⟩ := hkey id hid
    have hget := (Assoc.get_eq_some_iff h.blocks).2 hp
    exact ⟨Option.isSome_of_eq_some hget, hfits.1.imp_right fun hall => hall id sb hp,
      fun hdelayed htype hfree hplace => ⟨sb, hget, hfits.2 hdelayed id sb hp hfree htype hplace⟩⟩
  obtain ⟨hcore, hgrown, hserved⟩ := h.foldl_startBlock hstart
  have hdead := (h.grown hcore hgrown).dead
  refine { hcore with dead := hdead, fed := fun _ id hid hnone => ?_ }
  have hin : id ∈ s.spawnMonsterMap.map Prod.fst := by
    obtain ⟨sb, hsb⟩ := Option.isSome_iff_exists.1 ((hgrown.blocks id).symm.trans hid)
    exact List.mem_map.2 ⟨(id, sb), Assoc.mem_of_get hsb, rfl⟩
  rcases hserved id hin with hevent | hentry | hpending
  · exact .inl hevent
  · -- the entry is of a dead monster, which is to be cleaned up
    obtain ⟨n, hn⟩ := Option.isSome_iff_exists.1 hentry
    exact .inl (hdead id n hn fun ⟨m, hm, hnumber⟩ => hnone m hm (hcore.own id n hn m hm hnumber))
  · exact .inr hpending

theorem Core.eraseTask (h : Core s) (i : ℕ) : Core { s with tasks := s.tasks.eraseIdx i } :=
  { h with
    made := fun task htask => h.made task (List.mem_of_mem_eraseIdx htask)
    asked := fun task htask => h.asked task (List.mem_of_mem_eraseIdx htask) }

theorem mem_eraseIdx_or_eq {i : ℕ} {task other : SpawnTask} (htask : s.tasks[i]? = some task)
    (hother : other ∈ s.tasks) : other ∈ s.tasks.eraseIdx i ∨ other = task := by
  obtain ⟨j, hj⟩ := List.mem_iff_getElem?.1 hother
  by_cases hij : j = i
  · rw [hij, htask] at hj
    exact .inr (Option.some.inj hj).symm
  · exact .inl (List.mem_eraseIdx_iff_getElem?.2 ⟨j, hij, hj⟩)

/-- A pending spawn that fits finds its block ready. -/
theorem Core.ready_of_fits (h : Core s) {i : ℕ} {task : SpawnTask} (htask : s.tasks[i]? = some task)
    (hfits : Assoc.get s.spawnedMonsterMap task.spawnMonsterId = none → Fits w s i task) :
    Ready w { s with tasks := s.tasks.eraseIdx i } task.spawnMonsterId := by
  have hin : task ∈ s.tasks := List.mem_of_getElem? htask
  intro hfree hplace
  have hfit := hfits hfree
  rw [Fits, if_pos hplace] at hfit
  obtain ⟨sb, hsb, hrested | ⟨hstartup, hbefore⟩⟩ := hfit
  · exact ⟨sb, hsb, hrested⟩
  · refine ⟨sb, hsb, fun t ht => ?_⟩
    rcases h.asked task hin hstartup sb t hsb ht with hrested | hlate
    · exact hrested.trans (h.made task hin)
    · exact absurd (hbefore t ht) (Nat.not_lt.2 hlate)

/-- **A pending spawn comes** into its block. -/
theorem Inv.fire (h : Inv s) {i : ℕ} {task : SpawnTask} (htask : s.tasks[i]? = some task)
    (hfits : Assoc.get s.spawnedMonsterMap task.spawnMonsterId = none → Fits w s i task) :
    Inv (spawnMonster w { s with tasks := s.tasks.eraseIdx i } task.spawnMonsterId true) := by
  obtain ⟨hnew, hgrown⟩ := (h.eraseTask i).spawnMonster true (h.ready_of_fits htask hfits) (by simp)
  refine { hnew with
    dead := fun k n hk hn => ?_
    fed := fun hstarted k hk hnone => ?_ }
  · obtain ⟨hold, hdead⟩ := hgrown.dead hk hn
    rw [hgrown.event]
    exact h.dead k n hold hdead
  · rw [hgrown.event]
    have hwaits := h.fed (hgrown.started ▸ hstarted) k (hgrown.blocks k ▸ hk)
      fun m hm => hnone m (hgrown.monsters m hm)
    rcases hwaits with hevent | ⟨other, hother, hid, hstartup, hinterval⟩
    · exact .inl hevent
    rcases mem_eraseIdx_or_eq htask hother with hrest | rfl
    · exact .inr ⟨other, hgrown.tasks other hrest, hid, hstartup, hinterval⟩
    cases hentry : Assoc.get s.spawnedMonsterMap k with
    | some n =>
      refine .inl (h.dead k n hentry ?_)
      rintro ⟨m, hm, hnumber⟩
      exact hnone m (hgrown.monsters m hm) (h.own k n hentry m hm hnumber)
    | none =>
      have hfree : Assoc.get s.spawnedMonsterMap other.spawnMonsterId = none := hid ▸ hentry
      by_cases hplace : w.placeCreature other.spawnMonsterId = true
      · refine absurd hid (hnone ⟨s.nextMonster, other.spawnMonsterId, s.now⟩ ?_)
        simp [Spawns.spawnMonster, hfree, hplace, Spawns.place]
      · have hfit := hfits hfree
        rw [Fits, if_neg hplace, hid] at hfit
        rcases hfit (hgrown.blocks k ▸ hk) hstartup with hevent | ⟨o, ho, hrest⟩
        · exact .inl hevent
        · exact .inr ⟨o, hgrown.tasks o ho, hrest⟩

/-- A pending spawn goes on waiting. -/
theorem Inv.requeue (h : Inv s) {i : ℕ} {task : SpawnTask} (htask : s.tasks[i]? = some task)
    (hinterval : task.interval ≠ 0) (interval due : ℕ) :
    Inv { s with
      tasks := s.tasks.eraseIdx i ++ [⟨task.spawnMonsterId, interval, task.startup, due, task.made⟩] } := by
  have hin : task ∈ s.tasks := List.mem_of_getElem? htask
  have hnew : Core { s with
      tasks := s.tasks.eraseIdx i ++ [⟨task.spawnMonsterId, interval, task.startup, due, task.made⟩] } :=
    (h.eraseTask i).addTask (h.made task hin) (h.asked task hin)
  refine { hnew with dead := h.dead, fed := fun hstarted k hk hnone => ?_ }
  rcases h.fed hstarted k hk hnone with hevent | ⟨other, hother, hid, hstartup, hzero⟩
  · exact .inl hevent
  refine .inr ?_
  rcases mem_eraseIdx_or_eq htask hother with hrest | rfl
  · exact ⟨other, List.mem_append_left _ hrest, hid, hstartup, hzero⟩
  · exact absurd hzero hinterval

theorem Inv.scheduleSpawn (h : Inv s) {i : ℕ} (hfits : FittingCall s (.scheduleSpawn w i)) :
    Inv (call s (.scheduleSpawn w i)) := by
  cases htask : s.tasks[i]? with
  | none => simpa only [call, htask] using h
  | some task =>
    simp only [call, htask]
    split_ifs with hdue
    · unfold Spawns.scheduleSpawn
      split_ifs with hzero
      · exact h.fire htask (hfits task htask hdue hzero)
      · exact h.requeue htask hzero _ _
    · exact h

theorem Inv.wait (h : Inv s) (elapsed : ℕ) : Inv (wait s elapsed) :=
  { h with
    past := fun id t ht => (h.past id t ht).trans (Nat.le_add_right _ _)
    made := fun task htask => (h.made task htask).trans (Nat.le_add_right _ _) }

/-- A monster dies, and a check is pending. -/
theorem Inv.onRemoveCreature (h : Inv s) (number : ℕ) : Inv (onRemoveCreature s number) := by
  unfold Spawns.onRemoveCreature
  split_ifs with halive
  swap
  · exact h
  have hsub : ∀ m ∈ s.monsters.filter (fun m => m.number ≠ number), m ∈ s.monsters := fun _ =>
    List.mem_of_mem_filter
  have hcore : Core { s with monsters := s.monsters.filter fun m => m.number ≠ number } :=
    { h.toCore with
      single := fun m hm m' hm' => h.single m (hsub m hm) m' (hsub m' hm')
      registered := fun m hm => h.registered m (hsub m hm)
      own := fun k n hk m hm => h.own k n hk m (hsub m hm)
      newMonster := fun m hm => h.newMonster m (hsub m hm)
      waited := fun m hm => h.waited m (hsub m hm) }
  have hchecked : Core (startSpawnMonsterCheck { s with monsters := s.monsters.filter fun m => m.number ≠ number }) ∧
      (startSpawnMonsterCheck { s with
        monsters := s.monsters.filter fun m => m.number ≠ number }).checkSpawnMonsterEvent.isSome = true := by
    unfold startSpawnMonsterCheck
    split_ifs with hevent
    · exact ⟨hcore, hevent⟩
    · exact ⟨{ hcore with }, rfl⟩
  exact { hchecked.1 with
    dead := fun _ _ _ _ => hchecked.2
    fed := fun _ _ _ _ => .inl hchecked.2 }

/-- An entry of a dead monster goes. -/
theorem Inv.removeMonster (h : Inv s) (hfits : FittingCall s (.removeMonster number)) :
    Inv (removeMonster s number) := by
  have hget : ∀ k n, Assoc.get (Spawns.removeMonster s number).spawnedMonsterMap k = some n →
      Assoc.get s.spawnedMonsterMap k = some n := by
    intro k n hk
    simp only [Spawns.removeMonster, Assoc.get_erase] at hk
    split_ifs at hk
    exact hk
  refine { h with
    spawned := h.spawned.erase _
    keys := fun k n hk => h.keys k n (hget k n hk)
    registered := fun m hm hblock => ?_
    own := fun k n hk => h.own k n (hget k n hk)
    newSpawned := fun k n hk => h.newSpawned k n (hget k n hk)
    dead := fun k n hk => h.dead k n (hget k n hk) }
  have hin := h.registered m hm hblock
  simp only [Spawns.removeMonster, Assoc.get_erase]
  rw [if_neg]
  · exact hin
  · intro hkey
    exact hfits m.number (hkey ▸ hin) ⟨m, hm, rfl⟩

theorem Inv.removeMonsters (h : Inv s) : Inv (removeMonsters s) :=
  { h with
    blocks := List.nodup_nil
    spawned := List.nodup_nil
    keys := fun _ _ hk => nomatch hk
    registered := fun _ _ hblock => nomatch hblock
    own := fun _ _ hk => nomatch hk
    newSpawned := fun _ _ hk => nomatch hk
    later := fun _ _ _ hk => nomatch hk
    waited := fun _ _ _ _ hk => nomatch hk
    asked := fun _ _ _ _ _ hk => nomatch hk
    dead := fun _ _ hk => nomatch hk
    fed := fun _ _ hblock => nomatch hblock }

/-- One call. -/
theorem Inv.step (h : Inv s) {c : ℕ × Call} (hfits : Fitting s c) : Inv (step s c) := by
  obtain ⟨elapsed, c⟩ := c
  have hlater := h.wait elapsed
  cases c with
  | startup w delayed => exact hlater.startup hfits
  | checkSpawnMonster w =>
    simp only [Spawns.step, call]
    split_ifs
    · exact hlater.checkSpawnMonster w
    · exact hlater
  | scheduleSpawn w i => exact hlater.scheduleSpawn hfits
  | onRemoveCreature number => exact hlater.onRemoveCreature number
  | removeMonster number => exact hlater.removeMonster hfits
  | removeMonsters => exact hlater.removeMonsters

theorem Inv.orderly (h : Inv s) : Orderly s where
  single := h.single
  keys := h.keys
  cleanup_keys := h.cleanup.2.blocks
  fed hstarted id hid hnone :=
    (h.fed hstarted id hid hnone).imp_right fun ⟨task, htask, hblock, _⟩ => ⟨task, htask, hblock⟩
  waited := h.waited

/-- **Spawns are orderly** in every state of a run of calls that fit. -/
theorem run_spawns_orderly {blocks : List (ℕ × SpawnBlock)} (hblocks : Assoc.Distinct blocks) (interval : ℕ)
    {l : List (ℕ × Call)} (hl : Runs.Meets step Fitting (start blocks interval) l) :
    Orderly (Runs.run step (start blocks interval) l) :=
  (Runs.invariant step (fun _ _ h hfits => h.step hfits) (inv_start hblocks interval) hl).orderly

/-- Everything can be placed, and is when it is seen. -/
def openField : Surroundings := ⟨fun _ => some ⟨true⟩, fun _ => true, fun _ => false, fun _ => true⟩

/-- A monster that is placed, dies and is replaced. -/
theorem run_spawns_orderly_once :
    Orderly (Runs.run step (start [(1, ⟨0, 1000⟩)] 1000) [(0, .startup openField false), (5, .onRemoveCreature 0),
      (1000, .checkSpawnMonster openField), (1000, .checkSpawnMonster openField)]) := by
  have hblocks : Assoc.Distinct [(1, (⟨0, 1000⟩ : SpawnBlock))] := List.nodup_singleton 1
  refine run_spawns_orderly hblocks 1000 ⟨⟨.inr fun id sb _ => ?_, fun _ id sb _ _ _ _ => ?_⟩,
    trivial, trivial, trivial, trivial⟩
  · exact .inr ⟨rfl, .inr rfl⟩
  · exact fun t ht => nomatch ht

/-- A block whose monster cannot be placed at startup waits for nothing. -/
theorem not_orderly_startup :
    ¬ Orderly (Runs.run step (start [(1, ⟨0, 1000⟩)] 1000)
      [(0, .startup { openField with placeCreature := fun _ => false } false)]) := fun h => by
  rcases h.fed rfl 1 rfl (by decide) with hevent | ⟨task, htask, -⟩
  · exact nomatch hevent
  · exact nomatch htask

end TiabloServer.Spawns
