import TiabloServer.Creatures.Bonuses
import TiabloServer.Creatures.Speed

/-!
# Imbuements of worn items

`Player::addItemImbuementStats` and `Player::removeItemImbuementStats` (`player.cpp`) add the
bonuses of an imbuement to a player and take them back. Skills, stats and the speed are changed by
increments, the capacity by an assignment.

## Main definitions

* `Imbuements.Sums` — the bonuses are the sums over the applied imbuements.
* `Imbuements.Adds` — the steps whose capacity and speed add up.

## Main results

* `Imbuements.sums_step_iff` — a step keeps the sums if and only if it adds up.
* `Imbuements.run_sums_iff` — a run has the sums in all its states if and only if its steps add up.
-/

namespace TiabloServer.Imbuements

/-! ## Imbuements and players -/

/-- What an imbuement adds to a player. -/
structure Imbuement where
  skills : Fin 16 → ℤ
  stats : Fin 5 → ℤ
  speed : ℤ
  capacity : UInt32
  deriving DecidableEq

/-- A player: what imbuements change, and the base capacity. -/
structure Player where
  varSkills : Fin 16 → ℤ
  varStats : Fin 5 → ℤ
  /-- The player as a creature with a speed. -/
  creature : Speed.State Empty
  capacity : UInt32
  bonusCapacity : UInt32

/-- `changeSpeed`, where a speed is to be changed. -/
def changeSpeed (player : Player) (speed : ℤ) : Player :=
  if speed ≠ 0 then { player with creature := Speed.changeSpeed player.creature speed } else player

/-- The capacity that an imbuement adds to a player. -/
def capacityBonus (player : Player) (imbuement : Imbuement) : UInt32 :=
  player.capacity * imbuement.capacity / 100

/-- `Player::addItemImbuementStats`. -/
def addItemImbuementStats (player : Player) (imbuement : Imbuement) : Player :=
  let player :=
    { player with
      varSkills := Bonuses.addValues player.varSkills imbuement.skills
      varStats := Bonuses.addValues player.varStats imbuement.stats }
  let player := changeSpeed player imbuement.speed
  if imbuement.capacity ≠ 0 then { player with bonusCapacity := capacityBonus player imbuement }
  else player

/-- `Player::removeItemImbuementStats`. -/
def removeItemImbuementStats (player : Player) (imbuement : Imbuement) : Player :=
  let player :=
    { player with
      varSkills := Bonuses.takeValues (fun value => value ≠ 0) player.varSkills imbuement.skills
      varStats := Bonuses.takeValues (fun value => value ≠ 0) player.varStats imbuement.stats }
  let player :=
    if imbuement.speed ≠ 0 then
      { player with creature := Speed.changeSpeed player.creature (-imbuement.speed) }
    else player
  if imbuement.capacity ≠ 0 then { player with bonusCapacity := 0 } else player

/-! ## Steps -/

/-- A player with the imbuements that are applied. -/
structure State where
  player : Player
  applied : List Imbuement

/-- An imbuement is added or removed. -/
inductive Step where
  | add (imbuement : Imbuement)
  | remove (imbuement : Imbuement)

/-- The state after a step; an imbuement that is not applied is not removed. -/
def step (s : State) : Step → State
  | .add imbuement => ⟨addItemImbuementStats s.player imbuement, imbuement :: s.applied⟩
  | .remove imbuement =>
    if imbuement ∈ s.applied then
      ⟨removeItemImbuementStats s.player imbuement, s.applied.erase imbuement⟩
    else s

/-- The sum of a bonus over imbuements. -/
def total (bonus : Imbuement → ℤ) (imbuements : List Imbuement) : ℤ := (imbuements.map bonus).sum

/-- The bonuses are those at the start and the sums over the imbuements that are applied. -/
structure Sums (start : Player) (s : State) : Prop where
  capacity : s.player.capacity = start.capacity
  varSkills : ∀ i, s.player.varSkills i = start.varSkills i + total (fun b => b.skills i) s.applied
  varStats : ∀ i, s.player.varStats i = start.varStats i + total (fun b => b.stats i) s.applied
  speed : (Speed.getSpeed s.player.creature : ℤ) =
    Speed.getSpeed start.creature + total (fun b => b.speed) s.applied
  bonusCapacity : (s.player.bonusCapacity.toNat : ℤ) =
    start.bonusCapacity.toNat + total (fun b => (capacityBonus start b).toNat) s.applied

/-- A change of the speed that is made: it is none, or it is asked for below the largest speed and
leads to a speed. -/
def SpeedAdds (creature : Speed.State Empty) (speed : ℤ) : Prop :=
  speed = 0 ∨ Speed.getSpeed creature < Speed.PLAYER_MAX_SPEED ∧
    0 ≤ Speed.getSpeed creature + speed ∧ Speed.getSpeed creature + speed ≤ 65535

/-- A step that adds up: the speed can be changed, a capacity is added to none, and the capacity
that is removed is the whole bonus. -/
def Adds (s : State) : Step → Prop
  | .add imbuement =>
    SpeedAdds s.player.creature imbuement.speed ∧
      (imbuement.capacity = 0 ∨ s.player.bonusCapacity = 0)
  | .remove imbuement =>
    imbuement ∈ s.applied →
      SpeedAdds s.player.creature (-imbuement.speed) ∧
        (imbuement.capacity = 0 ∨ s.player.bonusCapacity = capacityBonus s.player imbuement)

/-! ## What a step adds -/

section Effects

variable (player : Player) (imbuement : Imbuement)

/-- A change of the speed adds up exactly when it is made. -/
theorem getSpeed_changeSpeed_iff (speed : ℤ) : (Speed.getSpeed (changeSpeed player speed).creature : ℤ) =
        Speed.getSpeed player.creature + speed ↔ SpeedAdds player.creature speed := by
  by_cases hzero : speed = 0
  · simp [changeSpeed, SpeedAdds, hzero]
  · rw [changeSpeed, if_pos hzero]
    constructor
    · intro heq
      have hsum : (Speed.getSpeed (Speed.changeSpeed player.creature speed) : ℤ) =
          Speed.getSpeed player.creature + speed := heq
      have hmax := Speed.getSpeed_le (Speed.changeSpeed player.creature speed)
      refine Or.inr ⟨lt_of_le_of_ne (Speed.getSpeed_le _) fun hlargest => hzero ?_, ?_, ?_⟩
      · -- at the largest speed nothing is changed
        rw [Speed.changeSpeed, Speed.setSpeed, if_pos hlargest.ge] at hsum
        omega
      · omega
      · rw [Speed.PLAYER_MAX_SPEED] at hmax
        omega
    · rintro (hspeed | ⟨hlt, hrange⟩)
      · exact absurd hspeed hzero
      · exact Speed.getSpeed_changeSpeed (fun hlargest => absurd hlargest hlt.ne) hrange

theorem addItemImbuementStats_eq :
    addItemImbuementStats player imbuement =
      { player with
        varSkills := fun i => player.varSkills i + imbuement.skills i
        varStats := fun i => player.varStats i + imbuement.stats i
        creature := (changeSpeed player imbuement.speed).creature
        bonusCapacity :=
          if imbuement.capacity ≠ 0 then capacityBonus player imbuement else player.bonusCapacity } := by
  have hskills : Bonuses.addValues player.varSkills imbuement.skills =
      fun i => player.varSkills i + imbuement.skills i := funext (Bonuses.addValues_eq _ _)
  have hstats : Bonuses.addValues player.varStats imbuement.stats =
      fun i => player.varStats i + imbuement.stats i := funext (Bonuses.addValues_eq _ _)
  by_cases hspeed : imbuement.speed = 0 <;> by_cases hcapacity : imbuement.capacity = 0 <;>
    simp [addItemImbuementStats, changeSpeed, capacityBonus, hskills, hstats, hspeed, hcapacity]

theorem removeItemImbuementStats_eq :
    removeItemImbuementStats player imbuement =
      { player with
        varSkills := fun i => player.varSkills i - imbuement.skills i
        varStats := fun i => player.varStats i - imbuement.stats i
        creature := (changeSpeed player (-imbuement.speed)).creature
        bonusCapacity := if imbuement.capacity ≠ 0 then 0 else player.bonusCapacity } := by
  have htake {n : ℕ} (var values : Fin n → ℤ) :
      Bonuses.takeValues (fun value => value ≠ 0) var values = fun i => var i - values i :=
    funext fun i => Bonuses.takeValues_eq fun h => by simpa using h
  simp only [removeItemImbuementStats, htake]
  by_cases hspeed : imbuement.speed = 0 <;> by_cases hcapacity : imbuement.capacity = 0 <;>
    simp [changeSpeed, hspeed, hcapacity]

end Effects

/-! ## Runs -/

theorem total_cons (bonus : Imbuement → ℤ) (b : Imbuement) (l : List Imbuement) :
    total bonus (b :: l) = bonus b + total bonus l := List.sum_cons

theorem total_erase (bonus : Imbuement → ℤ) {b : Imbuement} {l : List Imbuement} (h : b ∈ l) :
    total bonus (l.erase b) = total bonus l - bonus b := by
  rw [total, total, ← List.sum_map_erase bonus h]
  ring

theorem capacityBonus_of_capacity {player player' : Player} (h : player.capacity = player'.capacity)
    (b : Imbuement) : capacityBonus player b = capacityBonus player' b := by
  rw [capacityBonus, capacityBonus, h]

theorem capacityBonus_of_zero (player : Player) {b : Imbuement} (h : b.capacity = 0) :
    capacityBonus player b = 0 := by
  simp [capacityBonus, h]

theorem toNat_eq_zero {n : UInt32} : (n.toNat : ℤ) = 0 ↔ n = 0 := by
  rw [← UInt32.toNat_inj]
  exact Int.natCast_eq_zero

/-- **A step keeps the sums** if and only if it adds up. -/
theorem sums_step_iff {start : Player} {s : State} (h : Sums start s) (a : Step) :
    Sums start (step s a) ↔ Adds s a := by
  cases a with
  | add b =>
    have hbonus := capacityBonus_of_capacity h.capacity b
    rw [step, addItemImbuementStats_eq, Adds, ← getSpeed_changeSpeed_iff]
    constructor
    · intro hsums
      refine ⟨?_, ?_⟩
      · have hspeed := hsums.speed
        simp only [total_cons] at hspeed
        rw [hspeed, h.speed]
        ring
      · by_cases hcapacity : b.capacity = 0
        · exact Or.inl hcapacity
        · have hsum := hsums.bonusCapacity
          simp only [total_cons, ne_eq, hcapacity, not_false_eq_true, if_true, hbonus] at hsum
          refine Or.inr (toNat_eq_zero.1 ?_)
          rw [h.bonusCapacity]
          linarith
    · rintro ⟨hspeed, hcapacity⟩
      refine ⟨h.capacity, fun i => ?_, fun i => ?_, ?_, ?_⟩
      · rw [total_cons]
        simp only [h.varSkills i]
        ring
      · rw [total_cons]
        simp only [h.varStats i]
        ring
      · simp only [total_cons]
        rw [hspeed, h.speed]
        ring
      · simp only [total_cons]
        by_cases hzero : b.capacity = 0
        · rw [if_neg (not_not.2 hzero), h.bonusCapacity, capacityBonus_of_zero start hzero]
          simp
        · have hnone := toNat_eq_zero.2 (hcapacity.resolve_left hzero)
          rw [h.bonusCapacity] at hnone
          rw [if_pos hzero, hbonus]
          linarith
  | remove b =>
    rw [step, Adds]
    by_cases hmem : b ∈ s.applied
    · have hbonus := capacityBonus_of_capacity h.capacity b
      rw [if_pos hmem, removeItemImbuementStats_eq, ← getSpeed_changeSpeed_iff]
      constructor
      · intro hsums _
        refine ⟨?_, ?_⟩
        · have hspeed := hsums.speed
          simp only [total_erase _ hmem] at hspeed
          rw [hspeed, h.speed]
          ring
        · by_cases hcapacity : b.capacity = 0
          · exact Or.inl hcapacity
          · have hsum := hsums.bonusCapacity
            simp only [total_erase _ hmem, ne_eq, hcapacity, not_false_eq_true, if_true,
              UInt32.toNat_zero, Nat.cast_zero] at hsum
            refine Or.inr (UInt32.toNat_inj.1 ?_)
            have hwhole : (s.player.bonusCapacity.toNat : ℤ) = (capacityBonus start b).toNat := by
              rw [h.bonusCapacity]
              linarith
            rw [hbonus]
            exact_mod_cast hwhole
      · intro hadds
        obtain ⟨hspeed, hcapacity⟩ := hadds hmem
        refine ⟨h.capacity, fun i => ?_, fun i => ?_, ?_, ?_⟩
        · rw [total_erase _ hmem]
          simp only [h.varSkills i]
          ring
        · rw [total_erase _ hmem]
          simp only [h.varStats i]
          ring
        · simp only [total_erase _ hmem]
          rw [hspeed, h.speed]
          ring
        · simp only [total_erase _ hmem]
          by_cases hzero : b.capacity = 0
          · rw [if_neg (not_not.2 hzero), h.bonusCapacity, capacityBonus_of_zero start hzero]
            simp
          · have hwhole := congrArg (fun n : UInt32 => (n.toNat : ℤ)) (hcapacity.resolve_left hzero)
            simp only [h.bonusCapacity, hbonus] at hwhole
            rw [if_pos hzero]
            simp only [UInt32.toNat_zero, Nat.cast_zero]
            linarith
    · rw [if_neg hmem]
      exact iff_of_true h fun hmem' => absurd hmem' hmem

/-- **Bonuses are sums.** From a player without imbuements, all states of a run have the sums over
the applied imbuements if and only if all its steps add up.

**Proof sketch.** Each step keeps the sums exactly when it adds up: increments of skills and stats
always do, a change of the speed when it is not refused, and an assignment of the capacity when the
bonus was zero, or becomes zero with its last part. -/
theorem run_sums_iff (start : Player) (l : List Step) :
    (∀ m, m <+: l → Sums start (Runs.run step ⟨start, []⟩ m)) ↔
      Runs.Meets step Adds ⟨start, []⟩ l :=
  Runs.forall_prefix_iff step (P := Sums start) (fun _ a h => sums_step_iff h a)
    ⟨rfl, fun _ => (add_zero _).symm, fun _ => (add_zero _).symm, (add_zero _).symm,
      (add_zero _).symm⟩

/-- A player with a base capacity of 400. -/
def newPlayer : Player :=
  ⟨fun _ => 0, fun _ => 0, ⟨110, 0, [], false, 0, []⟩, 40000, 0⟩

/-- An imbuement that adds 20 percent to the capacity. -/
def featherweight : Imbuement := ⟨fun _ => 0, fun _ => 0, 0, 20⟩

/-- Of two imbuements of the capacity, one more does not add up, and the first that is removed takes
everything. -/
theorem not_sums_two :
    ¬ Sums newPlayer (Runs.run step ⟨newPlayer, []⟩ [.add featherweight, .add featherweight]) ∧
      ¬ Sums newPlayer (Runs.run step ⟨newPlayer, []⟩
        [.add featherweight, .add featherweight, .remove featherweight]) := by
  constructor
  · intro h
    exact absurd h.bonusCapacity (by decide)
  · intro h
    exact absurd h.bonusCapacity (by decide)

end TiabloServer.Imbuements
