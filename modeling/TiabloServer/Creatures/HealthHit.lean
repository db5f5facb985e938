import Mathlib

/-!
# A hit on health and mana

`Game::combatChangeHealth` (`game/game.cpp`) for damage, with `applyHealthChange`, `applyPvPDamage`
and the changes of health and mana of `creatures/creature.cpp`. The damage of a hit has two values.
They go through the multipliers of the attacker and of the target, through the hazard system, and
what is left of them after the mana shield is taken from health, between players times a multiplier.

Floating point values are rationals, and values have no upper bound: signed overflow has no meaning
in the source. No scripts are registered for the creatures, and Gift of Life is not active.

## Main definitions

* `manaTaken`, `healthTaken` — what it takes.
* `Accounts` — a creature after a hit.

## Main results

* `combatChangeHealth_accounts` — what a hit does to a creature, where the hazard system does not
  change what the mana shield is offered.
-/

namespace TiabloServer.HealthHit

/-! ## Creatures and hits -/

/-- The kind of a creature. -/
inductive Kind where
  | player
  | monster
  | npc
  deriving DecidableEq

/-- `CombatType_t`. -/
inductive CombatType where
  | PHYSICALDAMAGE
  | ENERGYDAMAGE
  | EARTHDAMAGE
  | FIREDAMAGE
  | UNDEFINEDDAMAGE
  | LIFEDRAIN
  | MANADRAIN
  | HEALING
  | DROWNDAMAGE
  | ICEDAMAGE
  | HOLYDAMAGE
  | DEATHDAMAGE
  | AGONYDAMAGE
  | NEUTRALDAMAGE
  deriving DecidableEq

/-- `CombatDamage`; `hasOrigin` tells that its origin is not `ORIGIN_NONE`. -/
structure CombatDamage where
  primaryType : CombatType
  primary : ℤ
  secondary : ℤ
  hasOrigin : Bool
  damageMultiplier : ℤ
  deriving DecidableEq

/-- The creature that is hit; `hasManaShield` is the answer of
`hasCondition(CONDITION_MANASHIELD)`. -/
structure Target where
  kind : Kind
  attackable : Bool
  health : ℤ
  maxHealth : ℤ
  mana : ℤ
  maxMana : ℤ
  hasManaShield : Bool
  manaShield : UInt16
  hasInfiniteMana : Bool
  /-- `getBuff(BUFF_DAMAGERECEIVED)`. -/
  damageReceived : ℤ
  level : ℕ
  pvpDamageReceivedMultiplier : ℚ

/-- The creature that hits. -/
structure Attacker where
  kind : Kind
  /-- `getBuff(BUFF_DAMAGEDEALT)`. -/
  damageDealt : ℤ
  /-- The stat `WheelStat_t::DAMAGE`. -/
  wheelDamage : ℤ
  /-- The bonus of the wheel for the spell of the hit. -/
  spellBonus : ℤ
  level : ℕ
  pvpDamageDealtMultiplier : ℚ

/-- The rates between players. -/
structure Config where
  pvpMaxLevelDifference : ℤ
  pvpRateDamageTakenPerLevel : ℚ
  pvpRateDamageReductionPerLevel : ℚ

/-- A hit, with the answers of what else it depends on. -/
structure Hit where
  attacker : Option Attacker
  damage : CombatDamage
  /-- The attacker has a black skull and the target none. -/
  blackSkull : Bool
  /-- What a perfect shot adds. -/
  perfectShot : ℤ
  /-- `getHazard` of the monster. -/
  monsterHazard : Bool
  /-- What the hazard system makes of the two values. -/
  hazard : ℤ → ℤ → ℤ × ℤ
  /-- A charm dodges the hit. -/
  dodge : Bool

namespace Hit

variable (hit : Hit) (target : Target)

def attackerPlayer : Option Attacker := hit.attacker.filter (·.kind = .player)

def attackerMonster : Option Attacker := hit.attacker.filter (·.kind = .monster)

end Hit

/-! ## Multipliers -/

/-- The conversion of a floating point value to an integer. -/
def toInt (q : ℚ) : ℤ := if 0 ≤ q then ⌊q⌋ else ⌈q⌉

/-- `std::round`. -/
def stdRound (q : ℚ) : ℤ := if 0 ≤ q then ⌊q + 1 / 2⌋ else ⌈q - 1 / 2⌉

namespace CombatDamage

/-- The sum of the two values. -/
def total (damage : CombatDamage) : ℤ := damage.primary + damage.secondary

/-- A function of both values. -/
def mapValues (f : ℤ → ℤ) (damage : CombatDamage) : CombatDamage :=
  { damage with primary := f damage.primary, secondary := f damage.secondary }

/-- Both values are raised by a percentage. -/
def raise (percent : ℤ) (damage : CombatDamage) : CombatDamage :=
  damage.mapValues fun value => toInt (value + value * percent / 100)

/-- Both values are scaled to a percentage. -/
def scale (percent : ℤ) (damage : CombatDamage) : CombatDamage :=
  damage.mapValues fun value => toInt (value * (percent / 100))

end CombatDamage

def applyWheelOfDestinyEffectsToDamage (damage : CombatDamage) (attackerPlayer : Option Attacker) :
    CombatDamage :=
  if damage.primary = 0 ∧ damage.secondary = 0 then damage
  else
    let damage := if damage.damageMultiplier > 0 then damage.raise damage.damageMultiplier else damage
    match attackerPlayer with
    | none => damage
    | some attacker =>
      let damage : CombatDamage := { damage with
        primary := damage.primary - attacker.wheelDamage
        secondary :=
          if damage.secondary ≠ 0 then damage.secondary - attacker.wheelDamage else damage.secondary }
      if attacker.spellBonus ≠ 0 then damage.raise attacker.spellBonus else damage

/-- The damage after the multipliers. -/
def multiplied (hit : Hit) (target : Target) : CombatDamage :=
  let damage := applyWheelOfDestinyEffectsToDamage hit.damage hit.attackerPlayer
  let damage := damage.mapValues fun value => |value|
  let damage : CombatDamage := { damage with primary := damage.primary + hit.perfectShot }
  let damage : CombatDamage :=
    match hit.attacker with
    | some attacker =>
      if damage.hasOrigin ∧ damage.primaryType ≠ .HEALING then damage.scale attacker.damageDealt
      else damage
    | none => damage
  if damage.hasOrigin ∧ damage.primaryType ≠ .HEALING then damage.scale target.damageReceived
  else damage

def handleHazardSystemAttack (hit : Hit) (damage : CombatDamage) : CombatDamage :=
  if damage.primary ≠ 0 ∧ hit.monsterHazard then
    { damage with
      primary := (hit.hazard damage.primary damage.secondary).1
      secondary := (hit.hazard damage.primary damage.secondary).2 }
  else damage

/-- The damage after the hazard system, which is for hits between players and monsters. -/
def hazarded (hit : Hit) (target : Target) : CombatDamage :=
  if (target.kind = .player ∧ hit.attackerMonster.isSome) ∨
      (hit.attackerPlayer.isSome ∧ target.kind = .monster) then
    handleHazardSystemAttack hit (multiplied hit target)
  else multiplied hit target

/-! ## Health and mana -/

namespace Target

variable (target : Target)

def changeHealth (healthChange : ℤ) : Target :=
  if healthChange > 0 then
    { target with health := target.health + min healthChange (target.maxHealth - target.health) }
  else { target with health := max 0 (target.health + healthChange) }

def changeMana (manaChange : ℤ) : Target :=
  if target.hasInfiniteMana then target
  else if manaChange > 0 then
    { target with mana := target.mana + min manaChange (target.maxMana - target.mana) }
  else { target with mana := max 0 (target.mana + manaChange) }

def drainHealth (damage : ℤ) : Target := target.changeHealth (-damage)

def drainMana (manaLoss : ℤ) : Target := target.changeMana (-manaLoss)

def setManaShield (value : UInt16) : Target := { target with manaShield := value }

/-- `removeCondition(CONDITION_MANASHIELD)`, whose `endCondition` sets the shield to 0. -/
def removeManaShield : Target := { target with hasManaShield := false, manaShield := 0 }

/-- Health and mana are within 0 and their maxima. -/
def InBounds : Prop :=
  0 ≤ target.health ∧ target.health ≤ target.maxHealth ∧ 0 ≤ target.mana ∧ target.mana ≤ target.maxMana

instance : Decidable target.InBounds := inferInstanceAs (Decidable (_ ∧ _))

end Target

/-! ## The mana shield -/

/-- The `manaDamage` and `manaShield` of a hit, and the target. -/
structure Offer where
  manaDamage : ℤ
  manaShield : UInt16
  target : Target

/-- The mana shield is offered `healthChange`. -/
def offer (target : Target) (healthChange : ℤ) : Offer :=
  let manaDamage := min target.mana healthChange
  if target.manaShield > 0 then
    if (target.manaShield.toNat : ℤ) > manaDamage then
      let manaShield := UInt16.ofInt (target.manaShield.toNat - manaDamage)
      ⟨manaDamage, manaShield, target.setManaShield manaShield⟩
    else ⟨target.manaShield.toNat, 0, target.removeManaShield⟩
  else ⟨manaDamage, target.manaShield, target⟩

/-- `manaDamage` is subtracted, from the primary value first. -/
def CombatDamage.subtract (damage : CombatDamage) (manaDamage : ℤ) : CombatDamage :=
  let primary := damage.primary - manaDamage
  if primary < 0 then { damage with primary := 0, secondary := max 0 (damage.secondary + primary) }
  else { damage with primary := primary }

/-- The damage and the target after the mana shield. -/
def absorb (damage : CombatDamage) (target : Target) (healthChange : ℤ) : CombatDamage × Target :=
  if target.hasManaShield ∧ damage.primaryType ≠ .UNDEFINEDDAMAGE then
    let offered := offer target healthChange
    if offered.manaDamage ≠ 0 then
      let target := offered.target.drainMana offered.manaDamage
      (damage.subtract offered.manaDamage,
        if target.mana = 0 ∧ offered.manaShield > 0 then target.removeManaShield else target)
    else (damage, offered.target)
  else (damage, target)

/-! ## Damage to health -/

/-- The values are cut to the health of the target. -/
def CombatDamage.cut (damage : CombatDamage) (targetHealth : ℤ) : CombatDamage :=
  if damage.primary ≥ targetHealth then { damage with primary := targetHealth, secondary := 0 }
  else if damage.secondary ≠ 0 then
    { damage with secondary := min damage.secondary (targetHealth - damage.primary) }
  else damage

def applyHealthChange (damage : CombatDamage) (target : Target) : CombatDamage × ℤ :=
  (damage.cut target.health, target.health)

def pvpLevelDifferenceDamageMultiplier (g : Config) (attacker : Attacker) (target : Target) : ℚ :=
  let levelDifference := min |(target.level : ℤ) - attacker.level| g.pvpMaxLevelDifference
  if target.level < attacker.level then 1 + levelDifference * (g.pvpRateDamageTakenPerLevel / 100)
  else 1 - levelDifference * (g.pvpRateDamageReductionPerLevel / 100)

/-- The `pvpDamageMultiplier` of `applyPvPDamage`. -/
def pvpDamageMultiplier (g : Config) (attacker : Attacker) (target : Target) : ℚ :=
  target.pvpDamageReceivedMultiplier * attacker.pvpDamageDealtMultiplier *
    pvpLevelDifferenceDamageMultiplier g attacker target

/-- The multiplier of a hit between players. -/
def pvp (g : Config) (hit : Hit) (target : Target) : Option ℚ :=
  if target.kind = .player then hit.attackerPlayer.map fun attacker => pvpDamageMultiplier g attacker target
  else none

/-- `applyPvPDamage`, with its multiplier. -/
def applyPvPDamage (damage : CombatDamage) (multiplier : ℚ) : CombatDamage :=
  damage.mapValues fun value => stdRound (value * multiplier)

/-- The damage that is taken from health. -/
def dealt (g : Config) (hit : Hit) (target : Target) (damage : CombatDamage) : CombatDamage :=
  let (damage, targetHealth) := applyHealthChange damage target
  let damage := damage.cut targetHealth
  match pvp g hit target with
  | some multiplier => applyPvPDamage damage multiplier
  | none => damage

/-- The damage and the target after the mana shield of a hit. -/
def absorbed (hit : Hit) (target : Target) : CombatDamage × Target :=
  absorb (hazarded hit target) target (multiplied hit target).total

/-- `combatChangeHealth`: its result, the damage and the target after it. -/
def combatChangeHealth (g : Config) (hit : Hit) (target : Target) : Bool × CombatDamage × Target :=
  if !target.attackable then (true, hit.damage, target)
  else if hit.attackerPlayer.isSome ∧ target.kind = .player ∧ hit.blackSkull then
    (false, hit.damage, target)
  else
    let healthChange := (multiplied hit target).total
    if healthChange = 0 then (true, multiplied hit target, target)
    else
      let damage := hazarded hit target
      if hit.attackerPlayer.isSome ∧ target.kind = .monster ∧ damage.primary = 0 ∧ damage.secondary = 0
      then (true, damage, target)
      else if hit.dodge then (false, damage, target)
      else
        let (damage, target) := absorbed hit target
        if damage.total = 0 then (true, damage, target)
        else
          let damage := dealt g hit target damage
          let realDamage := damage.total
          if realDamage = 0 then (true, damage, target)
          else (true, damage, target.drainHealth realDamage)

/-! ## What a hit takes -/

/-- What a hit of `D` takes from mana. -/
def manaTaken (target : Target) (D : ℤ) : ℤ :=
  if target.hasManaShield then
    if target.manaShield = 0 then min target.mana D
    else min (min target.mana D) target.manaShield.toNat
  else 0

/-- What a hit takes from mana. -/
def manaOf (hit : Hit) (target : Target) : ℤ := manaTaken target (hazarded hit target).total

/-- What a hit of `D` takes from a shield above 0. -/
def shieldTaken (target : Target) (D : ℤ) : ℤ :=
  if target.manaShield = 0 then 0 else manaTaken target D

/-- The two values that are left for health: the primary one is cut to it first. -/
def rest (damage : CombatDamage) (manaTaken health : ℤ) : ℤ × ℤ :=
  let primary := min (max 0 (damage.primary - manaTaken)) health
  (primary, min (max 0 (damage.secondary - max 0 (manaTaken - damage.primary))) (health - primary))

/-- What a hit takes from health: between players, the rounded parts of what is left. -/
def healthTaken (g : Config) (hit : Hit) (target : Target) : ℤ :=
  let damage := hazarded hit target
  let mana := manaOf hit target
  match pvp g hit target with
  | none => min target.health (damage.total - mana)
  | some k =>
    min target.health (stdRound ((rest damage mana target.health).1 * k) +
      stdRound ((rest damage mana target.health).2 * k))

/-- A target after a hit: what it lost, and whether its mana shield has ended. -/
structure Accounts (target target' : Target) (mana shield health : ℤ) (ended : Prop) : Prop where
  mana_eq : target'.mana = target.mana - mana
  hasManaShield_iff : target'.hasManaShield = true ↔ target.hasManaShield = true ∧ ¬ended
  shield_eq : ¬ended → (target'.manaShield.toNat : ℤ) = target.manaShield.toNat - shield
  ended_eq : ended → target'.manaShield = 0
  health_eq : target'.health = target.health - health
  inBounds : target'.InBounds

/-- The values of a damage are not negative. -/
def CombatDamage.Nonneg (damage : CombatDamage) : Prop := 0 ≤ damage.primary ∧ 0 ≤ damage.secondary

/-- The values that the steps of a hit hand on are not negative. -/
structure StaysNonneg (g : Config) (hit : Hit) (target : Target) : Prop where
  multiplied : (multiplied hit target).Nonneg
  hazarded : (hazarded hit target).Nonneg
  manaTaken : 0 ≤ manaOf hit target
  absorbed : (absorbed hit target).1.Nonneg
  dealt : (dealt g hit target (HealthHit.absorbed hit target).1).Nonneg

/-- The mana shield is used up, or mana has become 0. -/
def Exhausts (target : Target) (mana : ℤ) : Prop :=
  target.hasManaShield = true ∧
    ((target.manaShield ≠ 0 ∧ mana = target.manaShield.toNat) ∨ (0 < target.mana ∧ mana = target.mana))

/-- A mana shield with a limit is used up, or mana has become 0. -/
def Lifts (target : Target) (mana : ℤ) : Prop :=
  target.hasManaShield = true ∧ target.manaShield ≠ 0 ∧
    (mana = target.manaShield.toNat ∨ (0 < target.mana ∧ mana = target.mana))

/-- A hit of `D` is accounted once: what mana and the shield do not take is taken from health,
between players after the multiplier. -/
def AccountedOnce (g : Config) (hit : Hit) (target : Target) : Prop :=
  let D := (hazarded hit target).total
  let mana := manaTaken target D
  let k := (pvp g hit target).getD 1
  Accounts target (combatChangeHealth g hit target).2.2 mana (shieldTaken target D)
      (min target.health (stdRound ((D - mana) * k))) (Exhausts target mana) ∧
    StaysNonneg g hit target

/-- A hit with damage on a creature that can be attacked, which no charm dodges. -/
structure Strikes (hit : Hit) (target : Target) : Prop where
  inBounds : target.InBounds
  attackable : target.attackable = true
  damage : hit.damage.primary ≤ 0
  not_healing : hit.damage.primaryType ≠ .HEALING
  not_undefined : hit.damage.primaryType ≠ .UNDEFINEDDAMAGE
  not_dodge : hit.dodge = false

/-- The percentages of a hit are not negative, and the hazard system keeps its values so. -/
structure Regular (g : Config) (hit : Hit) (target : Target) : Prop where
  perfectShot : 0 ≤ hit.perfectShot
  damageDealt : ∀ attacker ∈ hit.attacker, 0 ≤ attacker.damageDealt
  damageReceived : 0 ≤ target.damageReceived
  hazard : ∀ primary secondary, 0 ≤ primary → 0 ≤ secondary →
    0 ≤ (hit.hazard primary secondary).1 ∧ 0 ≤ (hit.hazard primary secondary).2
  pvp : ∀ k ∈ pvp g hit target, 0 ≤ k

/-! ## Numbers -/

theorem toInt_nonneg {q : ℚ} (h : 0 ≤ q) : 0 ≤ toInt q := by
  rw [toInt, if_pos h]
  exact Int.floor_nonneg.2 h

theorem stdRound_nonneg {q : ℚ} (h : 0 ≤ q) : 0 ≤ stdRound q := by
  rw [stdRound, if_pos h]
  exact Int.floor_nonneg.2 (by linarith)

theorem stdRound_zero : stdRound 0 = 0 := by
  norm_num [stdRound]

/-! ## The multipliers -/

namespace CombatDamage

theorem scale_nonneg {damage : CombatDamage} (h : damage.Nonneg) {percent : ℤ} (hp : 0 ≤ percent) :
    (damage.scale percent).Nonneg := by
  have hq : (0 : ℚ) ≤ percent / 100 := by positivity
  have hprimary : (0 : ℚ) ≤ damage.primary := by exact_mod_cast h.1
  have hsecondary : (0 : ℚ) ≤ damage.secondary := by exact_mod_cast h.2
  exact ⟨toInt_nonneg (mul_nonneg hprimary hq), toInt_nonneg (mul_nonneg hsecondary hq)⟩

theorem total_nonneg {damage : CombatDamage} (h : damage.Nonneg) : 0 ≤ damage.total :=
  add_nonneg h.1 h.2

theorem subtract_spec {damage : CombatDamage} (h : damage.Nonneg) (manaDamage : ℤ) :
    (damage.subtract manaDamage).primary = max 0 (damage.primary - manaDamage) ∧
      (damage.subtract manaDamage).secondary = max 0 (damage.secondary - max 0 (manaDamage - damage.primary)) := by
  obtain ⟨hprimary, hsecondary⟩ := h
  simp only [subtract]
  split
  · constructor <;> simp only <;> omega
  · constructor <;> simp only <;> omega

theorem subtract_zero {damage : CombatDamage} (h : damage.Nonneg) : damage.subtract 0 = damage := by
  have hprimary := h.1
  rw [subtract, if_neg (by omega), sub_zero]

theorem cut_spec {damage : CombatDamage} (h : damage.Nonneg) (health : ℤ) :
    (damage.cut health).primary = min damage.primary health ∧ (damage.cut health).secondary =
        min damage.secondary (health - min damage.primary health) := by
  obtain ⟨hprimary, hsecondary⟩ := h
  simp only [cut]
  split
  · constructor <;> simp only <;> omega
  · split
    · constructor <;> simp only <;> omega
    · constructor <;> omega

theorem cut_nonneg {damage : CombatDamage} (h : damage.Nonneg) {health : ℤ} (hhealth : 0 ≤ health) :
    (damage.cut health).Nonneg := by
  obtain ⟨hprimary, hsecondary⟩ := cut_spec h health
  have h' := h
  rw [Nonneg] at h' ⊢
  omega

end CombatDamage

section

variable {g : Config} {hit : Hit} {target : Target}

theorem multiplied_nonneg (hreg : Regular g hit target) : (multiplied hit target).Nonneg := by
  have habs : ∀ damage : CombatDamage, CombatDamage.Nonneg
      { damage.mapValues fun value => |value| with
        primary := (damage.mapValues fun value => |value|).primary + hit.perfectShot } := fun damage =>
    ⟨add_nonneg (abs_nonneg _) hreg.perfectShot, abs_nonneg _⟩
  have hscale : ∀ damage : CombatDamage, damage.Nonneg → ∀ percent, 0 ≤ percent →
      CombatDamage.Nonneg (if damage.hasOrigin ∧ damage.primaryType ≠ .HEALING then damage.scale percent
        else damage) := fun damage h percent hpercent => by
    split
    · exact CombatDamage.scale_nonneg h hpercent
    · exact h
  simp only [multiplied]
  refine hscale _ ?_ _ hreg.damageReceived
  cases hattacker : hit.attacker with
  | none => exact habs _
  | some attacker => exact hscale _ (habs _) _ (hreg.damageDealt attacker hattacker)

theorem handleHazardSystemAttack_nonneg (hreg : Regular g hit target) {damage : CombatDamage}
    (h : damage.Nonneg) : (handleHazardSystemAttack hit damage).Nonneg := by
  rw [handleHazardSystemAttack]
  split
  · exact hreg.hazard _ _ h.1 h.2
  · exact h

theorem hazarded_nonneg (hreg : Regular g hit target) : (hazarded hit target).Nonneg := by
  rw [hazarded]
  split
  · exact handleHazardSystemAttack_nonneg hreg (multiplied_nonneg hreg)
  · exact multiplied_nonneg hreg

/-- The hazard system does nothing to a hit without damage. -/
theorem hazarded_total_of_zero (hreg : Regular g hit target) (h : (multiplied hit target).total = 0) :
    (hazarded hit target).total = 0 := by
  have hnonneg := multiplied_nonneg hreg
  have hprimary : (multiplied hit target).primary = 0 := by
    rw [CombatDamage.total] at h
    rw [CombatDamage.Nonneg] at hnonneg
    omega
  have hno : handleHazardSystemAttack hit (multiplied hit target) = multiplied hit target := by
    rw [handleHazardSystemAttack, if_neg fun hhazard => hhazard.1 hprimary]
  rw [hazarded, hno, ite_self, h]

/-! ## The mana shield takes its part -/

theorem manaTaken_nonneg (hbounds : target.InBounds) {D : ℤ} (hD : 0 ≤ D) : 0 ≤ manaTaken target D := by
  obtain ⟨-, -, hmana, -⟩ := hbounds
  rw [manaTaken]
  split_ifs <;> omega

theorem manaTaken_le (hbounds : target.InBounds) {D : ℤ} (hD : 0 ≤ D) :
    manaTaken target D ≤ D ∧ manaTaken target D ≤ target.mana := by
  obtain ⟨-, -, hmana, -⟩ := hbounds
  rw [manaTaken]
  split_ifs <;> omega

theorem toNat_ofInt {v : ℤ} (h : 0 ≤ v) (hv : v < 65536) : ((UInt16.ofInt v).toNat : ℤ) = v := by
  rw [UInt16.ofInt, UInt16.toNat_ofNat']
  omega

/-- What the mana shield does to a target that it takes `mana` from. -/
structure Shields (g : Config) (hit : Hit) (target target' : Target) (mana shield : ℤ) (ended : Prop) : Prop where
  mana_eq : target'.mana = target.mana - mana
  hasManaShield_iff : target'.hasManaShield = true ↔ target.hasManaShield = true ∧ ¬ended
  shield_eq : ¬ended → (target'.manaShield.toNat : ℤ) = target.manaShield.toNat - shield
  ended_eq : ended → target'.manaShield = 0
  health_eq : target'.health = target.health
  maxHealth_eq : target'.maxHealth = target.maxHealth
  maxMana_eq : target'.maxMana = target.maxMana
  pvp_eq : pvp g hit target' = pvp g hit target

theorem pos_iff {v : UInt16} : v > 0 ↔ v ≠ 0 := by
  rw [gt_iff_lt, UInt16.pos_iff_ne_zero]

theorem not_zero_gt : ¬(0 : UInt16) > 0 := by
  decide

/-- A mana shield without limit. -/
theorem offer_unlimited (hactive : target.hasManaShield = true) (hshield : target.manaShield = 0) (D : ℤ) :
    offer target D = ⟨manaTaken target D, 0, target⟩ := by
  rw [offer, manaTaken, if_pos hactive, if_pos hshield, hshield, if_neg not_zero_gt]

/-- A shield that is not used up. -/
theorem offer_part (hactive : target.hasManaShield = true) (hshield : target.manaShield ≠ 0) {D : ℤ}
    (hpart : manaTaken target D < target.manaShield.toNat) : offer target D = ⟨manaTaken target D,
      UInt16.ofInt (target.manaShield.toNat - manaTaken target D),
      target.setManaShield (UInt16.ofInt (target.manaShield.toNat - manaTaken target D))⟩ := by
  rw [manaTaken, if_pos hactive, if_neg hshield] at hpart
  have hlt : min target.mana D < target.manaShield.toNat := by omega
  have htaken : manaTaken target D = min target.mana D := by
    rw [manaTaken, if_pos hactive, if_neg hshield]
    omega
  rw [htaken, offer, if_pos (pos_iff.2 hshield), if_pos hlt]

/-- A shield that is used up. -/
theorem offer_all (hactive : target.hasManaShield = true) (hshield : target.manaShield ≠ 0) {D : ℤ}
    (hall : ¬manaTaken target D < target.manaShield.toNat) : manaTaken target D = target.manaShield.toNat ∧
      offer target D = ⟨manaTaken target D, 0, target.removeManaShield⟩ := by
  have htaken : manaTaken target D = target.manaShield.toNat := by
    rw [manaTaken, if_pos hactive, if_neg hshield] at hall ⊢
    omega
  refine ⟨htaken, ?_⟩
  rw [manaTaken, if_pos hactive, if_neg hshield] at hall
  rw [htaken, offer, if_pos (pos_iff.2 hshield), if_neg (by omega)]

theorem drainMana_of_nonneg (hinfinite : target.hasInfiniteMana = false) {loss : ℤ} (hloss : 0 ≤ loss) :
    target.drainMana loss = { target with mana := max 0 (target.mana - loss) } := by
  rw [Target.drainMana, Target.changeMana, if_neg (by simp [hinfinite]), if_neg (by omega), sub_eq_add_neg]

/-- Nothing is drained: the target keeps what the offer left. -/
theorem absorb_of_zero (hactive : target.hasManaShield = true) {damage : CombatDamage}
    (htype : damage.primaryType ≠ .UNDEFINEDDAMAGE) {D : ℤ} (h : (offer target D).manaDamage = 0) :
    absorb damage target D = (damage, (offer target D).target) := by
  rw [absorb, if_pos ⟨hactive, htype⟩]
  simp only [h, ne_eq, not_true_eq_false, if_false]

theorem absorb_of_ne_zero (hactive : target.hasManaShield = true) {damage : CombatDamage}
    (htype : damage.primaryType ≠ .UNDEFINEDDAMAGE) {D : ℤ} (h : (offer target D).manaDamage ≠ 0) :
    absorb damage target D = (damage.subtract (offer target D).manaDamage,
      let drained := (offer target D).target.drainMana (offer target D).manaDamage
      if drained.mana = 0 ∧ (offer target D).manaShield > 0 then drained.removeManaShield else drained) := by
  rw [absorb, if_pos ⟨hactive, htype⟩]
  simp only [h, ne_eq, not_false_eq_true, if_true]

/-- A target that keeps its mana and its shield. -/
theorem shields_self {ended : Prop} (h : ¬ended) : Shields g hit target target 0 0 ended :=
  ⟨(sub_zero _).symm, (and_iff_left h).symm, fun _ => (sub_zero _).symm, fun hended => absurd hended h,
    rfl, rfl, rfl, rfl⟩

/-- What `absorb` does, where `D` is offered. -/
def Absorbs (g : Config) (hit : Hit) (damage : CombatDamage) (target : Target) (D : ℤ) : Prop :=
  (absorb damage target D).1 = damage.subtract (manaTaken target D) ∧
    Shields g hit target (absorb damage target D).2 (manaTaken target D) (shieldTaken target D)
      (Lifts target (manaTaken target D))

theorem absorbs_inactive (hactive : target.hasManaShield = false) {damage : CombatDamage}
    (hdamage : damage.Nonneg) (D : ℤ) : Absorbs g hit damage target D := by
  have htaken : manaTaken target D = 0 := by rw [manaTaken, hactive, if_neg Bool.false_ne_true]
  have hended : ¬Lifts target 0 := fun h => by simp [Lifts, hactive] at h
  rw [Absorbs, absorb, hactive, if_neg fun h => Bool.false_ne_true h.1, shieldTaken, htaken, ite_self]
  exact ⟨(CombatDamage.subtract_zero hdamage).symm, shields_self hended⟩

section Active

variable (hbounds : target.InBounds) (hinfinite : target.hasInfiniteMana = false)
  (hactive : target.hasManaShield = true) {damage : CombatDamage} (hdamage : damage.Nonneg)
  (htype : damage.primaryType ≠ .UNDEFINEDDAMAGE) {D : ℤ} (hD : 0 ≤ D)

include hbounds hinfinite hactive hdamage htype hD

/-- A shield without limit stays. -/
theorem absorbs_unlimited (hshield : target.manaShield = 0) : Absorbs g hit damage target D := by
  have hnonneg := manaTaken_nonneg hbounds hD
  have hle := (manaTaken_le hbounds hD).2
  have hoffer := offer_unlimited hactive hshield D
  have hended : ¬Lifts target (manaTaken target D) := fun h => h.2.1 hshield
  rw [Absorbs, shieldTaken, if_pos hshield]
  by_cases hzero : manaTaken target D = 0
  · rw [absorb_of_zero hactive htype (by rw [hoffer]; exact hzero), hoffer, hzero]
    rw [hzero] at hended
    exact ⟨(CombatDamage.subtract_zero hdamage).symm, shields_self hended⟩
  · rw [absorb_of_ne_zero hactive htype (by rw [hoffer]; exact hzero), hoffer]
    simp only [drainMana_of_nonneg hinfinite hnonneg, not_zero_gt, and_false, if_false]
    exact ⟨trivial, by simp only; omega, by simp [hended], fun _ => (sub_zero _).symm,
      fun h => absurd h hended, rfl, rfl, rfl, rfl⟩

/-- A shield with a limit that is not used up is lowered, and ends with the mana. -/
theorem absorbs_part (hshield : target.manaShield ≠ 0)
    (hpart : manaTaken target D < target.manaShield.toNat) : Absorbs g hit damage target D := by
  have hnonneg := manaTaken_nonneg hbounds hD
  have hle := (manaTaken_le hbounds hD).2
  have hlt := target.manaShield.toNat_lt
  have hoffer := offer_part hactive hshield hpart
  have hleft := toNat_ofInt (v := target.manaShield.toNat - manaTaken target D) (by omega) (by omega)
  rw [Absorbs, shieldTaken, if_neg hshield]
  by_cases hzero : manaTaken target D = 0
  · have hended : ¬Lifts target (manaTaken target D) := by
      rintro ⟨-, -, h | ⟨h, h'⟩⟩ <;> omega
    rw [absorb_of_zero hactive htype (by rw [hoffer]; exact hzero), hoffer]
    refine ⟨?_, ?_, ?_, fun _ => hleft, fun h => absurd h hended, rfl, rfl, rfl, rfl⟩
    · rw [hzero, CombatDamage.subtract_zero hdamage]
    · rw [hzero]
      exact (sub_zero _).symm
    · simp only [Target.setManaShield, hactive, hended, not_false_eq_true, and_self]
  · have hinfinite' : (target.setManaShield
        (UInt16.ofInt (target.manaShield.toNat - manaTaken target D))).hasInfiniteMana = false := hinfinite
    have hposleft : UInt16.ofInt (target.manaShield.toNat - manaTaken target D) > 0 := by
      rw [gt_iff_lt, UInt16.lt_iff_toNat_lt, UInt16.toNat_zero]
      omega
    rw [absorb_of_ne_zero hactive htype (by rw [hoffer]; exact hzero), hoffer]
    simp only [drainMana_of_nonneg hinfinite' hnonneg, hposleft, and_true]
    have hmana : (target.setManaShield
        (UInt16.ofInt (target.manaShield.toNat - manaTaken target D))).mana = target.mana := rfl
    by_cases hempty : target.mana = manaTaken target D
    · -- mana has become 0
      have hended : Lifts target (manaTaken target D) :=
        ⟨hactive, hshield, .inr ⟨by omega, hempty.symm⟩⟩
      rw [if_pos (by rw [hmana]; omega)]
      exact ⟨trivial, by simp only [Target.removeManaShield, Target.setManaShield]; omega,
        by simp [Target.removeManaShield, hended], fun h => absurd hended h, fun _ => rfl,
        rfl, rfl, rfl, rfl⟩
    · have hended : ¬Lifts target (manaTaken target D) := by
        rintro ⟨-, -, h | ⟨h, h'⟩⟩ <;> omega
      rw [if_neg (by rw [hmana]; omega)]
      exact ⟨trivial, by simp only [Target.setManaShield]; omega,
        by simp [Target.setManaShield, hactive, hended], fun _ => hleft,
        fun h => absurd h hended, rfl, rfl, rfl, rfl⟩

omit hdamage in
/-- A shield with a limit is used up. -/
theorem absorbs_all (hshield : target.manaShield ≠ 0)
    (hall : ¬manaTaken target D < target.manaShield.toNat) : Absorbs g hit damage target D := by
  have hnonneg := manaTaken_nonneg hbounds hD
  have hle := (manaTaken_le hbounds hD).2
  have hpos : 0 < target.manaShield.toNat := UInt16.pos_iff_ne_zero.2 hshield
  obtain ⟨htaken, hoffer⟩ := offer_all hactive hshield hall
  have hzero : manaTaken target D ≠ 0 := by omega
  have hended : Lifts target (manaTaken target D) := ⟨hactive, hshield, .inl htaken⟩
  have hinfinite' : target.removeManaShield.hasInfiniteMana = false := hinfinite
  rw [Absorbs, shieldTaken, if_neg hshield, absorb_of_ne_zero hactive htype (by rw [hoffer]; exact hzero), hoffer]
  simp only [drainMana_of_nonneg hinfinite' hnonneg, not_zero_gt, and_false, if_false]
  exact ⟨trivial, by simp only [Target.removeManaShield]; omega,
    by simp [Target.removeManaShield, hended], fun h => absurd hended h, fun _ => rfl,
    rfl, rfl, rfl, rfl⟩

end Active

/-- **The mana shield takes its part**: the damage and the target after it. -/
theorem absorb_spec (hbounds : target.InBounds) (hinfinite : target.hasInfiniteMana = false)
    {damage : CombatDamage} (hdamage : damage.Nonneg) (htype : damage.primaryType ≠ .UNDEFINEDDAMAGE) {D : ℤ}
    (hD : 0 ≤ D) : Absorbs g hit damage target D := by
  cases hactive : target.hasManaShield with
  | false => exact absorbs_inactive hactive hdamage D
  | true =>
    by_cases hshield : target.manaShield = 0
    · exact absorbs_unlimited hbounds hinfinite hactive hdamage htype hD hshield
    · by_cases hpart : manaTaken target D < target.manaShield.toNat
      · exact absorbs_part hbounds hinfinite hactive hdamage htype hD hshield hpart
      · exact absorbs_all hbounds hinfinite hactive htype hD hshield hpart

/-! ## The rest is dealt -/

theorem primaryType_multiplied : (multiplied hit target).primaryType = hit.damage.primaryType := by
  have hwheel : (applyWheelOfDestinyEffectsToDamage hit.damage hit.attackerPlayer).primaryType =
      hit.damage.primaryType := by
    simp only [applyWheelOfDestinyEffectsToDamage]
    repeat' split
    all_goals rfl
  rw [← hwheel, multiplied]
  repeat' split
  all_goals rfl

theorem primaryType_hazarded : (hazarded hit target).primaryType = hit.damage.primaryType := by
  have hmultiplied : (multiplied hit target).primaryType = hit.damage.primaryType := primaryType_multiplied
  rw [← hmultiplied, hazarded, handleHazardSystemAttack]
  repeat' split
  all_goals rfl

/-- What is dealt of the values that are left after the mana shield took `mana`. -/
theorem dealt_spec (hbounds : target.InBounds) (hreg : Regular g hit target) {damage : CombatDamage}
    (hdamage : damage.Nonneg) (mana : ℤ) :
    (dealt g hit target (damage.subtract mana)).Nonneg ∧
      (dealt g hit target (damage.subtract mana)).total =
        match pvp g hit target with
        | none => (rest damage mana target.health).1 + (rest damage mana target.health).2
        | some k => stdRound ((rest damage mana target.health).1 * k) +
            stdRound ((rest damage mana target.health).2 * k) := by
  have hhealth := hbounds.1
  obtain ⟨hprimary, hsecondary⟩ := CombatDamage.subtract_spec hdamage mana
  have hleft : (damage.subtract mana).Nonneg := by
    rw [CombatDamage.Nonneg, hprimary, hsecondary]
    omega
  have hcut := CombatDamage.cut_nonneg hleft hhealth
  have hcut' := CombatDamage.cut_nonneg hcut hhealth
  -- the second cut does nothing
  obtain ⟨hfirst, hfirst'⟩ := CombatDamage.cut_spec hleft target.health
  obtain ⟨hsecond, hsecond'⟩ := CombatDamage.cut_spec hcut target.health
  have hone : (((damage.subtract mana).cut target.health).cut target.health).primary =
      (rest damage mana target.health).1 := by
    rw [hsecond, hfirst, hprimary, rest]
    omega
  have htwo : (((damage.subtract mana).cut target.health).cut target.health).secondary =
      (rest damage mana target.health).2 := by
    rw [hsecond', hfirst', hfirst, hprimary, hsecondary, rest]
    omega
  rw [dealt, applyHealthChange]
  cases hpvp : pvp g hit target with
  | none =>
    refine ⟨hcut', ?_⟩
    simp only [CombatDamage.total, hone, htwo]
  | some k =>
    have hk := hreg.pvp k hpvp
    simp only [applyPvPDamage, CombatDamage.mapValues, CombatDamage.total, CombatDamage.Nonneg, hone, htwo]
    rw [CombatDamage.Nonneg, hone, htwo] at hcut'
    have hone' : (0 : ℚ) ≤ (rest damage mana target.health).1 := by exact_mod_cast hcut'.1
    have htwo' : (0 : ℚ) ≤ (rest damage mana target.health).2 := by exact_mod_cast hcut'.2
    exact ⟨⟨stdRound_nonneg (mul_nonneg hone' hk), stdRound_nonneg (mul_nonneg htwo' hk)⟩, trivial⟩

/-- The values that are left sum up to what mana did not take, cut to health. -/
theorem rest_sum {damage : CombatDamage} (hdamage : damage.Nonneg) {mana health : ℤ} (hle : mana ≤ damage.total) :
    (rest damage mana health).1 + (rest damage mana health).2 = min health (damage.total - mana) := by
  obtain ⟨hprimary, hsecondary⟩ := hdamage
  rw [CombatDamage.total] at hle ⊢
  simp only [rest]
  omega

theorem total_subtract {damage : CombatDamage} (hdamage : damage.Nonneg) {mana : ℤ}
    (hle : mana ≤ damage.total) : (damage.subtract mana).total = damage.total - mana := by
  obtain ⟨hone, htwo⟩ := CombatDamage.subtract_spec hdamage mana
  obtain ⟨hprimary, hsecondary⟩ := hdamage
  rw [CombatDamage.total] at hle ⊢
  rw [hone, htwo, CombatDamage.total]
  omega

/-- What is taken from health is what is dealt, as far as there is health. -/
theorem healthTaken_eq (hbounds : target.InBounds) (hreg : Regular g hit target) :
    healthTaken g hit target = min target.health (dealt g hit target ((hazarded hit target).subtract
        (manaOf hit target))).total := by
  have hnonneg := hazarded_nonneg hreg
  have hD := CombatDamage.total_nonneg hnonneg
  rw [(dealt_spec hbounds hreg hnonneg _).2, healthTaken]
  cases pvp g hit target with
  | none =>
    simp only
    have hle : manaOf hit target ≤ (hazarded hit target).total := (manaTaken_le hbounds hD).1
    rw [rest_sum hnonneg hle]
    omega
  | some k => rfl

/-- Where mana takes everything, nothing is left for health. -/
theorem healthTaken_of_total (hbounds : target.InBounds) (hreg : Regular g hit target)
    (h : (hazarded hit target).total = manaOf hit target) : healthTaken g hit target = 0 := by
  have hnonneg := hazarded_nonneg hreg
  have hD := CombatDamage.total_nonneg hnonneg
  have hhealth := hbounds.1
  have hsum : (hazarded hit target).primary + (hazarded hit target).secondary =
      manaOf hit target := h
  have hprimary : (rest (hazarded hit target) (manaOf hit target)
      target.health).1 = 0 := by
    rw [CombatDamage.Nonneg] at hnonneg
    simp only [rest]
    omega
  have hsecondary : (rest (hazarded hit target) (manaOf hit target)
      target.health).2 = 0 := by
    rw [CombatDamage.Nonneg] at hnonneg
    simp only [rest]
    omega
  rw [healthTaken]
  cases pvp g hit target with
  | none =>
    simp only
    omega
  | some k =>
    simp only [hprimary, hsecondary, Int.cast_zero, zero_mul, stdRound_zero]
    omega

/-! ## A hit is accounted once -/

theorem not_lifts_zero : ¬Lifts target 0 := by
  rintro ⟨-, hshield, h | ⟨h, h'⟩⟩
  · have hpos : 0 < target.manaShield.toNat := UInt16.pos_iff_ne_zero.2 hshield
    omega
  · omega

/-- A target to which nothing happens. -/
theorem accounts_self (hbounds : target.InBounds) : Accounts target target 0 0 0 (Lifts target 0) where
  mana_eq := (sub_zero _).symm
  hasManaShield_iff := by simp [not_lifts_zero]
  shield_eq _ := (sub_zero _).symm
  ended_eq h := absurd h (not_lifts_zero)
  health_eq := (sub_zero _).symm
  inBounds := hbounds

/-- After the mana shield, health may fall. -/
theorem Shields.accounts {target' target'' : Target} {mana shield health : ℤ} {ended : Prop}
    (h : Shields g hit target target' mana shield ended) (hbounds : target.InBounds) (hmana : 0 ≤ mana)
    (hle : mana ≤ target.mana) (hhealth : 0 ≤ health) (hle' : health ≤ target.health)
    (heq : target'' = { target' with health := target.health - health }) :
    Accounts target target'' mana shield health ended := by
  subst heq
  refine ⟨h.mana_eq, h.hasManaShield_iff, h.shield_eq, h.ended_eq, rfl, ?_⟩
  obtain ⟨h0, h1, h2, h3⟩ := hbounds
  simp only [Target.InBounds, h.mana_eq, h.maxHealth_eq, h.maxMana_eq]
  omega

theorem drainHealth_of_nonneg {damage : ℤ} (h : 0 ≤ damage) :
    target.drainHealth damage = { target with health := max 0 (target.health - damage) } := by
  rw [Target.drainHealth, Target.changeHealth, if_neg (by omega), sub_eq_add_neg]

/-- What is dealt does not depend on what the mana shield did to the target. -/
theorem Shields.dealt_eq {target' : Target} {mana shield : ℤ} {ended : Prop}
    (h : Shields g hit target target' mana shield ended) (damage : CombatDamage) :
    dealt g hit target' damage = dealt g hit target damage := by
  rw [dealt, dealt, applyHealthChange, applyHealthChange, h.health_eq, h.pvp_eq]

/-- **A hit is accounted once.** Mana and the shield give what the hit offers them, and health the
rest. -/
theorem combatChangeHealth_accounts (g : Config) (hit : Hit) (target : Target) (hstrikes : Strikes hit target)
    (hskull : hit.blackSkull = false) (hinfinite : target.hasInfiniteMana = false)
    (hreg : Regular g hit target)
    (hoffer : manaTaken target (multiplied hit target).total = manaOf hit target) :
    Accounts target (combatChangeHealth g hit target).2.2 (manaOf hit target)
        (shieldTaken target (hazarded hit target).total) (healthTaken g hit target)
        (Lifts target (manaOf hit target)) ∧
      StaysNonneg g hit target := by
  have hbounds := hstrikes.inBounds
  have hmultiplied := multiplied_nonneg hreg
  have hhazarded := hazarded_nonneg hreg
  have hD := CombatDamage.total_nonneg hhazarded
  have hnonneg : 0 ≤ manaOf hit target := manaTaken_nonneg hbounds hD
  obtain ⟨hle, hle'⟩ : manaOf hit target ≤ (hazarded hit target).total ∧ manaOf hit target ≤ target.mana :=
    manaTaken_le hbounds hD
  have hshieldTaken : shieldTaken target (multiplied hit target).total =
      shieldTaken target (hazarded hit target).total := by
    rw [shieldTaken, shieldTaken, hoffer, manaOf]
  have habsorb : Absorbs g hit (hazarded hit target) target (multiplied hit target).total :=
    absorb_spec hbounds hinfinite hhazarded (by rw [primaryType_hazarded]; exact hstrikes.not_undefined)
      (CombatDamage.total_nonneg hmultiplied)
  rw [Absorbs, hoffer, hshieldTaken] at habsorb
  have hdamage : (absorbed hit target).1 = (hazarded hit target).subtract (manaOf hit target) := habsorb.1
  have hshields : Shields g hit target (absorbed hit target).2 (manaOf hit target)
      (shieldTaken target (hazarded hit target).total) (Lifts target (manaOf hit target)) := habsorb.2
  obtain ⟨hdealt, -⟩ := dealt_spec hbounds hreg hhazarded (manaOf hit target)
  have hleft := total_subtract hhazarded hle
  have hhealth := healthTaken_eq hbounds hreg
  have htotal := CombatDamage.total_nonneg hdealt
  have hpos := hbounds.1
  -- after the mana shield, health is lowered
  have hlowers {target'' : Target} (h : target'' =
      { (absorbed hit target).2 with health := target.health - healthTaken g hit target }) :
      Accounts target target'' (manaOf hit target) (shieldTaken target (hazarded hit target).total)
        (healthTaken g hit target) (Lifts target (manaOf hit target)) :=
    hshields.accounts hbounds hnonneg hle' (by omega) (by omega) h
  have hkept (h : healthTaken g hit target = 0) : (absorbed hit target).2 =
      { (absorbed hit target).2 with health := target.health - healthTaken g hit target } := by
    rw [h, sub_zero, ← hshields.health_eq]
  -- a hit of which nothing is left
  have hnothing (h : (hazarded hit target).total = 0) :
      Accounts target target (manaOf hit target)
        (shieldTaken target (hazarded hit target).total) (healthTaken g hit target)
        (Lifts target (manaOf hit target)) := by
    have hzero : manaOf hit target = 0 := by omega
    have hzero' : manaTaken target (hazarded hit target).total = 0 := hzero
    rw [healthTaken_of_total hbounds hreg (by omega), shieldTaken, hzero, hzero', ite_self]
    exact accounts_self hbounds
  constructor
  · rw [combatChangeHealth, if_neg (by simp [hstrikes.attackable]), if_neg (by simp [hskull])]
    simp only
    split_ifs with hchange hempty hdodge' hdone hreal
    · exact hnothing (hazarded_total_of_zero hreg hchange)
    · refine hnothing ?_
      rw [CombatDamage.total, hempty.2.2.1, hempty.2.2.2, add_zero]
    · exact absurd (hstrikes.not_dodge.symm.trans hdodge') Bool.false_ne_true
    · refine hlowers (hkept (healthTaken_of_total hbounds hreg ?_))
      rw [hdamage, hleft] at hdone
      omega
    · rw [hshields.dealt_eq, hdamage] at hreal
      exact hlowers (hkept (by omega))
    · refine hlowers ?_
      simp only
      rw [hshields.dealt_eq, hdamage, drainHealth_of_nonneg htotal, hshields.health_eq, hhealth]
      congr 1
      omega
  · refine ⟨hmultiplied, hhazarded, hnonneg, ?_, ?_⟩
    · obtain ⟨hone, htwo⟩ := CombatDamage.subtract_spec hhazarded
        (manaOf hit target)
      rw [hdamage, CombatDamage.Nonneg, hone, htwo]
      omega
    · rw [hdamage]
      exact hdealt

end

/-- A config without differences by level. -/
def even : Config := ⟨0, 0, 0⟩

/-- A player with a mana shield without limit. -/
def mage : Target where
  kind := .player
  attackable := true
  health := 100
  maxHealth := 100
  mana := 10
  maxMana := 10
  hasManaShield := true
  manaShield := 0
  hasInfiniteMana := false
  damageReceived := 100
  level := 8
  pvpDamageReceivedMultiplier := 1

/-- A player that deals half of the damage to players. -/
def rival : Attacker where
  kind := .player
  damageDealt := 100
  wheelDamage := 0
  spellBonus := 0
  level := 8
  pvpDamageDealtMultiplier := 1 / 2

/-- A hit of two values. -/
def blow (attacker : Option Attacker) (primary secondary : ℤ) : Hit where
  attacker := attacker
  damage := ⟨.FIREDAMAGE, -primary, -secondary, true, 0⟩
  blackSkull := false
  perfectShot := 0
  monsterHazard := false
  hazard := fun primary secondary => (primary, secondary)
  dodge := false

theorem strikes_blow {target : Target} (h : target.InBounds) (hattackable : target.attackable = true)
    (attacker : Option Attacker) {primary : ℤ} (hprimary : 0 ≤ primary) (secondary : ℤ) :
    Strikes (blow attacker primary secondary) target :=
  ⟨h, hattackable, neg_nonpos.2 hprimary, nofun, nofun, rfl⟩

/-- A mage with a limited shield. -/
def shielded : Target := { mage with manaShield := 8 }

/-- A hit of 7 and 6 between players, of which a shield of 8 takes its part. -/
theorem combatChangeHealth_accounts_duel :
    Accounts shielded (combatChangeHealth even (blow (some rival) 7 6) shielded).2.2
        (manaOf (blow (some rival) 7 6) shielded)
        (shieldTaken shielded (hazarded (blow (some rival) 7 6) shielded).total)
        (healthTaken even (blow (some rival) 7 6) shielded)
        (Lifts shielded (manaOf (blow (some rival) 7 6) shielded)) ∧
      StaysNonneg even (blow (some rival) 7 6) shielded := by
  have hpvp : pvp even (blow (some rival) 7 6) shielded = some (1 / 2) := by
    decide +kernel
  refine combatChangeHealth_accounts even (blow (some rival) 7 6) shielded
    (strikes_blow (by decide) rfl _ (by decide) _) rfl rfl ⟨le_rfl, ?_, by decide, fun _ _ h h' => ⟨h, h'⟩, ?_⟩
    (by decide +kernel)
  · rintro attacker hattacker
    obtain rfl := Option.some.inj hattacker
    decide
  · rw [hpvp]
    rintro k hk
    obtain rfl := Option.some.inj hk
    norm_num

/-- Hits that are not accounted once: of a mana shield without limit the condition stays when mana
becomes 0; between players damage is cut to health before it is multiplied, its two values are
rounded by themselves, and black skulls protect; mana may be infinite; a negative multiplier or
percentage gives negative damage. -/
theorem not_accountedOnce :
    (Strikes (blow none 30 0) mage ∧ ¬AccountedOnce even (blow none 30 0) mage) ∧
      (Strikes (blow (some rival) 400 0) { mage with hasManaShield := false } ∧
        ¬AccountedOnce even (blow (some rival) 400 0) { mage with hasManaShield := false }) ∧
      (Strikes (blow (some rival) 1 1) { mage with hasManaShield := false } ∧
        ¬AccountedOnce even (blow (some rival) 1 1) { mage with hasManaShield := false }) ∧
      (Strikes { blow (some rival) 30 0 with blackSkull := true } mage ∧
        ¬AccountedOnce even { blow (some rival) 30 0 with blackSkull := true } mage) ∧
      (Strikes (blow none 30 0) { mage with hasInfiniteMana := true } ∧
        ¬AccountedOnce even (blow none 30 0) { mage with hasInfiniteMana := true }) ∧
      (Strikes (blow (some rival) 30 0) { mage with level := 9 } ∧
        ¬AccountedOnce ⟨1, 0, 200⟩ (blow (some rival) 30 0) { mage with level := 9 }) ∧
      (Strikes (blow none 30 0) { mage with damageReceived := -100 } ∧
        ¬AccountedOnce even (blow none 30 0) { mage with damageReceived := -100 }) := by
  refine ⟨⟨strikes_blow (by decide) rfl _ (by decide) _, fun h => ?_⟩,
    ⟨strikes_blow (by decide) rfl _ (by decide) _, fun h => ?_⟩,
    ⟨strikes_blow (by decide) rfl _ (by decide) _, fun h => ?_⟩,
    ⟨⟨by decide, rfl, by decide, nofun, nofun, rfl⟩, fun h => ?_⟩,
    ⟨strikes_blow (by decide) rfl _ (by decide) _, fun h => ?_⟩,
    ⟨strikes_blow (by decide) rfl _ (by decide) _, fun h => ?_⟩,
    ⟨strikes_blow (by decide) rfl _ (by decide) _, fun h => ?_⟩⟩
  · exact (h.1.hasManaShield_iff.1 (by decide +kernel)).2 ⟨rfl, .inr (by decide +kernel)⟩
  · exact absurd h.1.health_eq (by decide +kernel)
  · exact absurd h.1.health_eq (by decide +kernel)
  · exact absurd h.1.health_eq (by decide +kernel)
  · exact absurd h.1.mana_eq (by decide +kernel)
  · exact absurd h.2.dealt.1 (by decide +kernel)
  · exact absurd h.2.hazarded.1 (by decide +kernel)

end TiabloServer.HealthHit
