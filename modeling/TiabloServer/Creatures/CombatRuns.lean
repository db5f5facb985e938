import TiabloServer.Creatures.HealthHit
import TiabloServer.Lib.Runs

/-!
# Runs of hits, healings and changes of mana

The other branch of `Game::combatChangeHealth`, which heals, and `Game::combatChangeMana`
(`game/game.cpp`), with the hits of the first branch, in any order. What the shield of a creature is
offered and what the hazard system makes of a hit does not matter here.

## Main definitions

* `heal`, `combatChangeMana` — a healing and a change of mana.
* `Follows` — what a creature may become.

## Main results

* `run_follows` — health and mana stay in their bounds in every run, the mana shield never grows or
  comes back, and nobody rises from 0.
-/

namespace TiabloServer.HealthHit

/-! ## The functions of the source -/

/-- A player who heals: the stat `WheelStat_t::HEALING`, and the percentage of
`checkBlessingGroveHealingByTarget`, 0 without the blessing. -/
structure Healer where
  wheelHealing : ℤ
  blessing : ℤ

/-- A healing. What the healer heals himself with, by a healing link, is a healing before it. -/
structure Healing where
  value : ℤ
  healingMultiplier : ℤ
  healer : Option Healer
  /-- The healer has a black skull and the target none. -/
  blackSkull : Bool

def applyWheelOfDestinyHealing (healing : Healing) : ℤ :=
  let value := toInt (healing.value + healing.value * healing.healingMultiplier / 100)
  match healing.healer with
  | none => value
  | some healer =>
    let value := value + healer.wheelHealing
    toInt (value + value * healer.blessing / 100)

/-- `combatChangeHealth` with a positive value: its result and the target after it. -/
def heal (healing : Healing) (target : Target) : Bool × Target :=
  if target.health ≤ 0 then (false, target)
  else if healing.healer.isSome ∧ target.kind = .player ∧ healing.blackSkull then (false, target)
  else (true, target.changeHealth (applyWheelOfDestinyHealing healing))

/-- A change of mana, with the answers of what else it depends on. -/
structure ManaChange where
  damage : CombatDamage
  attackerPlayer : Bool
  blackSkull : Bool
  /-- Whether `blockHit` blocks a loss, and what it makes of it. -/
  blockHit : ℤ → Bool × ℤ
  dodge : Bool

/-- `combatChangeMana`: its result and the target after it. -/
def combatChangeMana (change : ManaChange) (target : Target) : Bool × Target :=
  let manaChange := change.damage.total
  if manaChange > 0 then
    if change.attackerPlayer ∧ target.kind = .player ∧ change.blackSkull then (false, target)
    else (true, target.changeMana manaChange)
  else if !target.attackable then (false, target)
  else if change.attackerPlayer ∧ target.kind = .player ∧ change.blackSkull then (false, target)
  else
    let blocked := change.blockHit (min target.mana (-manaChange))
    if blocked.1 then (false, target)
    else if blocked.2 ≤ 0 then (true, target)
    else if change.dodge then (false, target)
    else (true, target.drainMana blocked.2)

/-- What is done to a creature. -/
inductive Step where
  | hit (hit : Hit)
  | heal (healing : Healing)
  | mana (change : ManaChange)

def step (g : Config) (target : Target) : Step → Target
  | .hit hit => (combatChangeHealth g hit target).2.2
  | .heal healing => (HealthHit.heal healing target).2
  | .mana change => (combatChangeMana change target).2

/-! ## What stays -/

/-- What a creature may become: health and mana are in their bounds, its mana shield has not grown
and has not come back, who had no health has none, and the rest is as it was. -/
structure Follows (start target : Target) : Prop where
  inBounds : target.InBounds
  hasManaShield : target.hasManaShield = true → start.hasManaShield = true
  manaShield : target.manaShield.toNat ≤ start.manaShield.toNat
  dead : start.health = 0 → target.health = 0
  rest_eq : target = { start with
    health := target.health, mana := target.mana, hasManaShield := target.hasManaShield,
    manaShield := target.manaShield }

variable {g : Config} {target target' : Target}

theorem Follows.refl (h : target.InBounds) : Follows target target := ⟨h, id, le_rfl, id, rfl⟩

theorem Follows.trans {start : Target} (h : Follows start target) (h' : Follows target target') :
    Follows start target' where
  inBounds := h'.inBounds
  hasManaShield := h.hasManaShield ∘ h'.hasManaShield
  manaShield := h'.manaShield.trans h.manaShield
  dead := h'.dead ∘ h.dead
  rest_eq := by
    rw [h'.rest_eq, h.rest_eq]

/-- What a hit is multiplied with is the same later. -/
theorem Follows.regular {hit : Hit} (h : Follows target target') (hreg : Regular g hit target) :
    Regular g hit target' := by
  rw [h.rest_eq]
  exact ⟨hreg.perfectShot, hreg.damageDealt, hreg.damageReceived, hreg.hazard, hreg.pvp⟩

theorem follows_changeHealth (h : target.InBounds) {healthChange : ℤ}
    (hdead : target.health = 0 → healthChange ≤ 0) : Follows target (target.changeHealth healthChange) := by
  obtain ⟨hpos, hle, hmana⟩ := h
  unfold Target.changeHealth
  split_ifs with hgain
  · refine ⟨⟨?_, ?_, hmana⟩, id, le_rfl, fun hzero => ?_, rfl⟩
    · simp only
      omega
    · simp only
      omega
    · exact absurd (hdead hzero) (by omega)
  · refine ⟨⟨le_max_left _ _, ?_, hmana⟩, id, le_rfl, fun hzero => ?_, rfl⟩
    · simp only
      omega
    · simp only
      omega

theorem follows_changeMana (h : target.InBounds) (manaChange : ℤ) :
    Follows target (target.changeMana manaChange) := by
  obtain ⟨hpos, hle, hmana, hmana'⟩ := h
  unfold Target.changeMana
  split_ifs
  · exact .refl ⟨hpos, hle, hmana, hmana'⟩
  · refine ⟨⟨hpos, hle, ?_, ?_⟩, id, le_rfl, id, rfl⟩ <;> simp only <;> omega
  · refine ⟨⟨hpos, hle, ?_, ?_⟩, id, le_rfl, id, rfl⟩ <;> simp only <;> omega

theorem follows_removeManaShield (h : target.InBounds) : Follows target target.removeManaShield :=
  ⟨h, fun h => absurd h Bool.false_ne_true, Nat.zero_le _, id, rfl⟩

/-! ## The mana shield -/

theorem follows_offer (h : target.InBounds) {D : ℤ} (hD : 0 ≤ D) : Follows target (offer target D).target := by
  have hmana := h.2.2.1
  have hlt := target.manaShield.toNat_lt
  unfold offer
  dsimp only
  split_ifs
  · refine ⟨h, id, ?_, id, rfl⟩
    have hleft := toNat_ofInt (v := target.manaShield.toNat - min target.mana D) (by omega) (by omega)
    rw [Target.setManaShield]
    simp only
    omega
  · exact follows_removeManaShield h
  · exact .refl h

theorem follows_absorb (h : target.InBounds) (damage : CombatDamage) {D : ℤ} (hD : 0 ≤ D) :
    Follows target (absorb damage target D).2 := by
  have hoffer := follows_offer h hD
  have hdrain := hoffer.trans (follows_changeMana hoffer.inBounds (-(offer target D).manaDamage))
  unfold absorb
  dsimp only
  split_ifs
  · exact hdrain.trans (follows_removeManaShield hdrain.inBounds)
  · exact hdrain
  · exact hoffer
  · exact .refl h

theorem absorb_nonneg {damage : CombatDamage} (h : damage.Nonneg) (target : Target) (D : ℤ) :
    (absorb damage target D).1.Nonneg := by
  have hsubtract : ∀ mana, (damage.subtract mana).Nonneg := by
    intro mana
    obtain ⟨hprimary, hsecondary⟩ := CombatDamage.subtract_spec h mana
    rw [CombatDamage.Nonneg, hprimary, hsecondary]
    omega
  unfold absorb
  dsimp only
  split_ifs
  · exact hsubtract _
  · exact hsubtract _
  · exact h
  · exact h

/-! ## Steps and runs -/

/-- A hit of which no value is negative. -/
theorem follows_hit {hit : Hit} (h : target.InBounds) (hreg : Regular g hit target) :
    Follows target (combatChangeHealth g hit target).2.2 := by
  have hmultiplied := multiplied_nonneg hreg
  have hshield : Follows target (absorbed hit target).2 :=
    follows_absorb h _ (CombatDamage.total_nonneg hmultiplied)
  have hleft : (absorbed hit target).1.Nonneg := absorb_nonneg (hazarded_nonneg hreg) _ _
  have hdealt : 0 ≤ (dealt g hit (absorbed hit target).2 (absorbed hit target).1).total := by
    have hspec := dealt_spec hshield.inBounds (hshield.regular hreg) hleft 0
    rw [CombatDamage.subtract_zero hleft] at hspec
    exact CombatDamage.total_nonneg hspec.1
  unfold combatChangeHealth
  dsimp only
  split_ifs
  any_goals exact .refl h
  · exact hshield
  · exact hshield
  · exact hshield.trans (follows_changeHealth hshield.inBounds fun _ => by omega)

theorem follows_heal (h : target.InBounds) (healing : Healing) : Follows target (heal healing target).2 := by
  unfold heal
  split_ifs with hdead
  · exact .refl h
  · exact .refl h
  · exact follows_changeHealth h fun hzero => absurd hzero (by omega)

theorem follows_combatChangeMana (h : target.InBounds) (change : ManaChange) :
    Follows target (combatChangeMana change target).2 := by
  unfold combatChangeMana
  dsimp only
  split_ifs
  any_goals exact .refl h
  · exact follows_changeMana h _
  · exact follows_changeMana h _

/-- The percentages of a hit are not negative. -/
def Step.Regular (g : Config) (target : Target) : Step → Prop
  | .hit h => HealthHit.Regular g h target
  | _ => True

/-- A step after others. -/
theorem Follows.step {start : Target} (h : Follows start target) {a : Step} (ha : a.Regular g start) :
    Follows start (step g target a) := by
  apply h.trans
  cases a with
  | hit hit => exact follows_hit h.inBounds (h.regular ha)
  | heal healing => exact follows_heal h.inBounds healing
  | mana change => exact follows_combatChangeMana h.inBounds change

/-- **Every run** of hits, healings and changes of mana keeps health and mana in their bounds; the
mana shield neither grows nor comes back, and who has no health stays without. -/
theorem run_follows (g : Config) {target : Target} (h : target.InBounds) {steps : List Step}
    (hreg : ∀ a ∈ steps, a.Regular g target) : Follows target (Runs.run (step g) target steps) :=
  Runs.invariant (step g) (P := Follows target) (fun _ _ hs ha => hs.step ha) (.refl h)
    (Runs.meets_of_mem _ hreg target)

/-- A mage is hit, is healed and loses mana. -/
theorem run_follows_mage : Follows mage (Runs.run (step even) mage
    [.hit (blow none 30 0), .heal ⟨20, 0, none, false⟩,
      .mana ⟨⟨.MANADRAIN, -3, 0, true, 0⟩, false, false, fun loss => (false, loss), false⟩]) := by
  refine run_follows even (by decide) fun a ha => ?_
  simp only [List.mem_cons, List.not_mem_nil, or_false] at ha
  rcases ha with rfl | rfl | rfl
  · exact ⟨le_rfl, nofun, by decide, fun _ _ h h' => ⟨h, h'⟩, nofun⟩
  · trivial
  · trivial

end TiabloServer.HealthHit
