import TiabloServer.Lib.Runs

/-!
# Experience and levels

`Player::addExperience`, `Player::removeExperience` and the loss of experience in `Player::death`
(`creatures/players/player.cpp`): the experience changes, and a loop moves the level after it, with
the greatest health, mana and capacity. A step takes the amount as the event scripts and the hazard
bonus have left it. Current health and mana, which follow the greatest at a change of level, and the
percentages and messages sent to clients are left out.

## Main definitions

* `Players.Bracketed` — the level is the one of the experience.
* `Players.Step.Fits` — the amount of a step does not wrap around.

## Main results

* `Players.getExpForLevel_lt` — the experience of a level grows up to `maxLevel`.
* `Players.run_bracketed` — every step of a run keeps the level that of the experience.
* `Players.not_bracketed_removeExperience` — not so when a negative amount is removed.
-/

namespace TiabloServer.Players

/-! ## The functions of the source -/

/-- `Player::getExpForLevel`. -/
def getExpForLevel (lv : Int32) : UInt64 :=
  let lv := (lv - 1).toInt64.toUInt64
  (50 * lv * lv * lv - 150 * lv * lv + 400 * lv) / 3

def VOCATION_NONE : ℕ := 0

/-- What a level brings: `gainHP`, `gainMana` and `gainCap`. -/
structure Gains where
  hp : UInt32
  mana : UInt32
  cap : UInt32

/-- The fields of a `Vocation` that a change of level reads. -/
structure Vocation where
  id : ℕ
  gains : Gains

/-- The vocation of a player and the vocation `VOCATION_NONE`. -/
structure Vocations where
  vocation : Vocation
  noneVocation : Vocation

/-- The fields of a `Player` that a change of experience writes. -/
structure Player where
  level : UInt32
  experience : UInt64
  healthMax : Int32
  manaMax : UInt32
  capacity : UInt32

/-- `getExpForLevel(level)`. -/
def expForLevel (level : UInt32) : UInt64 := getExpForLevel level.toInt32

/-- Adds what a level brings. -/
def Player.gain (p : Player) (g : Gains) : Player :=
  { p with
    healthMax := p.healthMax + g.hp.toInt32
    manaMax := p.manaMax + g.mana
    capacity := p.capacity + g.cap }

/-- `std::max<int32_t>(0, x)`. -/
def clamp32 (x : UInt32) : UInt32 := if x.toInt32 < 0 then 0 else x

/-- `std::max<int64_t>(0, x)`. -/
def clamp64 (x : UInt64) : UInt64 := if x.toInt64 < 0 then 0 else x

/-- Takes away what a level brings. -/
def Player.lose (p : Player) (g : Gains) : Player :=
  { p with
    healthMax := (clamp32 (p.healthMax.toUInt32 - g.hp)).toInt32
    manaMax := clamp32 (p.manaMax - g.mana)
    capacity := clamp32 (p.capacity - g.cap) }

/-- The gains that the loops of `addExperience` and `removeExperience` choose by a level. -/
def Vocations.gainsAt (v : Vocations) (level : UInt32) : Gains :=
  if v.vocation.id ≠ VOCATION_NONE ∧ level ≤ 8 then v.noneVocation.gains else v.vocation.gains

/-- The loop of `addExperience`, at most `fuel` times, from the experience of the next level. -/
def levelUp (v : Vocations) : ℕ → Player → UInt64 → Player
  | 0, p, _ => p
  | fuel + 1, p, nextLevelExp =>
    if nextLevelExp ≤ p.experience then
      let level := p.level + 1
      let p := { p with level }.gain (v.gainsAt level)
      let currLevelExp := nextLevelExp
      let nextLevelExp := expForLevel (level + 1)
      if nextLevelExp ≤ currLevelExp then p else levelUp v fuel p nextLevelExp
    else p

/-- How often the loop of `addExperience` may go round: as often as there are levels. -/
def levelCount : ℕ := 2 ^ 32

/-- `Player::addExperience`. -/
def addExperience (v : Vocations) (p : Player) (exp : UInt64) : Player :=
  let currLevelExp := expForLevel p.level
  let nextLevelExp := expForLevel (p.level + 1)
  if nextLevelExp ≤ currLevelExp then p
  else if exp = 0 then p
  else levelUp v levelCount { p with experience := p.experience + exp } nextLevelExp

/-- The loops of `removeExperience` and `death`, where `gains` gives what is taken away for the
level that is left. -/
def levelDown (gains : UInt32 → Gains) : ℕ → Player → Player
  | 0, p => p
  | fuel + 1, p =>
    if 1 < p.level ∧ p.experience < expForLevel p.level then
      let level := p.level - 1
      levelDown gains fuel ({ p with level }.lose (gains level))
    else p

/-- The experience that `removeExperience` leaves. -/
def remaining (p : Player) (exp : UInt64) : UInt64 := clamp64 (p.experience - exp)

/-- `Player::removeExperience`. -/
def removeExperience (v : Vocations) (p : Player) (exp : UInt64) : Player :=
  if p.experience = 0 ∨ exp = 0 then p
  else levelDown v.gainsAt p.level.toNat { p with experience := remaining p exp }

/-- The experience that `death` leaves. -/
def remainingOnDeath (v : Vocations) (p : Player) (expLoss : UInt64) : UInt64 :=
  if v.vocation.id = VOCATION_NONE ∨ 7 < p.level then p.experience - expLoss else p.experience

/-- The level loss of `Player::death`. -/
def loseOnDeath (v : Vocations) (p : Player) (expLoss : UInt64) : Player :=
  if expLoss = 0 then p
  else
    levelDown (fun _ => v.vocation.gains) p.level.toNat
      { p with experience := remainingOnDeath v p expLoss }

/-- The changes of experience. -/
inductive Step where
  | addExperience (exp : UInt64)
  | removeExperience (exp : UInt64)
  | death (expLoss : UInt64)

/-- The player after a step. -/
def step (v : Vocations) (p : Player) : Step → Player
  | .addExperience exp => addExperience v p exp
  | .removeExperience exp => Players.removeExperience v p exp
  | .death expLoss => loseOnDeath v p expLoss

/-! ## The experience of a level -/

/-- The experience of the level `n + 1`, as a number. -/
def experienceOf (n : ℕ) : ℕ := 100 * (n.choose 3 + n)

/-- The highest level: there `getExpForLevel` stops growing. -/
def maxLevel : ℕ := 717217

theorem two_mul_choose (n : ℕ) : 2 * n.choose 2 + n = n ^ 2 := by
  induction n with
  | zero => rfl
  | succ n ih =>
    rw [Nat.choose_succ_succ' n 1, Nat.choose_one_right]
    linarith [ih, show (n + 1) ^ 2 = n ^ 2 + 2 * n + 1 by ring]

theorem six_mul_choose (n : ℕ) : 6 * n.choose 3 + 3 * n ^ 2 = n ^ 3 + 2 * n := by
  induction n with
  | zero => rfl
  | succ n ih =>
    have htwo := two_mul_choose n
    rw [Nat.choose_succ_succ' n 2]
    linarith [show (n + 1) ^ 2 = n ^ 2 + 2 * n + 1 by ring,
      show (n + 1) ^ 3 = n ^ 3 + 3 * n ^ 2 + 3 * n + 1 by ring]

/-- The polynomial of the source is three times the experience. -/
theorem three_mul_experienceOf (n : ℕ) : 3 * experienceOf n + 150 * n * n = 50 * n * n * n + 400 * n := by
  have hsix := six_mul_choose n
  unfold experienceOf
  linarith [show 150 * n * n = 150 * n ^ 2 by ring, show 50 * n * n * n = 50 * n ^ 3 by ring]

theorem experienceOf_lt_succ (n : ℕ) : experienceOf n < experienceOf (n + 1) := by
  have hchoose : (n + 1).choose 3 = n.choose 2 + n.choose 3 := Nat.choose_succ_succ' n 2
  unfold experienceOf
  omega

theorem experienceOf_strictMono : StrictMono experienceOf :=
  strictMono_nat_of_lt_succ experienceOf_lt_succ

/-- Up to the highest level the polynomial is a 64-bit value. -/
theorem experienceOf_lt {n : ℕ} (hn : n < maxLevel) : 3 * experienceOf n < 2 ^ 64 := by
  have hle : experienceOf n ≤ experienceOf 717216 :=
    experienceOf_strictMono.monotone (by unfold maxLevel at hn; omega)
  have htop := three_mul_experienceOf 717216
  omega

/-- The level as the signed and then widened argument of the polynomial. -/
theorem toUInt64_level {level : UInt32} (hpos : 0 < level.toNat) (hlt : level.toNat < 2 ^ 31) :
    (level.toInt32 - 1).toInt64.toUInt64 = UInt64.ofNat (level.toNat - 1) := by
  have hlevel : level.toInt32.toInt = (level.toNat : ℤ) := by
    rw [Int32.toInt, UInt32.toBitVec_toInt32, BitVec.toInt_eq_toNat_of_lt]
    · rfl
    · show 2 * level.toNat < 2 ^ 32
      omega
  have hpred : (level.toInt32 - 1).toInt = ((level.toNat - 1 : ℕ) : ℤ) := by
    have hone : (1 : Int32).toInt = 1 := rfl
    rw [Int32.toInt_sub, hlevel, hone, Int.bmod_eq_of_le] <;> omega
  have hwide : (level.toInt32 - 1).toInt64 = Int64.ofNat (level.toNat - 1) := by
    rw [← Int64.toInt_inj, Int32.toInt_toInt64, hpred, Int64.toInt_ofNat_of_lt]
    omega
  rw [hwide, Int64.toUInt64_ofNat']

/-- **The experience of a level** up to the highest, in spite of the wrapping arithmetic. -/
theorem expForLevel_toNat {level : UInt32} (hpos : 0 < level.toNat) (hle : level.toNat ≤ maxLevel) :
    (expForLevel level).toNat = experienceOf (level.toNat - 1) := by
  have hmax : level.toNat < 2 ^ 31 := by unfold maxLevel at hle; omega
  set n := level.toNat - 1 with hn
  have hsum : (50 * UInt64.ofNat n * UInt64.ofNat n * UInt64.ofNat n + 400 * UInt64.ofNat n : UInt64)
      = UInt64.ofNat (3 * experienceOf n) + 150 * UInt64.ofNat n * UInt64.ofNat n := by
    have h := congrArg UInt64.ofNat (three_mul_experienceOf n)
    simp only [UInt64.ofNat_add, UInt64.ofNat_mul] at h ⊢
    exact h.symm
  have hvalue : (50 * UInt64.ofNat n * UInt64.ofNat n * UInt64.ofNat n -
      150 * UInt64.ofNat n * UInt64.ofNat n + 400 * UInt64.ofNat n : UInt64) =
      UInt64.ofNat (3 * experienceOf n) := by grind
  have hlt : 3 * experienceOf n < 2 ^ 64 := experienceOf_lt (by omega)
  simp only [expForLevel, getExpForLevel]
  rw [toUInt64_level hpos hmax, ← hn, hvalue, UInt64.toNat_div, UInt64.toNat_ofNat',
    Nat.mod_eq_of_lt hlt]
  exact Nat.mul_div_cancel_left _ (by decide)

theorem toNat_succ {level : UInt32} (h : level.toNat < maxLevel) : (level + 1).toNat = level.toNat + 1 := by
  have hone : (1 : UInt32).toNat = 1 := rfl
  unfold maxLevel at h
  rw [UInt32.toNat_add, hone, Nat.mod_eq_of_lt (by omega)]

/-- **The experience of a level grows** up to the highest. -/
theorem getExpForLevel_lt {level : UInt32} (hpos : 0 < level.toNat)
    (hlt : level.toNat < maxLevel) : expForLevel level < expForLevel (level + 1) := by
  have hsucc := toNat_succ hlt
  rw [UInt64.lt_iff_toNat_lt, expForLevel_toNat hpos hlt.le,
    expForLevel_toNat (by omega) (by omega), hsucc]
  exact experienceOf_strictMono (by omega)

/-- Beyond the highest level it does not grow. -/
theorem expForLevel_maxLevel {level : UInt32} (h : level.toNat = maxLevel) :
    expForLevel (level + 1) ≤ expForLevel level := by
  have hlevel : level = 717217 := by
    rw [← UInt32.toNat_inj, h]
    rfl
  subst hlevel
  decide +kernel

theorem expForLevel_one : expForLevel 1 = 0 := by decide +kernel

/-! ## The level of an experience -/

/-- The level of a player is the one of his experience. -/
def Bracketed (p : Player) : Prop :=
  expForLevel p.level ≤ p.experience ∧ p.experience < expForLevel (p.level + 1)

/-- The experience is below `2 ^ 63` and the level below the highest. -/
def InBounds (p : Player) : Prop := p.experience.toNat < 2 ^ 63 ∧ p.level.toNat < maxLevel

/-- There is no level zero. -/
theorem Bracketed.level_pos {p : Player} (h : Bracketed p) : 0 < p.level.toNat := by
  by_contra hzero
  have hlevel : p.level = 0 := by
    rw [← UInt32.toNat_inj]
    exact Nat.eq_zero_of_not_pos hzero
  have hlt := h.2
  rw [hlevel, show (0 : UInt32) + 1 = 1 from rfl, expForLevel_one] at hlt
  exact absurd (UInt64.lt_iff_toNat_lt.1 hlt) (Nat.not_lt_zero _)

/-- An experience has one level. -/
theorem Bracketed.unique {p : Player} (h : Bracketed p) (hlevel : p.level.toNat < maxLevel)
    {n : UInt32} (hn : n.toNat < maxLevel)
    (hbracket : expForLevel n ≤ p.experience ∧ p.experience < expForLevel (n + 1)) : n = p.level := by
  have hpos : 0 < n.toNat := Bracketed.level_pos (p := { p with level := n }) hbracket
  have hlow₁ := UInt64.le_iff_toNat_le.1 h.1
  have hhigh₁ := UInt64.lt_iff_toNat_lt.1 h.2
  have hlow₂ := UInt64.le_iff_toNat_le.1 hbracket.1
  have hhigh₂ := UInt64.lt_iff_toNat_lt.1 hbracket.2
  rw [expForLevel_toNat h.level_pos hlevel.le] at hlow₁
  rw [expForLevel_toNat (by rw [toNat_succ hlevel]; omega) (by rw [toNat_succ hlevel]; omega),
    toNat_succ hlevel] at hhigh₁
  rw [expForLevel_toNat hpos hn.le] at hlow₂
  rw [expForLevel_toNat (by rw [toNat_succ hn]; omega) (by rw [toNat_succ hn]; omega),
    toNat_succ hn] at hhigh₂
  have hle₁ := experienceOf_strictMono.lt_iff_lt.1 (hlow₁.trans_lt hhigh₂)
  have hle₂ := experienceOf_strictMono.lt_iff_lt.1 (hlow₂.trans_lt hhigh₁)
  rw [← UInt32.toNat_inj]
  omega

@[simp] theorem level_gain (p : Player) (g : Gains) : (p.gain g).level = p.level := rfl
@[simp] theorem experience_gain (p : Player) (g : Gains) : (p.gain g).experience = p.experience := rfl
@[simp] theorem level_lose (p : Player) (g : Gains) : (p.lose g).level = p.level := rfl
@[simp] theorem experience_lose (p : Player) (g : Gains) : (p.lose g).experience = p.experience := rfl

/-- **The loop of `addExperience` stops at the level of the experience**, unless it reaches the
highest level. -/
theorem levelUp_bracketed {v : Vocations} {fuel : ℕ} {p : Player} (hpos : 0 < p.level.toNat)
    (hlt : p.level.toNat < maxLevel) (hlow : expForLevel p.level ≤ p.experience)
    (hfuel : maxLevel ≤ fuel + p.level.toNat)
    (hmax : (levelUp v fuel p (expForLevel (p.level + 1))).level.toNat < maxLevel) :
    Bracketed (levelUp v fuel p (expForLevel (p.level + 1))) := by
  induction fuel generalizing p with
  | zero => omega
  | succ fuel ih =>
    unfold levelUp at hmax ⊢
    by_cases hreached : expForLevel (p.level + 1) ≤ p.experience
    · have hsucc := toNat_succ hlt
      rw [if_pos hreached] at hmax ⊢
      set q : Player := ({ p with level := p.level + 1 } : Player).gain (v.gainsAt (p.level + 1))
      have hq : q.level = p.level + 1 := rfl
      dsimp only at hmax ⊢
      by_cases htop : p.level.toNat + 1 = maxLevel
      · -- the highest level: the loop breaks there
        rw [if_pos (expForLevel_maxLevel (hsucc.trans htop)), hq] at hmax
        omega
      · have hgrows : expForLevel (p.level + 1) < expForLevel (p.level + 1 + 1) :=
          getExpForLevel_lt (by omega) (by omega)
        rw [if_neg (UInt64.not_le.2 hgrows)] at hmax ⊢
        exact ih (by rw [hq]; omega) (by rw [hq]; omega) hreached (by rw [hq]; omega) hmax
    · rw [if_neg hreached]
      exact ⟨hlow, UInt64.not_le.1 hreached⟩

theorem experience_levelDown (gains : UInt32 → Gains) (fuel : ℕ) (p : Player) :
    (levelDown gains fuel p).experience = p.experience := by
  induction fuel generalizing p with
  | zero => rfl
  | succ fuel ih =>
    unfold levelDown
    split_ifs
    · exact ih _
    · rfl

/-- **The loops that take levels away stop at the level of the experience.** -/
theorem levelDown_bracketed {gains : UInt32 → Gains} {fuel : ℕ} {p : Player}
    (hpos : 0 < p.level.toNat) (hfuel : p.level.toNat ≤ fuel) (hhigh : p.experience < expForLevel (p.level + 1)) :
    Bracketed (levelDown gains fuel p) := by
  induction fuel generalizing p with
  | zero => omega
  | succ fuel ih =>
    unfold levelDown
    by_cases hdown : 1 < p.level ∧ p.experience < expForLevel p.level
    · rw [if_pos hdown]
      have hone : (1 : UInt32).toNat = 1 := rfl
      have hlevel : 1 < p.level.toNat := UInt32.lt_iff_toNat_lt.1 hdown.1
      have hpred : (p.level - 1).toNat = p.level.toNat - 1 :=
        UInt32.toNat_sub_of_le _ _ (UInt32.le_iff_toNat_le.2 hlevel.le)
      refine ih (by simp; omega) (by simp; omega) ?_
      simpa [UInt32.sub_add_cancel] using hdown.2
    · rw [if_neg hdown]
      refine ⟨?_, hhigh⟩
      rcases not_and_or.1 hdown with hlevel | hexp
      · have hlevel : p.level = 1 := by
          have hle := UInt32.le_iff_toNat_le.1 (UInt32.not_lt.1 hlevel)
          rw [← UInt32.toNat_inj]
          exact le_antisymm hle hpos
        rw [hlevel, expForLevel_one]
        exact UInt64.le_iff_toNat_le.2 (Nat.zero_le _)
      · exact UInt64.not_lt.1 hexp

/-! ## Runs -/

/-- Whether the amount of a step does not wrap around: the sum is a 64-bit value, and of the
difference the sign is right. -/
def Step.Fits (p : Player) : Step → Prop
  | .addExperience exp => p.experience.toNat + exp.toNat < 2 ^ 64
  | .removeExperience exp => exp.toNat ≤ p.experience.toNat + 2 ^ 63
  | .death expLoss => expLoss.toNat ≤ p.experience.toNat + 2 ^ 63

theorem clamp64_eq (x : UInt64) : clamp64 x = if x.toNat < 2 ^ 63 then x else 0 := by
  have hneg : x.toInt64 < 0 ↔ ¬ x.toNat < 2 ^ 63 := by
    rw [Int64.lt_iff_toInt_lt, show (0 : Int64).toInt = 0 from rfl, Int64.toInt,
      UInt64.toBitVec_toInt64, BitVec.toInt_eq_toNat_cond, UInt64.toNat_toBitVec]
    have := x.toNat_lt
    split_ifs <;> omega
  unfold clamp64
  by_cases h : x.toNat < 2 ^ 63
  · rw [if_neg (fun hx => hneg.1 hx h), if_pos h]
  · rw [if_pos (hneg.2 h), if_neg h]

/-- A difference that fits is the difference, or too large to be a signed value. -/
theorem sub_fits {a b : UInt64} (h : b.toNat ≤ a.toNat + 2 ^ 63) (ha : a.toNat < 2 ^ 63) :
    (a - b).toNat ≤ a.toNat ∨ 2 ^ 63 ≤ (a - b).toNat := by
  rw [UInt64.toNat_sub]
  have := b.toNat_lt
  omega

/-- **A step that fits keeps the level that of the experience.** -/
theorem step_bracketed {v : Vocations} {p : Player} {a : Step} (hp : Bracketed p)
    (hbounds : InBounds p) (hfits : a.Fits p) (hbounds' : InBounds (step v p a)) : Bracketed (step v p a) := by
  have hpos := hp.level_pos
  have hdown : ∀ (gains : UInt32 → Gains) (e : UInt64), e.toNat ≤ p.experience.toNat →
      Bracketed (levelDown gains p.level.toNat { p with experience := e }) := by
    intro gains e he
    refine levelDown_bracketed (p := { p with experience := e }) hpos le_rfl ?_
    exact UInt64.lt_iff_toNat_lt.2 (he.trans_lt (UInt64.lt_iff_toNat_lt.1 hp.2))
  cases a with
  | addExperience exp =>
    simp only [step, addExperience] at hbounds' ⊢
    have hgrows := getExpForLevel_lt hpos hbounds.2
    rw [if_neg (UInt64.not_le.2 hgrows)] at hbounds' ⊢
    split_ifs at hbounds' ⊢ with hzero
    · exact hp
    · refine levelUp_bracketed (p := { p with experience := p.experience + exp }) hpos hbounds.2 ?_
        (by unfold maxLevel levelCount; omega) hbounds'.2
      have hsum : (p.experience + exp).toNat = p.experience.toNat + exp.toNat := by
        rw [UInt64.toNat_add]
        exact Nat.mod_eq_of_lt hfits
      have hlow := UInt64.le_iff_toNat_le.1 hp.1
      refine UInt64.le_iff_toNat_le.2 (hlow.trans ?_)
      show p.experience.toNat ≤ (p.experience + exp).toNat
      omega
  | removeExperience exp =>
    simp only [step, removeExperience]
    split_ifs
    · exact hp
    · refine hdown _ _ ?_
      rw [remaining, clamp64_eq]
      rcases sub_fits hfits hbounds.1 with hle | hbig
      · split_ifs
        · exact hle
        · exact Nat.zero_le _
      · rw [if_neg (not_lt.2 hbig)]
        exact Nat.zero_le _
  | death expLoss =>
    simp only [step, loseOnDeath] at hbounds' ⊢
    split_ifs at hbounds' ⊢
    · exact hp
    · have hexp : (remainingOnDeath v p expLoss).toNat < 2 ^ 63 := by
        have h := hbounds'.1
        rwa [experience_levelDown] at h
      refine hdown _ _ ?_
      unfold remainingOnDeath at hexp ⊢
      split_ifs at hexp ⊢
      · exact (sub_fits hfits hbounds.1).resolve_right (not_le.2 hexp)
      · exact le_rfl

/-- **The level stays that of the experience.** In a run whose amounts do not wrap around, and which
stays in bounds, after every step the level is the only one whose experience the player has
reached without that of the next. -/
theorem run_bracketed (v : Vocations) {p : Player} (hp : Bracketed p) (hbounds : InBounds p)
    {l : List Step}
    (hl : Runs.Meets (step v) (fun p a => a.Fits p ∧ InBounds (step v p a)) p l) :
    ∀ m, m <+: l →
      let q := Runs.run (step v) p m
      Bracketed q ∧ ∀ n : UInt32, n.toNat < maxLevel →
        expForLevel n ≤ q.experience → q.experience < expForLevel (n + 1) → n = q.level := by
  intro m hm
  have hrun : Bracketed (Runs.run (step v) p m) ∧ InBounds (Runs.run (step v) p m) := by
    refine Runs.invariant (step v) (P := fun p => Bracketed p ∧ InBounds p) (fun s a hs ha => ?_)
      ⟨hp, hbounds⟩ (Runs.Meets.of_prefix (step v) hl hm)
    exact ⟨step_bracketed hs.1 hs.2 ha.1 ha.2, ha.2⟩
  exact ⟨hrun.1, fun n hn hlow hhigh => hrun.1.unique hrun.2.2 hn ⟨hlow, hhigh⟩⟩

/-! ## A novice -/

/-- The vocations of a player without one. -/
def noVocations : Vocations where
  vocation := ⟨VOCATION_NONE, ⟨5, 5, 1000⟩⟩
  noneVocation := ⟨VOCATION_NONE, ⟨5, 5, 1000⟩⟩

/-- A player of the first level with `experience`. -/
def novice (experience : UInt64) : Player := ⟨1, experience, 150, 0, 40000⟩

/-- A player rises to the second level, falls back and dies. -/
theorem run_bracketed_novice :
    let l : List Step := [.addExperience 60, .removeExperience 90, .death 10]
    ∀ m, m <+: l →
      let q := Runs.run (step noVocations) (novice 95) m
      Bracketed q ∧ ∀ n : UInt32, n.toNat < maxLevel →
        expForLevel n ≤ q.experience → q.experience < expForLevel (n + 1) → n = q.level := by
  have hrise : step noVocations (novice 95) (.addExperience 60) = ⟨2, 155, 155, 5, 41000⟩ := by rfl
  have hfall : step noVocations ⟨2, 155, 155, 5, 41000⟩ (.removeExperience 90) = novice 65 := by rfl
  have hdie : step noVocations (novice 65) (.death 10) = novice 55 := by rfl
  refine run_bracketed noVocations ⟨by decide +kernel, by decide +kernel⟩
    ⟨by decide, by decide⟩ ⟨⟨by unfold Step.Fits; decide, ?_⟩, ?_⟩
  · rw [hrise]
    exact ⟨by decide, by decide⟩
  rw [hrise]
  refine ⟨⟨by unfold Step.Fits; decide, ?_⟩, ?_⟩
  · rw [hfall]
    exact ⟨by decide, by decide⟩
  rw [hfall]
  refine ⟨⟨by unfold Step.Fits; decide, ?_⟩, trivial⟩
  rw [hdie]
  exact ⟨by decide, by decide⟩

/-- **A negative amount is added, without a level.** As a 64-bit value, `-5` leaves five points more
than there were, and the loop of `removeExperience` only takes levels away. -/
theorem not_bracketed_removeExperience :
    Bracketed (novice 95) ∧ InBounds (novice 95) ∧
      InBounds (step noVocations (novice 95) (.removeExperience (-5))) ∧
      ¬ Bracketed (step noVocations (novice 95) (.removeExperience (-5))) := by
  have hstep : step noVocations (novice 95) (.removeExperience (-5)) = novice 100 := by rfl
  rw [hstep]
  refine ⟨⟨by decide +kernel, by decide +kernel⟩, ⟨by decide, by decide⟩, ⟨by decide, by decide⟩, ?_⟩
  intro h
  exact absurd h.2 (by decide +kernel)

end TiabloServer.Players
