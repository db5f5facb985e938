import TiabloServer.Players.Level

/-!
# Health, mana and capacity of a level

The loops of `Players.Level` add what a level brings and take it away again, each with a rule of its
own for whether it is the vocation or `VOCATION_NONE` that counts. `addExperience` looks at the new
level, which is the higher one; `removeExperience` looks at the new level too, which is the lower
one; `death` looks at the vocation alone.

## Main definitions

* `Players.Step.Unclamped` — no loss is cut off at zero.
* `Players.Step.Restores` — a step takes away what its levels have brought.

## Main results

* `Players.run_fitted` — health, mana and capacity stay those of the level.
* `Players.not_fitted_removeExperience` — a knight who falls from the ninth level to the eighth
  keeps what the ninth has brought above a vocation of none.
-/

namespace TiabloServer.Players

variable {v : Vocations} {p : Player}

/-! ## Stats -/

/-- Greatest health and mana, and capacity. -/
structure Stats where
  healthMax : Int32
  manaMax : UInt32
  capacity : UInt32
deriving DecidableEq

def Player.stats (p : Player) : Stats := ⟨p.healthMax, p.manaMax, p.capacity⟩

/-- Stats with what a level brings. -/
def Stats.gain (s : Stats) (g : Gains) : Stats :=
  ⟨s.healthMax + g.hp.toInt32, s.manaMax + g.mana, s.capacity + g.cap⟩

/-- The stats of the level `n + 1`, when `base` are those of the first. -/
def levelStats (v : Vocations) (base : Stats) : ℕ → Stats
  | 0 => base
  | n + 1 => (levelStats v base n).gain (v.gainsAt (UInt32.ofNat (n + 2)))

/-- The stats of a player are those of his level, which is one of the levels there are. -/
structure Fitted (v : Vocations) (base : Stats) (p : Player) : Prop where
  pos : 0 < p.level.toNat
  le : p.level.toNat ≤ maxLevel
  stats : p.stats = levelStats v base (p.level.toNat - 1)

/-- Whether nothing is cut off at zero when a player loses `g`. -/
def Player.Affords (p : Player) (g : Gains) : Prop :=
  ¬ (p.healthMax.toUInt32 - g.hp).toInt32 < 0 ∧ ¬ (p.manaMax - g.mana).toInt32 < 0 ∧
    ¬ (p.capacity - g.cap).toInt32 < 0

/-- What a level has brought is lost again with it. -/
theorem stats_lose {s : Stats} {g : Gains} (hp : p.stats = s.gain g) (hafford : p.Affords g) :
    (p.lose g).stats = s := by
  simp only [Player.stats, Stats.gain, Stats.mk.injEq] at hp
  obtain ⟨hhealth, hmana, hcap⟩ := hp
  simp only [Player.Affords, hhealth, hmana, hcap, Int32.toUInt32_add, UInt32.toUInt32_toInt32,
    UInt32.add_sub_cancel, Int32.toInt32_toUInt32] at hafford
  obtain ⟨hhealth₀, hmana₀, hcap₀⟩ := hafford
  simp only [Player.stats, Player.lose, clamp32, hhealth, hmana, hcap, Int32.toUInt32_add,
    UInt32.toUInt32_toInt32, UInt32.add_sub_cancel, Int32.toInt32_toUInt32, if_neg hhealth₀,
    if_neg hmana₀, if_neg hcap₀]

/-! ## The loops -/

/-- The loop of `addExperience` leads from the stats of a level to those of a level. -/
theorem levelUp_fitted {base : Stats} {fuel : ℕ} (hp : Fitted v base p) (hlt : p.level.toNat < maxLevel) :
    Fitted v base (levelUp v fuel p (expForLevel (p.level + 1))) := by
  induction fuel generalizing p with
  | zero => exact hp
  | succ fuel ih =>
    unfold levelUp
    by_cases hreached : expForLevel (p.level + 1) ≤ p.experience
    · have hsucc := toNat_succ hlt
      have hpos := hp.pos
      rw [if_pos hreached]
      set q : Player := ({ p with level := p.level + 1 } : Player).gain (v.gainsAt (p.level + 1))
        with hqdef
      have hq : q.level = p.level + 1 := rfl
      have hlevel : UInt32.ofNat (p.level.toNat - 1 + 2) = p.level + 1 := by
        rw [← UInt32.toNat_inj, hsucc, UInt32.toNat_ofNat']
        unfold maxLevel at hlt
        omega
      have hfitted : Fitted v base q := by
        refine ⟨by rw [hq]; omega, by rw [hq]; omega, ?_⟩
        have hindex : q.level.toNat - 1 = p.level.toNat - 1 + 1 := by
          rw [hq]
          omega
        rw [hindex, levelStats, hlevel, ← hp.stats]
        rfl
      dsimp only
      by_cases htop : p.level.toNat + 1 = maxLevel
      · rw [if_pos (expForLevel_maxLevel (hsucc.trans htop))]
        exact hfitted
      · have hgrows : expForLevel (p.level + 1) < expForLevel (p.level + 1 + 1) :=
          getExpForLevel_lt (by omega) (by omega)
        rw [if_neg (UInt64.not_le.2 hgrows)]
        exact ih hfitted (by rw [hq]; omega)
    · rw [if_neg hreached]
      exact hp

/-- No loss in a loop that takes levels away is cut off at zero. -/
def Unclamped (gains : UInt32 → Gains) : ℕ → Player → Prop
  | 0, _ => True
  | fuel + 1, p =>
    1 < p.level ∧ p.experience < expForLevel p.level →
      let level := p.level - 1
      p.Affords (gains level) ∧ Unclamped gains fuel ({ p with level }.lose (gains level))

/-- **A loop that takes levels away** leads from the stats of a level to those of a level, when it
takes what each level has brought and stops at `floor` at the latest. -/
theorem levelDown_fitted {base : Stats} {gains : UInt32 → Gains} {floor : UInt32} {fuel : ℕ}
    (hp : Fitted v base p) (hfloor : floor = 1 ∨ expForLevel floor ≤ p.experience) (hle : floor ≤ p.level)
    (hgains : ∀ l, floor < l → l ≤ p.level → gains (l - 1) = v.gainsAt l)
    (hunclamped : Unclamped gains fuel p) : Fitted v base (levelDown gains fuel p) := by
  induction fuel generalizing p with
  | zero => exact hp
  | succ fuel ih =>
    unfold levelDown
    by_cases hdown : 1 < p.level ∧ p.experience < expForLevel p.level
    · rw [if_pos hdown]
      obtain ⟨hafford, hrest⟩ := hunclamped hdown
      have hone : (1 : UInt32).toNat = 1 := rfl
      have hlevel : 1 < p.level.toNat := UInt32.lt_iff_toNat_lt.1 hdown.1
      have hpred : (p.level - 1).toNat = p.level.toNat - 1 :=
        UInt32.toNat_sub_of_le _ _ (UInt32.le_iff_toNat_le.2 hlevel.le)
      have hne : floor ≠ p.level := by
        rintro rfl
        rcases hfloor with h | h
        · exact absurd hlevel (by rw [h]; decide)
        · exact absurd hdown.2 (UInt64.not_lt.2 h)
      have hlt : floor.toNat < p.level.toNat :=
        lt_of_le_of_ne (UInt32.le_iff_toNat_le.1 hle) fun h => hne (UInt32.toNat_inj.1 h)
      have hbrought := hgains p.level (UInt32.lt_iff_toNat_lt.2 hlt) (UInt32.le_iff_toNat_le.2 le_rfl)
      dsimp only at hafford hrest ⊢
      set q : Player := ({ p with level := p.level - 1 } : Player).lose (gains (p.level - 1))
      have hq : q.level.toNat = p.level.toNat - 1 := hpred
      have hfitted : Fitted v base q := by
        have hle' := hp.le
        refine ⟨by omega, by omega, ?_⟩
        obtain ⟨n, hn⟩ : ∃ n, p.level.toNat = n + 2 := ⟨p.level.toNat - 2, by omega⟩
        have hstats : p.stats = (levelStats v base n).gain (gains (p.level - 1)) := by
          have hofNat : UInt32.ofNat (n + 2) = p.level := by
            rw [← hn, UInt32.ofNat_toNat]
          rw [hp.stats, hn, hbrought]
          simp only [levelStats, hofNat, show n + 2 - 1 = n + 1 by omega]
        rw [hq, hn, show n + 2 - 1 - 1 = n by omega]
        exact stats_lose (p := { p with level := p.level - 1 }) hstats hafford
      refine ih hfitted hfloor (UInt32.le_iff_toNat_le.2 (by omega)) (fun l hl hl' => ?_) hrest
      refine hgains l hl (UInt32.le_iff_toNat_le.2 ?_)
      have := UInt32.le_iff_toNat_le.1 hl'
      omega
    · rw [if_neg hdown]
      exact hp

/-! ## Steps and runs -/

/-- Whether no loss of a step is cut off at zero. -/
def Step.Unclamped (v : Vocations) (p : Player) : Step → Prop
  | .addExperience _ => True
  | .removeExperience exp =>
    Players.Unclamped v.gainsAt p.level.toNat { p with experience := remaining p exp }
  | .death expLoss =>
    Players.Unclamped (fun _ => v.vocation.gains) p.level.toNat
      { p with experience := remainingOnDeath v p expLoss }

/-- Whether the levels bring the same with and without the vocation. -/
def Vocations.Alike (v : Vocations) : Prop :=
  v.vocation.id = VOCATION_NONE ∨ v.vocation.gains = v.noneVocation.gains

/-- Whether a step takes away what its levels have brought. The vocation makes no difference; or
`removeExperience` does not lead from above the eighth level to the eighth or below, and `death`
leads to no level below the eighth. -/
def Step.Restores (v : Vocations) (p : Player) : Step → Prop
  | .addExperience _ => True
  | .removeExperience exp => v.Alike ∨ p.level ≤ 8 ∨ expForLevel 9 ≤ remaining p exp
  | .death expLoss =>
    v.Alike ∨ (if p.level ≤ 8 then expForLevel p.level else expForLevel 8) ≤
      remainingOnDeath v p expLoss

/-- Where the vocation makes no difference, all levels bring the same. -/
theorem Vocations.Alike.gainsAt (h : v.Alike) (level : UInt32) : v.gainsAt level = v.vocation.gains := by
  unfold Vocations.gainsAt
  rcases h with h | h
  · simp [h]
  · simp [h]

theorem gainsAt_low (hid : v.vocation.id ≠ VOCATION_NONE) {level : UInt32} (h : level.toNat ≤ 8) :
    v.gainsAt level = v.noneVocation.gains :=
  if_pos ⟨hid, UInt32.le_iff_toNat_le.2 h⟩

theorem gainsAt_high {level : UInt32} (h : 8 < level.toNat) : v.gainsAt level = v.vocation.gains :=
  if_neg fun hlow => by
    have hle : level.toNat ≤ 8 := UInt32.le_iff_toNat_le.1 hlow.2
    omega

theorem toNat_pred {floor l : UInt32} (h : floor < l) : (l - 1).toNat = l.toNat - 1 := by
  have hlt := UInt32.lt_iff_toNat_lt.1 h
  have hone : (1 : UInt32).toNat = 1 := rfl
  exact UInt32.toNat_sub_of_le _ _ (UInt32.le_iff_toNat_le.2 (by omega))

/-- **`removeExperience` leads to the stats of a level** when it restores. -/
theorem removeExperience_fitted {base : Stats} {exp : UInt64} (hp : Fitted v base p)
    (hrestores : (Step.removeExperience exp).Restores v p)
    (hunclamped : (Step.removeExperience exp).Unclamped v p) : Fitted v base (removeExperience v p exp) := by
  unfold removeExperience
  split_ifs
  · exact hp
  have hp' : Fitted v base { p with experience := remaining p exp } := ⟨hp.pos, hp.le, hp.stats⟩
  have hone : (1 : UInt32) ≤ p.level := UInt32.le_iff_toNat_le.2 hp.pos
  by_cases halike : v.Alike
  · refine levelDown_fitted hp' (Or.inl rfl) hone (fun l _ _ => ?_) hunclamped
    rw [halike.gainsAt, halike.gainsAt]
  have hid : v.vocation.id ≠ VOCATION_NONE := fun h => halike (Or.inl h)
  rcases hrestores.resolve_left halike with hlow | hhigh
  · refine levelDown_fitted hp' (Or.inl rfl) hone (fun l hl hle => ?_) hunclamped
    have hl8 : l.toNat ≤ 8 :=
      (UInt32.le_iff_toNat_le.1 hle).trans (UInt32.le_iff_toNat_le.1 hlow)
    rw [gainsAt_low hid hl8, gainsAt_low hid (by rw [toNat_pred hl]; omega)]
  · by_cases hlow : p.level ≤ 8
    · refine levelDown_fitted hp' (Or.inl rfl) hone (fun l hl hle => ?_) hunclamped
      have hl8 : l.toNat ≤ 8 :=
        (UInt32.le_iff_toNat_le.1 hle).trans (UInt32.le_iff_toNat_le.1 hlow)
      rw [gainsAt_low hid hl8, gainsAt_low hid (by rw [toNat_pred hl]; omega)]
    · have hnine : (9 : UInt32) ≤ p.level :=
        UInt32.le_iff_toNat_le.2 (UInt32.lt_iff_toNat_lt.1 (UInt32.not_le.1 hlow))
      refine levelDown_fitted hp' (Or.inr hhigh) hnine (fun l hl _ => ?_) hunclamped
      have hl9 : 9 < l.toNat := UInt32.lt_iff_toNat_lt.1 hl
      have hbefore : v.gainsAt (l - 1) = v.vocation.gains :=
        gainsAt_high (by rw [toNat_pred hl]; omega)
      have hat : v.gainsAt l = v.vocation.gains := gainsAt_high (by omega)
      rw [hbefore, hat]

/-- **`death` leads to the stats of a level** when it restores. -/
theorem loseOnDeath_fitted {base : Stats} {expLoss : UInt64} (hp : Fitted v base p)
    (hrestores : (Step.death expLoss).Restores v p) (hunclamped : (Step.death expLoss).Unclamped v p) :
    Fitted v base (loseOnDeath v p expLoss) := by
  unfold loseOnDeath
  split_ifs
  · exact hp
  have hp' : Fitted v base { p with experience := remainingOnDeath v p expLoss } :=
    ⟨hp.pos, hp.le, hp.stats⟩
  by_cases halike : v.Alike
  · refine levelDown_fitted hp' (Or.inl rfl) (UInt32.le_iff_toNat_le.2 hp.pos) (fun l _ _ => ?_)
      hunclamped
    rw [halike.gainsAt]
  have hfloor := hrestores.resolve_left halike
  by_cases hlow : p.level ≤ 8
  · rw [if_pos hlow] at hfloor
    refine levelDown_fitted hp' (Or.inr hfloor) (UInt32.le_iff_toNat_le.2 le_rfl)
      (fun l hl hle => ?_) hunclamped
    exact absurd hl (UInt32.not_lt.2 hle)
  · rw [if_neg hlow] at hfloor
    have height : (8 : UInt32) ≤ p.level :=
      UInt32.le_iff_toNat_le.2 (UInt32.lt_iff_toNat_lt.1 (UInt32.not_le.1 hlow)).le
    refine levelDown_fitted hp' (Or.inr hfloor) height (fun l hl _ => ?_) hunclamped
    exact (gainsAt_high (UInt32.lt_iff_toNat_lt.1 hl)).symm

/-- A step that restores leads to the stats of a level. -/
theorem step_fitted {base : Stats} {a : Step} (hp : Fitted v base p) (hrestores : a.Restores v p)
    (hunclamped : a.Unclamped v p) : Fitted v base (step v p a) := by
  cases a with
  | addExperience exp =>
    simp only [step, addExperience]
    split_ifs with hmax
    · exact hp
    · exact hp
    · have hlt : p.level.toNat < maxLevel :=
        lt_of_le_of_ne hp.le fun h => hmax (expForLevel_maxLevel h)
      exact levelUp_fitted (p := { p with experience := p.experience + exp })
        ⟨hp.pos, hp.le, hp.stats⟩ hlt
  | removeExperience exp => exact removeExperience_fitted hp hrestores hunclamped
  | death expLoss => exact loseOnDeath_fitted hp hrestores hunclamped

/-- **Health, mana and capacity depend on the vocation and the level.** In a run that cuts no loss
off at zero and whose steps restore, they are after every step those of the level; so two states of
the run with one level have the same. -/
theorem run_fitted {base : Stats} (hp : Fitted v base p) {l : List Step}
    (hl : Runs.Meets (step v) (fun p a => a.Restores v p ∧ a.Unclamped v p) p l) :
    (∀ m, m <+: l → Fitted v base (Runs.run (step v) p m)) ∧
      ∀ m m', m <+: l → m' <+: l →
        (Runs.run (step v) p m).level = (Runs.run (step v) p m').level →
          (Runs.run (step v) p m).stats = (Runs.run (step v) p m').stats := by
  have hrun : ∀ m, m <+: l → Fitted v base (Runs.run (step v) p m) := fun m hm =>
    Runs.invariant (step v) (P := Fitted v base)
      (fun _ _ hs ha => step_fitted hs ha.1 ha.2) hp (Runs.Meets.of_prefix (step v) hl hm)
  refine ⟨hrun, fun m m' hm hm' hlevel => ?_⟩
  rw [(hrun m hm).stats, (hrun m' hm').stats, hlevel]

/-! ## A knight -/

/-- The vocations of a knight. -/
def knightVocations : Vocations where
  vocation := ⟨4, ⟨15, 5, 2500⟩⟩
  noneVocation := ⟨VOCATION_NONE, ⟨5, 5, 1000⟩⟩

/-- The stats of a knight of the first level. -/
def knightBase : Stats := ⟨150, 55, 40000⟩

/-- A knight of the eighth level. -/
def knight : Player := ⟨8, 4200, 185, 90, 47000⟩

theorem knight_fitted : Fitted knightVocations knightBase knight :=
  ⟨by decide, by decide, by decide +kernel⟩

/-- The knight rises to the tenth level and falls back to the ninth. -/
theorem run_fitted_knight :
    let l : List Step := [.addExperience 5500, .removeExperience 1000]
    (∀ m, m <+: l → Fitted knightVocations knightBase (Runs.run (step knightVocations) knight m)) ∧
      ∀ m m', m <+: l → m' <+: l →
        (Runs.run (step knightVocations) knight m).level =
            (Runs.run (step knightVocations) knight m').level →
          (Runs.run (step knightVocations) knight m).stats =
            (Runs.run (step knightVocations) knight m').stats := by
  have hrise : step knightVocations knight (.addExperience 5500) = ⟨10, 9700, 215, 100, 52000⟩ := by
    rfl
  refine run_fitted knight_fitted ⟨⟨trivial, trivial⟩, ?_⟩
  rw [hrise]
  refine ⟨⟨Or.inr (Or.inr (by decide +kernel)), fun _ => ⟨by unfold Player.Affords; decide +kernel, ?_⟩⟩,
    trivial⟩
  exact fun h => absurd h (by decide +kernel)

/-- **The ninth level is not taken back.** The knight gains the experience of a level and loses it
again: he is of the eighth level as before and has 10 points of health and 1500 of capacity more. -/
theorem not_fitted_removeExperience :
    let l : List Step := [.addExperience 2200, .removeExperience 2200]
    Fitted knightVocations knightBase knight ∧ Bracketed knight ∧
      Runs.Meets (step knightVocations) (fun p a => a.Unclamped knightVocations p) knight l ∧
      (Runs.run (step knightVocations) knight l).level = knight.level ∧
      (Runs.run (step knightVocations) knight l).experience = knight.experience ∧
      (Runs.run (step knightVocations) knight l).stats = ⟨195, 90, 48500⟩ ∧
      ¬ Fitted knightVocations knightBase (Runs.run (step knightVocations) knight l) := by
  have hrise : step knightVocations knight (.addExperience 2200) = ⟨9, 6400, 200, 95, 49500⟩ := by rfl
  have hfall : step knightVocations ⟨9, 6400, 200, 95, 49500⟩ (.removeExperience 2200) =
      ⟨8, 4200, 195, 90, 48500⟩ := by rfl
  simp only [Runs.run_cons, Runs.run_nil, Runs.meets_cons, Runs.meets_nil, hrise, hfall]
  refine ⟨knight_fitted, ⟨by decide +kernel, by decide +kernel⟩,
    ⟨trivial, fun _ => ⟨by unfold Player.Affords; decide +kernel, ?_⟩, trivial⟩, rfl, rfl, rfl, ?_⟩
  · exact fun h => absurd h (by decide +kernel)
  · intro h
    exact absurd h.stats (by decide +kernel)

end TiabloServer.Players
