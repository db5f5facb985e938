import TiabloServer.Players.Training

/-!
# What a death takes of skills and of the magic level

The loops of `Player::death` (`player.cpp`) that take a lost amount off `manaSpent` and off the
tries of a skill, and borrow from the requirement of the level below when that is not enough. The
amounts are products of a 64-bit sum with a floating-point share and are given.

## Main definitions

* `Training.Takes` — a loop ends and takes an amount, without an underflow.
* `Training.KeepsTries` — the lost amount and the tries that are left fit in the casts.

## Main results

* `Training.loseMana_takes` — the loss of mana is exact.
* `Training.death_takes_iff` — when the loss of tries is.
-/

namespace TiabloServer.Training

/-! ## The functions of the source -/

/-- The variables of a loop: a level, its tries and what is still to be taken. -/
structure Loss (L C : Type) where
  level : L
  tries : UInt64
  lost : C

section Functions

variable (vocation : Vocation)

/-- A round of the loop on `lostMana`, with the subtraction after the loop. -/
def manaLossRound (s : Loss UInt32 UInt64) : Loop.Round (Loss UInt32 UInt64) (Skill UInt32) :=
  if s.lost > s.tries ∧ s.level > 0 then
    .next ⟨s.level - 1, vocation.getReqMana s.level, s.lost - s.tries⟩
  else .done ⟨s.level, s.tries - s.lost⟩

/-- The magic level loss of `Player::death`. -/
def loseMana (mana : Skill UInt32) (lostMana : UInt64) (fuel : ℕ) : Option (Skill UInt32) :=
  Loop.run (manaLossRound vocation) fuel ⟨mana.level, mana.tries, lostMana⟩

/-- `std::max<int32_t>(0, tries - lostSkillTries)`: the 64-bit difference is cast to a signed 32-bit
value. -/
def keptTries (tries : UInt64) (lostSkillTries : UInt32) : UInt64 :=
  UInt64.ofNat (max 0 ((tries - lostSkillTries.toUInt64).toBitVec.setWidth 32).toInt).toNat

/-- A round of the loop on `lostSkillTries`, with the subtraction after the loop. -/
def skillLossRound (skill : Fin 16) (s : Loss UInt16 UInt32) :
    Loop.Round (Loss UInt16 UInt32) (Skill UInt16) :=
  if s.lost.toUInt64 > s.tries then
    if s.level ≤ 10 then .done ⟨10, keptTries 0 0⟩
    else .next ⟨s.level - 1, vocation.getReqSkillTries skill s.level,
      (s.lost.toUInt64 - s.tries).toUInt32⟩
  else .done ⟨s.level, keptTries s.tries s.lost⟩

/-- The skill loss of `Player::death`, for one skill: the lost amount is cast to 32 bits. -/
def loseTries (skill : Fin 16) (s : Skill UInt16) (lost : UInt64) (fuel : ℕ) :
    Option (Skill UInt16) :=
  Loop.run (skillLossRound vocation skill) fuel ⟨s.level, s.tries, lost.toUInt32⟩

end Functions

/-! ## What a death is to take -/

section Takes

variable (vocation : Vocation)

/-- The subtractions that a round of the loop on `lostMana` makes. -/
def manaSubtractions (s : Loss UInt32 UInt64) : List (ℕ × ℕ) :=
  if s.lost > s.tries ∧ s.level > 0 then [(s.lost.toNat, s.tries.toNat), (s.level.toNat, 1)]
  else [(s.tries.toNat, s.lost.toNat)]

/-- The subtractions that a round of the loop on `lostSkillTries` makes. -/
def skillSubtractions (s : Loss UInt16 UInt32) : List (ℕ × ℕ) :=
  if s.lost.toUInt64 > s.tries then [(s.lost.toNat, s.tries.toNat), (s.level.toNat, 1)]
  else [(s.tries.toNat, s.lost.toNat)]

/-- A death takes exactly `lostMana`: the loop ends, no subtraction underflows, and less mana is
left than the next magic level requires. -/
structure TakesMana (mana : Skill UInt32) (lostMana : UInt64) : Prop where
  subtracts : ∀ s, Loop.Reaches (manaLossRound vocation) ⟨mana.level, mana.tries, lostMana⟩ s →
    ∀ d ∈ manaSubtractions s, d.2 ≤ d.1
  takes : ∃ mana' fuel, (∀ fuel', fuel ≤ fuel' → loseMana vocation mana lostMana fuel' = some mana') ∧
    mana'.total vocation.requiredMana + lostMana.toNat = mana.total vocation.requiredMana ∧
    mana'.tries < vocation.getReqMana (mana'.level + 1)

/-- A death takes exactly `lost` tries: the loop ends, no subtraction underflows, the level is at
least 10, and fewer tries are left than the next level requires. -/
structure TakesTries (skill : Fin 16) (s : Skill UInt16) (lost : UInt64) : Prop where
  subtracts : ∀ s', Loop.Reaches (skillLossRound vocation skill) ⟨s.level, s.tries, lost.toUInt32⟩ s' →
    ∀ d ∈ skillSubtractions s', d.2 ≤ d.1
  takes : ∃ s' fuel, (∀ fuel', fuel ≤ fuel' → loseTries vocation skill s lost fuel' = some s') ∧
    s'.total (vocation.requiredTries skill) + lost.toNat = s.total (vocation.requiredTries skill) ∧
    10 ≤ s'.level ∧ s'.tries < vocation.getReqSkillTries skill (s'.level + 1)

/-- The level and tries `s` that an amount of tries comes to. -/
def Stands (skill : Fin 16) (amount : ℕ) (s : Skill UInt16) : Prop :=
  10 ≤ s.level.toNat ∧ s.tries < vocation.getReqSkillTries skill (s.level + 1) ∧
    s.total (vocation.requiredTries skill) = amount

/-- The casts to 32 bits lose nothing: the level and tries that are left when the low 32 bits of
`lost` are taken have tries whose low 32 bits are not negative when they are signed, and whose high
bits are those of `lost`. -/
def KeepsTries (skill : Fin 16) (s : Skill UInt16) (lost : UInt64) : Prop :=
  ∀ left, Stands vocation skill (s.total (vocation.requiredTries skill) - lost.toNat % 2 ^ 32) left →
    left.tries.toNat % 2 ^ 32 < 2 ^ 31 ∧ left.tries.toNat / 2 ^ 32 = lost.toNat / 2 ^ 32

end Takes

/-! ## Borrowing from the level below -/

section Borrows

variable {L : Type} {next : L → L} {req : L → UInt64} {required : L → ℕ} {rest lost : ℕ} {level : L}
  {tries : UInt64}

/-- What holds in each round: a level and its tries come to what is to be left and what is still to
be taken, and there are not too many of them when that is gone. -/
structure Borrows (next : L → L) (req : L → UInt64) (required : L → ℕ) (rest : ℕ) (level : L)
    (tries : UInt64) (lost : ℕ) : Prop where
  total : required level + tries.toNat = rest + lost
  below : tries.toNat < (req (next level)).toNat + lost

/-- **A level is borrowed from**: its requirement becomes the tries of the level below. -/
theorem Borrows.borrow (h : Borrows next req required rest level tries lost) {prev : L}
    (hprev : next prev = level) (hsum : required level = required prev + (req level).toNat)
    (hmore : tries.toNat < lost) : Borrows next req required rest prev (req level) (lost - tries.toNat) where
  total := by
    have htotal := h.total
    omega
  below := by
    rw [hprev]
    omega

/-- **What is left** when there are tries enough. -/
theorem Borrows.left (h : Borrows next req required rest level tries lost) {tries' : UInt64}
    (hleft : tries'.toNat + lost = tries.toNat) :
    required level + tries'.toNat = rest ∧ tries' < req (next level) := by
  have htotal := h.total
  have hbelow := h.below
  rw [UInt64.lt_iff_toNat_lt]
  constructor <;> omega

/-- There is something to borrow from. -/
theorem Borrows.required_pos (h : Borrows next req required rest level tries lost)
    (hmore : tries.toNat < lost) : required level ≠ 0 := by
  have htotal := h.total
  omega

end Borrows

/-! ## Mana -/

variable {vocation : Vocation}

theorem toNat_magLevel_pred {level : UInt32} (h : 0 < level) : (level - 1).toNat + 1 = level.toNat := by
  have hpos : 0 < level.toNat := UInt32.lt_iff_toNat_lt.1 h
  have hone : (1 : UInt32) ≤ level := UInt32.le_iff_toNat_le.2 hpos
  have hsub : (level - 1).toNat = level.toNat - 1 := UInt32.toNat_sub_of_le _ _ hone
  omega

theorem requiredMana_pred {level : UInt32} (h : 0 < level) :
    vocation.requiredMana level = vocation.requiredMana (level - 1) + (vocation.getReqMana level).toNat := by
  have hpred := toNat_magLevel_pred h
  rw [Vocation.requiredMana, Vocation.requiredMana, ← hpred, Finset.sum_Icc_succ_top (by omega), hpred,
    UInt32.ofNat_toNat]

theorem requiredMana_zero : vocation.requiredMana 0 = 0 := rfl

/-- The invariant of the loop on `lostMana`. -/
def ManaInv (vocation : Vocation) (rest : ℕ) (s : Loss UInt32 UInt64) : Prop :=
  Borrows (· + 1) vocation.getReqMana vocation.requiredMana rest s.level s.tries s.lost.toNat

/-- When mana is to be taken yet, there is a level to borrow from. -/
theorem ManaInv.level_pos {rest : ℕ} {s : Loss UInt32 UInt64} (h : ManaInv vocation rest s)
    (hmore : s.lost > s.tries) : 0 < s.level := by
  have hne : s.level ≠ 0 := fun hzero =>
    h.required_pos (UInt64.lt_iff_toNat_lt.1 hmore) (hzero ▸ requiredMana_zero)
  rw [UInt32.lt_iff_toNat_lt]
  exact Nat.pos_of_ne_zero fun hzero => hne (UInt32.toNat_inj.1 hzero)

theorem manaLossRound_next {rest : ℕ} {s s' : Loss UInt32 UInt64} (h : ManaInv vocation rest s)
    (hround : manaLossRound vocation s = .next s') : ManaInv vocation rest s' ∧ s'.level.toNat < s.level.toNat := by
  unfold manaLossRound at hround
  split_ifs at hround with hmore
  obtain rfl := Loop.Round.next.inj hround
  have hlt := UInt64.lt_iff_toNat_lt.1 hmore.1
  have hpred := toNat_magLevel_pred hmore.2
  refine ⟨?_, ?_⟩
  · have hlost : (s.lost - s.tries).toNat = s.lost.toNat - s.tries.toNat :=
      UInt64.toNat_sub_of_le _ _ (UInt64.le_of_lt hmore.1)
    rw [ManaInv, hlost]
    exact h.borrow (by simp) (requiredMana_pred hmore.2) hlt
  · dsimp only
    omega

theorem manaLossRound_done {rest : ℕ} {s : Loss UInt32 UInt64} {mana : Skill UInt32}
    (h : ManaInv vocation rest s) (hround : manaLossRound vocation s = .done mana) :
    mana.total vocation.requiredMana = rest ∧ mana.tries < vocation.getReqMana (mana.level + 1) := by
  unfold manaLossRound at hround
  split_ifs at hround with hmore
  obtain rfl := Loop.Round.done.inj hround
  have hle : s.lost ≤ s.tries := UInt64.not_lt.1 fun hlt => hmore ⟨hlt, h.level_pos hlt⟩
  refine h.left ?_
  have hnat := UInt64.le_iff_toNat_le.1 hle
  rw [UInt64.toNat_sub_of_le _ _ hle]
  omega

theorem manaInv_subtracts {rest : ℕ} {s : Loss UInt32 UInt64} (h : ManaInv vocation rest s) :
    ∀ d ∈ manaSubtractions s, d.2 ≤ d.1 := by
  intro d hd
  unfold manaSubtractions at hd
  split_ifs at hd with hmore
  · have hlt := UInt64.lt_iff_toNat_lt.1 hmore.1
    have hpos := UInt32.lt_iff_toNat_lt.1 hmore.2
    simp only [List.mem_cons, List.not_mem_nil, or_false] at hd
    rcases hd with rfl | rfl
    · exact hlt.le
    · exact hpos
  · obtain rfl := List.mem_singleton.1 hd
    have hle : s.lost ≤ s.tries := UInt64.not_lt.1 fun hlt => hmore ⟨hlt, h.level_pos hlt⟩
    exact UInt64.le_iff_toNat_le.1 hle

/-- **The loss of mana is exact**, whatever the vocation requires. -/
theorem loseMana_takes {mana : Skill UInt32} {lostMana : UInt64}
    (hbelow : mana.tries < vocation.getReqMana (mana.level + 1))
    (hlost : lostMana.toNat ≤ mana.total vocation.requiredMana) : TakesMana vocation mana lostMana := by
  have hstart : ManaInv vocation (mana.total vocation.requiredMana - lostMana.toNat)
      ⟨mana.level, mana.tries, lostMana⟩ := by
    have hlt := UInt64.lt_iff_toNat_lt.1 hbelow
    refine ⟨?_, ?_⟩
    · unfold Skill.total at hlost ⊢
      dsimp only
      omega
    · dsimp only
      omega
  refine ⟨fun s hs => manaInv_subtracts (hs.invariant hstart fun _ _ h hround =>
    (manaLossRound_next h hround).1), ?_⟩
  obtain ⟨mana', fuel, hrun, htotal, hbelow'⟩ := Loop.total
    (fun s : Loss UInt32 UInt64 => s.level.toNat) (fun _ _ h hround => manaLossRound_next h hround)
    (fun _ _ h hround => manaLossRound_done h hround) hstart
  exact ⟨mana', fuel, hrun, by omega, hbelow'⟩

/-! ## Tries -/

variable {skill : Fin 16}

theorem toNat_keptTries {tries : UInt64} {lost : UInt32} (h : lost.toNat ≤ tries.toNat) :
    (keptTries tries lost).toNat =
      if (tries.toNat - lost.toNat) % 2 ^ 32 < 2 ^ 31 then (tries.toNat - lost.toNat) % 2 ^ 32 else 0 := by
  have hle : lost.toUInt64 ≤ tries := by
    rw [UInt64.le_iff_toNat_le, UInt32.toNat_toUInt64]
    exact h
  have hlow : ((tries - lost.toUInt64).toBitVec.setWidth 32).toNat =
      (tries.toNat - lost.toNat) % 2 ^ 32 := by
    rw [BitVec.toNat_setWidth, UInt64.toNat_toBitVec, UInt64.toNat_sub_of_le _ _ hle,
      UInt32.toNat_toUInt64]
  rw [keptTries, UInt64.toNat_ofNat', BitVec.toInt_eq_toNat_cond, hlow]
  split_ifs <;> omega

theorem toNat_level_pred {level : UInt16} (h : 0 < level.toNat) : (level - 1).toNat + 1 = level.toNat := by
  have hone : (1 : UInt16) ≤ level := UInt16.le_iff_toNat_le.2 h
  have hsub : (level - 1).toNat = level.toNat - 1 := UInt16.toNat_sub_of_le _ _ hone
  omega

theorem requiredTries_pred {level : UInt16} (h : 10 < level.toNat) :
    vocation.requiredTries skill level = vocation.requiredTries skill (level - 1) +
      (vocation.getReqSkillTries skill level).toNat := by
  have hpred := toNat_level_pred (by omega : 0 < level.toNat)
  rw [Vocation.requiredTries, Vocation.requiredTries, ← hpred, Finset.sum_Icc_succ_top (by omega),
    hpred, UInt16.ofNat_toNat]

/-- Nothing is required up to level 10. -/
theorem requiredTries_low {level : UInt16} (h : level.toNat ≤ 10) : vocation.requiredTries skill level = 0 := by
  rw [Vocation.requiredTries, Finset.Icc_eq_empty (by omega), Finset.sum_empty]

/-- The invariant of the loop on `lostSkillTries`. -/
def TriesInv (vocation : Vocation) (skill : Fin 16) (rest : ℕ) (s : Loss UInt16 UInt32) : Prop :=
  10 ≤ s.level.toNat ∧ Borrows (· + 1) (vocation.getReqSkillTries skill)
    (vocation.requiredTries skill) rest s.level s.tries s.lost.toNat

theorem toUInt64_gt {lost : UInt32} {tries : UInt64} : lost.toUInt64 > tries ↔ tries.toNat < lost.toNat := by
  rw [gt_iff_lt, UInt64.lt_iff_toNat_lt, UInt32.toNat_toUInt64]

/-- When tries are to be taken yet, there is a level to borrow from. -/
theorem TriesInv.level_gt {rest : ℕ} {s : Loss UInt16 UInt32} (h : TriesInv vocation skill rest s)
    (hmore : s.tries.toNat < s.lost.toNat) : 10 < s.level.toNat := by
  by_contra hlow
  exact h.2.required_pos hmore (requiredTries_low (not_lt.1 hlow))

theorem skillLossRound_next {rest : ℕ} {s s' : Loss UInt16 UInt32} (h : TriesInv vocation skill rest s)
    (hround : skillLossRound vocation skill s = .next s') :
    TriesInv vocation skill rest s' ∧ s'.level.toNat < s.level.toNat := by
  unfold skillLossRound at hround
  split_ifs at hround with hmore hlow
  obtain rfl := Loop.Round.next.inj hround
  have hlt := toUInt64_gt.1 hmore
  have hlevel := h.level_gt hlt
  have hpred := toNat_level_pred (by omega : 0 < s.level.toNat)
  have hlost : (s.lost.toUInt64 - s.tries).toUInt32.toNat = s.lost.toNat - s.tries.toNat := by
    have hbound := s.lost.toNat_lt
    rw [UInt64.toNat_toUInt32, UInt64.toNat_sub_of_le _ _ (UInt64.le_of_lt hmore),
      UInt32.toNat_toUInt64, Nat.mod_eq_of_lt (by omega)]
  refine ⟨⟨?_, ?_⟩, ?_⟩
  · dsimp only
    omega
  · rw [hlost]
    exact h.2.borrow (by simp) (requiredTries_pred hlevel) hlt
  · dsimp only
    omega

/-- The last round subtracts from tries that are enough. -/
theorem skillLossRound_done {rest : ℕ} {s : Loss UInt16 UInt32} {s' : Skill UInt16}
    (h : TriesInv vocation skill rest s) (hround : skillLossRound vocation skill s = .done s') :
    s.lost.toNat ≤ s.tries.toNat ∧ s' = ⟨s.level, keptTries s.tries s.lost⟩ := by
  unfold skillLossRound at hround
  split_ifs at hround with hmore hlow
  · exact absurd (h.level_gt (toUInt64_gt.1 hmore)) (not_lt.2 (UInt16.le_iff_toNat_le.1 hlow))
  · exact ⟨not_lt.1 fun hlt => hmore (toUInt64_gt.2 hlt), (Loop.Round.done.inj hround).symm⟩

theorem triesInv_subtracts {rest : ℕ} {s : Loss UInt16 UInt32} (h : TriesInv vocation skill rest s) :
    ∀ d ∈ skillSubtractions s, d.2 ≤ d.1 := by
  intro d hd
  unfold skillSubtractions at hd
  split_ifs at hd with hmore
  · have hlt := toUInt64_gt.1 hmore
    have hlevel := h.level_gt hlt
    simp only [List.mem_cons, List.not_mem_nil, or_false] at hd
    rcases hd with rfl | rfl <;> dsimp only <;> omega
  · obtain rfl := List.mem_singleton.1 hd
    exact not_lt.1 fun hlt => hmore (toUInt64_gt.2 hlt)

/-- An amount comes to more than all that is required of a level below the one that it stands at. -/
theorem Stands.required_lt {amount : ℕ} {s : Skill UInt16} (h : Stands vocation skill amount s)
    {level : UInt16} (hlt : s.level.toNat < level.toNat) : amount < vocation.requiredTries skill level := by
  obtain ⟨hlow, hbelow, htotal⟩ := h
  have hbound := level.toNat_lt
  have hsucc : (s.level + 1).toNat = s.level.toNat + 1 := by
    rw [UInt16.toNat_add]
    exact Nat.mod_eq_of_lt (by simp; omega)
  have hnext : vocation.requiredTries skill (s.level + 1) =
      vocation.requiredTries skill (s.level + 1 - 1) +
        (vocation.getReqSkillTries skill (s.level + 1)).toNat := requiredTries_pred (by omega)
  rw [UInt16.add_sub_cancel] at hnext
  have hmono : vocation.requiredTries skill (s.level + 1) ≤ vocation.requiredTries skill level := by
    refine Finset.sum_le_sum_of_subset (Finset.Icc_subset_Icc_right ?_)
    omega
  have hnat := UInt64.lt_iff_toNat_lt.1 hbelow
  unfold Skill.total at htotal
  omega

/-- **An amount comes to one level and tries.** -/
theorem Stands.unique {amount : ℕ} {s s' : Skill UInt16} (h : Stands vocation skill amount s)
    (h' : Stands vocation skill amount s') : s = s' := by
  obtain ⟨level, tries⟩ := s
  obtain ⟨level', tries'⟩ := s'
  have hlevel : level = level' := by
    refine UInt16.toNat_inj.1 (le_antisymm (not_lt.1 fun hlt => ?_) (not_lt.1 fun hlt => ?_))
    · have h₁ := h'.required_lt hlt
      have h₂ := h.2.2
      unfold Skill.total at h₂
      dsimp only at h₂
      omega
    · have h₁ := h.required_lt hlt
      have h₂ := h'.2.2
      unfold Skill.total at h₂
      dsimp only at h₂
      omega
  subst hlevel
  have htotal := h.2.2.trans h'.2.2.symm
  simp only [Skill.total, Nat.add_left_cancel_iff] at htotal
  rw [UInt64.toNat_inj.1 htotal]

/-- **The loop takes the low 32 bits** of the lost amount, and then the last cast is made. -/
theorem loseTries_left {s : Skill UInt16} {lost : UInt64} (hlevel : 10 ≤ s.level)
    (hbelow : s.tries < vocation.getReqSkillTries skill (s.level + 1))
    (hlost : lost.toNat ≤ s.total (vocation.requiredTries skill)) :
    (∀ s', Loop.Reaches (skillLossRound vocation skill) ⟨s.level, s.tries, lost.toUInt32⟩ s' →
      ∀ d ∈ skillSubtractions s', d.2 ≤ d.1) ∧
    ∃ left fuel,
      (∀ fuel', fuel ≤ fuel' → loseTries vocation skill s lost fuel' =
        some ⟨left.level, keptTries left.tries 0⟩) ∧
      Stands vocation skill (s.total (vocation.requiredTries skill) - lost.toNat % 2 ^ 32) left := by
  set rest := s.total (vocation.requiredTries skill) - lost.toNat % 2 ^ 32 with hrest
  have hlow : lost.toUInt32.toNat = lost.toNat % 2 ^ 32 := UInt64.toNat_toUInt32 lost
  have hstart : TriesInv vocation skill rest ⟨s.level, s.tries, lost.toUInt32⟩ := by
    have hlt := UInt64.lt_iff_toNat_lt.1 hbelow
    refine ⟨UInt16.le_iff_toNat_le.1 hlevel, ?_, ?_⟩
    · rw [hlow, hrest]
      unfold Skill.total at hlost ⊢
      dsimp only
      omega
    · dsimp only
      omega
  refine ⟨fun s' hs => triesInv_subtracts (hs.invariant hstart fun _ _ h hround =>
    (skillLossRound_next h hround).1), ?_⟩
  obtain ⟨s', fuel, hrun, left, rfl, hleft⟩ := Loop.total
    (Q := fun s' => ∃ left : Skill UInt16, ⟨left.level, keptTries left.tries 0⟩ = s' ∧
      Stands vocation skill rest left)
    (fun s : Loss UInt16 UInt32 => s.level.toNat) (fun _ _ h hround => skillLossRound_next h hround)
    (fun s s' h hround => by
      obtain ⟨hle, rfl⟩ := skillLossRound_done h hround
      have hsub : (s.tries - s.lost.toUInt64).toNat = s.tries.toNat - s.lost.toNat := by
        rw [UInt64.toNat_sub_of_le, UInt32.toNat_toUInt64]
        rwa [UInt64.le_iff_toNat_le, UInt32.toNat_toUInt64]
      obtain ⟨htotal, hbelow⟩ := h.2.left
        (show (s.tries - s.lost.toUInt64).toNat + s.lost.toNat = s.tries.toNat by omega)
      exact ⟨⟨s.level, s.tries - s.lost.toUInt64⟩, by simp [keptTries], h.1, hbelow, htotal⟩) hstart
  exact ⟨left, fuel, hrun, hleft⟩

/-- The loss of tries is exact just when the casts lose nothing. -/
theorem takesTries_iff {s : Skill UInt16} {lost : UInt64} (hlevel : 10 ≤ s.level)
    (hbelow : s.tries < vocation.getReqSkillTries skill (s.level + 1))
    (hlost : lost.toNat ≤ s.total (vocation.requiredTries skill)) :
    TakesTries vocation skill s lost ↔ KeepsTries vocation skill s lost := by
  obtain ⟨hsubtracts, left, fuel, hrun, hleft⟩ := loseTries_left hlevel hbelow hlost
  have hkept := toNat_keptTries (show (0 : UInt32).toNat ≤ left.tries.toNat from Nat.zero_le _)
  rw [UInt32.toNat_zero, Nat.sub_zero] at hkept
  obtain ⟨hlow, htries, htotal⟩ := id hleft
  unfold Skill.total at htotal
  have hpos : lost.toNat % 2 ^ 32 ≤ s.total (vocation.requiredTries skill) :=
    (Nat.mod_le _ _).trans hlost
  unfold Skill.total at hpos
  constructor
  · rintro ⟨-, s', fuel', hrun', htaken, -, -⟩ other hother
    obtain rfl := hother.unique hleft
    have heq := (hrun' (max fuel fuel') (le_max_right _ _)).symm.trans
      (hrun (max fuel fuel') (le_max_left _ _))
    obtain rfl := Option.some.inj heq
    simp only [Skill.total, hkept] at htaken
    split_ifs at htaken <;> constructor <;> omega
  · intro hkeeps
    obtain ⟨hsigned, hhigh⟩ := hkeeps left hleft
    rw [if_pos hsigned] at hkept
    refine ⟨hsubtracts, _, fuel, hrun, ?_, UInt16.le_iff_toNat_le.2 hlow, ?_⟩
    · simp only [Skill.total, hkept]
      omega
    · rw [UInt64.lt_iff_toNat_lt] at htries ⊢
      exact lt_of_le_of_lt (hkept.trans_le (Nat.mod_le _ _)) htries

/-- Amounts below 2^32 are lost as they are to be when no level requires more than 2^31 tries. -/
theorem keepsTries_of_small {s : Skill UInt16} {lost : UInt64} (hlost : lost.toNat < 2 ^ 32)
    (hsmall : ∀ level, (vocation.getReqSkillTries skill level).toNat ≤ 2 ^ 31) :
    KeepsTries vocation skill s lost := by
  rintro left ⟨-, hbelow, -⟩
  have hlt := UInt64.lt_iff_toNat_lt.1 hbelow
  have hle := hsmall (left.level + 1)
  constructor <;> omega

/-- A vocation that requires 2^32 tries for a level. -/
def slowLearner : Vocation where
  skillTries _ _ := 2 ^ 32
  mana _ := 1

end TiabloServer.Training
