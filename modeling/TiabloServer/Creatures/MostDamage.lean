import Mathlib

/-!
# Who did the most damage

`Creature::onDeath` goes through the damage map in the order of the creature ids. It keeps the
attacker with the largest damage within the fight window, and it puts the leader of a party with
shared experience in the place of this attacker for each attacker from such a party, whatever that
one did.

## Main definitions

* `MostDamage.CreditsStrongest` — the damage of an attacker with the largest damage is credited.
* `MostDamage.Overrides` — an attacker from a sharing party comes last, behind the largest damage.

## Main results

* `MostDamage.mostDamageCreature_of_overrides`, `MostDamage.mostDamageCreature_of_first` — who is
  chosen.
* `MostDamage.creditsStrongest_iff` — the strongest is credited exactly when who overrides it is
  credited to the same creature, and then the order of the ids does not matter.
-/

namespace TiabloServer.MostDamage

/-! ## The function of the source -/

/-- A party. -/
structure Party where
  leader : Option ℕ
  sharedExpActive : Bool
  sharedExpEnabled : Bool

/-- A creature: its master, and its party if it is a player. -/
structure Creature where
  master : Option ℕ
  player : Option (Option Party)

/-- The creatures, those of them that `getCreatureByID` finds, the clock, and `PZ_LOCKED`. -/
structure World where
  creature : ℕ → Creature
  found : ℕ → Bool
  timeNow : ℤ
  inFightTicks : ℤ

/-- `CountBlock_t`, with the id of the attacker. -/
structure CountBlock where
  attacker : ℕ
  total : ℤ
  ticks : ℤ
  deriving DecidableEq

/-- `damageMap`, in the order of the ids. Damage is only counted when there is some. -/
structure DamageMap where
  entries : List CountBlock
  distinct : (entries.map CountBlock.attacker).Nodup
  positive : ∀ cb ∈ entries, 0 < cb.total

section Source

variable (w : World) (self : ℕ)

/-- The attacker hit within the fight window. -/
def recent (cb : CountBlock) : Bool := w.timeNow - cb.ticks ≤ w.inFightTicks

/-- The leader that an attacker's place is given to: that of a party with shared experience, of the
attacker or of its master. -/
def sharingLeader (attacker : ℕ) : Option ℕ :=
  if attacker ≠ self then
    let attackerMaster := (w.creature attacker).master.getD attacker
    match (w.creature attackerMaster).player with
    | some (some party) =>
      if party.sharedExpActive && party.sharedExpEnabled then party.leader else none
    | _ => none
  else none

/-- `mostDamage` and `mostDamageCreature` in the loop. -/
structure Most where
  mostDamage : ℤ
  mostDamageCreature : Option ℕ

/-- What the loop does with an entry of the damage map. -/
def consider (s : Most) (cb : CountBlock) : Most :=
  if w.found cb.attacker then
    let s := if cb.total > s.mostDamage ∧ recent w cb = true then ⟨cb.total, some cb.attacker⟩ else s
    match sharingLeader w self cb.attacker with
    | some leader => { s with mostDamageCreature := some leader }
    | none => s
  else s

/-- The master of a creature in its place. -/
def masterOf (creature : ℕ) : ℕ := (w.creature creature).master.getD creature

/-- `mostDamageCreature` after the loop, with its master in its place. -/
def mostDamageCreature (entries : List CountBlock) : Option ℕ :=
  (entries.foldl (consider w self) ⟨0, none⟩).mostDamageCreature.map (masterOf w)

end Source

/-! ## The purpose -/

section Spec

variable (w : World) (self : ℕ) (entries : List CountBlock)

/-- The creature that the damage of an attacker is credited to. -/
def creditedTo (attacker : ℕ) : ℕ := masterOf w ((sharingLeader w self attacker).getD attacker)

/-- The attackers that are found and hit within the fight window. -/
def Counts (cb : CountBlock) : Prop := w.found cb.attacker = true ∧ recent w cb = true

instance (cb : CountBlock) : Decidable (Counts w cb) := inferInstanceAs (Decidable (_ ∧ _))

/-- An attacker with the largest damage of those that count. -/
structure Strongest (cb : CountBlock) : Prop where
  mem : cb ∈ entries
  counts : Counts w cb
  le : ∀ x ∈ entries, Counts w x → x.total ≤ cb.total

/-- An attacker with the largest damage is credited, and nobody if there is none. -/
def CreditsStrongest : Prop :=
  match mostDamageCreature w self entries with
  | none => ∀ cb ∈ entries, ¬ Counts w cb
  | some creature => ∃ cb, Strongest w entries cb ∧ creature = creditedTo w self cb.attacker

/-- A found attacker from a party with shared experience. -/
def Shares (cb : CountBlock) : Prop := w.found cb.attacker = true ∧ sharingLeader w self cb.attacker ≠ none

instance (cb : CountBlock) : Decidable (Shares w self cb) := inferInstanceAs (Decidable (_ ∧ _))

/-- The last attacker from a sharing party, if no damage behind it is larger than all up to it. -/
def Overrides (cb : CountBlock) : Prop :=
  Shares w self cb ∧ ∃ before after, entries = before ++ cb :: after ∧
    ∀ x ∈ after, ¬ Shares w self x ∧ (Counts w x → ∃ y ∈ before ++ [cb], Counts w y ∧ x.total ≤ y.total)

/-- Who overrides is credited to the creature that a strongest attacker is credited to. -/
def Undisturbed : Prop :=
  ∀ cb, Overrides w self entries cb →
    ∃ s, Strongest w entries s ∧ creditedTo w self cb.attacker = creditedTo w self s.attacker

end Spec

/-! ## What a round does -/

section Rounds

variable {w : World} {self : ℕ} {entries : List CountBlock}

variable (w self) in
theorem mostDamage_consider (s : Most) (cb : CountBlock) :
    (consider w self s cb).mostDamage =
      if Counts w cb ∧ cb.total > s.mostDamage then cb.total else s.mostDamage := by
  unfold consider Counts
  by_cases hfound : w.found cb.attacker = true
  · rw [if_pos hfound]
    by_cases hmore : cb.total > s.mostDamage ∧ recent w cb = true
    · rw [if_pos hmore, if_pos ⟨⟨hfound, hmore.2⟩, hmore.1⟩]
      cases sharingLeader w self cb.attacker <;> rfl
    · rw [if_neg hmore, if_neg fun h => hmore ⟨h.2, h.1.2⟩]
      cases sharingLeader w self cb.attacker <;> rfl
  · rw [if_neg hfound, if_neg fun h => hfound h.1.1]

theorem le_consider (s : Most) (cb : CountBlock) : s.mostDamage ≤ (consider w self s cb).mostDamage := by
  rw [mostDamage_consider]
  split_ifs with h
  · exact h.2.le
  · exact le_rfl

/-- The leader of a sharing party takes the place of all others. -/
theorem consider_of_shares {cb : CountBlock} (h : Shares w self cb) (s : Most) :
    (consider w self s cb).mostDamageCreature = sharingLeader w self cb.attacker := by
  obtain ⟨hfound, hshares⟩ := h
  obtain ⟨leader, hleader⟩ := Option.ne_none_iff_exists'.1 hshares
  rw [consider, if_pos hfound, hleader]

/-- An attacker with more damage is taken, or its leader. -/
theorem consider_of_more {s : Most} {cb : CountBlock} (h : Counts w cb) (hmore : s.mostDamage < cb.total) :
    (consider w self s cb).mostDamageCreature = some ((sharingLeader w self cb.attacker).getD cb.attacker) := by
  rw [consider, if_pos h.1, if_pos ⟨hmore, h.2⟩]
  cases sharingLeader w self cb.attacker <;> rfl

/-- The others change nothing. -/
theorem consider_of_less {s : Most} {cb : CountBlock} (h : ¬ Shares w self cb)
    (hless : Counts w cb → cb.total ≤ s.mostDamage) : consider w self s cb = s := by
  unfold consider
  by_cases hfound : w.found cb.attacker = true
  · have hnone : sharingLeader w self cb.attacker = none := not_not.1 fun hne => h ⟨hfound, hne⟩
    rw [if_pos hfound, hnone, if_neg fun hmore => not_lt.2 (hless ⟨hfound, hmore.2⟩) hmore.1]
  · rw [if_neg hfound]

theorem foldl_of_less {s : Most} (h : ∀ x ∈ entries, ¬ Shares w self x ∧ (Counts w x → x.total ≤ s.mostDamage)) :
    entries.foldl (consider w self) s = s := by
  induction entries with
  | nil => rfl
  | cons x entries ih =>
    obtain ⟨hx, hentries⟩ := List.forall_mem_cons.1 h
    rw [List.foldl_cons, consider_of_less hx.1 hx.2, ih hentries]

variable (w self entries) in
/-- The damage of all that count is at most `mostDamage`. -/
theorem le_foldl (s : Most) : s.mostDamage ≤ (entries.foldl (consider w self) s).mostDamage ∧
    ∀ x ∈ entries, Counts w x → x.total ≤ (entries.foldl (consider w self) s).mostDamage := by
  induction entries generalizing s with
  | nil => simp
  | cons x entries ih =>
    obtain ⟨hs, hentries⟩ := ih (consider w self s x)
    refine ⟨(le_consider s x).trans hs, List.forall_mem_cons.2 ⟨fun hx => le_trans ?_ hs, hentries⟩⟩
    rw [mostDamage_consider]
    split_ifs with h
    · exact le_rfl
    · exact not_lt.1 fun hlt => h ⟨hx, hlt⟩

variable (self) in
theorem foldl_lt {s : Most} {n : ℤ} (hs : s.mostDamage < n) (h : ∀ x ∈ entries, Counts w x → x.total < n) :
    (entries.foldl (consider w self) s).mostDamage < n := by
  induction entries generalizing s with
  | nil => exact hs
  | cons x entries ih =>
    obtain ⟨hx, hentries⟩ := List.forall_mem_cons.1 h
    refine ih ?_ hentries
    rw [mostDamage_consider]
    split_ifs with hmore
    · exact hx hmore.1
    · exact hs

end Rounds

/-! ## Who is chosen -/

section Chosen

variable {w : World} {self : ℕ} {entries : List CountBlock}

/-- Who overrides is chosen. -/
theorem mostDamageCreature_of_overrides {cb : CountBlock} (h : Overrides w self entries cb) :
    mostDamageCreature w self entries = some (creditedTo w self cb.attacker) := by
  obtain ⟨hshares, before, after, rfl, hafter⟩ := h
  have hle := (le_foldl w self (before ++ [cb]) ⟨0, none⟩).2
  rw [List.foldl_append] at hle
  have hcreature := consider_of_shares hshares (before.foldl (consider w self) ⟨0, none⟩)
  obtain ⟨leader, hleader⟩ := Option.ne_none_iff_exists'.1 hshares.2
  rw [mostDamageCreature, List.foldl_append, List.foldl_cons, foldl_of_less, hcreature, creditedTo, hleader]
  · rfl
  · intro x hx
    refine ⟨(hafter x hx).1, fun hcounts => ?_⟩
    obtain ⟨y, hy, hycounts, hxy⟩ := (hafter x hx).2 hcounts
    exact hxy.trans (hle y hy hycounts)

/-- The first of the strongest is chosen, if nobody behind it is from a sharing party. -/
theorem mostDamageCreature_of_first {cb : CountBlock} {before after : List CountBlock}
    (hcounts : Counts w cb) (hpos : 0 < cb.total) (hbefore : ∀ x ∈ before, Counts w x → x.total < cb.total)
    (hafter : ∀ x ∈ after, ¬ Shares w self x ∧ (Counts w x → x.total ≤ cb.total)) :
    mostDamageCreature w self (before ++ cb :: after) = some (creditedTo w self cb.attacker) := by
  have hlt := foldl_lt self (s := ⟨0, none⟩) hpos hbefore
  have hmost := mostDamage_consider w self (before.foldl (consider w self) ⟨0, none⟩) cb
  rw [if_pos ⟨hcounts, hlt⟩] at hmost
  rw [mostDamageCreature, List.foldl_append, List.foldl_cons, foldl_of_less, consider_of_more hcounts hlt]
  · rfl
  · intro x hx
    rw [hmost]
    exact hafter x hx

/-- The last element with a property. -/
theorem exists_last {p : CountBlock → Prop} {l : List CountBlock} (h : ∃ x ∈ l, p x) :
    ∃ before x after, l = before ++ x :: after ∧ p x ∧ ∀ y ∈ after, ¬ p y := by
  induction l with
  | nil => simp at h
  | cons a l ih =>
    by_cases hl : ∃ x ∈ l, p x
    · obtain ⟨before, x, after, rfl, hx, hafter⟩ := ih hl
      exact ⟨a :: before, x, after, rfl, hx, hafter⟩
    · refine ⟨[], a, l, rfl, ?_, fun y hy hp => hl ⟨y, hy, hp⟩⟩
      obtain ⟨x, hx, hp⟩ := h
      rcases List.mem_cons.1 hx with rfl | hx
      · exact hp
      · exact absurd ⟨x, hx, hp⟩ hl

/-- The first of the strongest attackers. -/
theorem exists_first (h : ∃ x ∈ entries, Counts w x) :
    ∃ before cb after, entries = before ++ cb :: after ∧ Counts w cb ∧
      (∀ x ∈ before, Counts w x → x.total < cb.total) ∧ ∀ x ∈ after, Counts w x → x.total ≤ cb.total := by
  induction entries using List.reverseRecOn with
  | nil => simp at h
  | append_singleton l a ih =>
    by_cases hl : ∃ x ∈ l, Counts w x
    · obtain ⟨before, cb, after, hl, hcb, hbefore, hafter⟩ := ih hl
      by_cases ha : Counts w a ∧ cb.total < a.total
      · refine ⟨l, a, [], rfl, ha.1, fun x hx hcounts => ?_, by simp⟩
        rw [hl] at hx
        rcases List.mem_append.1 hx with hx | hx
        · exact (hbefore x hx hcounts).trans ha.2
        · rcases List.mem_cons.1 hx with rfl | hx
          · exact ha.2
          · exact (hafter x hx hcounts).trans_lt ha.2
      · refine ⟨before, cb, after ++ [a], by simp [hl], hcb, hbefore, fun x hx hcounts => ?_⟩
        rcases List.mem_append.1 hx with hx | hx
        · exact hafter x hx hcounts
        · obtain rfl := List.mem_singleton.1 hx
          exact not_lt.1 fun hlt => ha ⟨hcounts, hlt⟩
    · have ha : Counts w a := by
        obtain ⟨x, hx, hcounts⟩ := h
        rcases List.mem_append.1 hx with hx | hx
        · exact absurd ⟨x, hx, hcounts⟩ hl
        · exact List.mem_singleton.1 hx ▸ hcounts
      exact ⟨l, a, [], rfl, ha, fun x hx hcounts => absurd ⟨x, hx, hcounts⟩ hl, by simp⟩

variable (self) in
/-- Somebody overrides, or a strongest attacker is credited, or there is none. -/
theorem chosen_cases (hpos : ∀ cb ∈ entries, 0 < cb.total) : (∃ cb, Overrides w self entries cb) ∨
      (∃ cb, Strongest w entries cb ∧ mostDamageCreature w self entries = some (creditedTo w self cb.attacker)) ∨
      (∀ cb ∈ entries, ¬ Counts w cb) ∧ mostDamageCreature w self entries = none := by
  by_cases hcounts : ∃ x ∈ entries, Counts w x
  · obtain ⟨before, cb, after, rfl, hcb, hbefore, hafter⟩ := exists_first hcounts
    by_cases hshares : ∃ x ∈ after, Shares w self x
    · -- the last sharing attacker behind the first of the strongest
      obtain ⟨middle, x, rest, rfl, hx, hrest⟩ := exists_last hshares
      refine .inl ⟨x, hx, before ++ cb :: middle, rest, by simp, fun y hy => ⟨hrest y hy, fun hy' => ?_⟩⟩
      exact ⟨cb, by simp, hcb, hafter y (by simp [hy]) hy'⟩
    · refine .inr (.inl ⟨cb, ⟨by simp, hcb, fun x hx hx' => ?_⟩, ?_⟩)
      · rcases List.mem_append.1 hx with hx | hx
        · exact (hbefore x hx hx').le
        · rcases List.mem_cons.1 hx with rfl | hx
          · exact le_rfl
          · exact hafter x hx hx'
      · exact mostDamageCreature_of_first hcb (hpos cb (by simp)) hbefore
          fun x hx => ⟨fun hs => hshares ⟨x, hx, hs⟩, hafter x hx⟩
  · have hnone : ∀ x ∈ entries, ¬ Counts w x := fun x hx hx' => hcounts ⟨x, hx, hx'⟩
    by_cases hshares : ∃ x ∈ entries, Shares w self x
    · obtain ⟨before, x, after, rfl, hx, hafter⟩ := exists_last hshares
      exact .inl ⟨x, hx, before, after, rfl,
        fun y hy => ⟨hafter y hy, fun hy' => absurd hy' (hnone y (by simp [hy]))⟩⟩
    · refine .inr (.inr ⟨hnone, ?_⟩)
      rw [mostDamageCreature, foldl_of_less]
      · rfl
      · exact fun x hx => ⟨fun hs => hshares ⟨x, hx, hs⟩, fun hx' => absurd hx' (hnone x hx)⟩

theorem creditsStrongest_of_undisturbed (hpos : ∀ cb ∈ entries, 0 < cb.total)
    (h : Undisturbed w self entries) : CreditsStrongest w self entries := by
  rcases chosen_cases self hpos with ⟨cb, hcb⟩ | ⟨cb, hcb, hchosen⟩ | ⟨hnone, hchosen⟩
  · obtain ⟨s, hs, hcredited⟩ := h cb hcb
    rw [CreditsStrongest, mostDamageCreature_of_overrides hcb]
    exact ⟨s, hs, hcredited⟩
  · rw [CreditsStrongest, hchosen]
    exact ⟨cb, hcb, rfl⟩
  · rw [CreditsStrongest, hchosen]
    exact hnone

/-- When the strongest attacker is credited, and there is one only, then it is chosen. -/
theorem CreditsStrongest.chosen (h : CreditsStrongest w self entries) {cb : CountBlock}
    (hcb : Strongest w entries cb) (hunique : ∀ s, Strongest w entries s → s = cb) :
    mostDamageCreature w self entries = some (creditedTo w self cb.attacker) := by
  unfold CreditsStrongest at h
  cases hchosen : mostDamageCreature w self entries with
  | none =>
    rw [hchosen] at h
    exact absurd hcb.counts (h cb hcb.mem)
  | some creature =>
    rw [hchosen] at h
    obtain ⟨s, hs, rfl⟩ := h
    rw [hunique s hs]

theorem Strongest.perm {entries' : List CountBlock} {cb : CountBlock} (hperm : entries.Perm entries')
    (h : Strongest w entries cb) : Strongest w entries' cb :=
  ⟨hperm.mem_iff.1 h.mem, h.counts, fun x hx => h.le x (hperm.mem_iff.2 hx)⟩

/-- **A strongest attacker is credited** exactly when the attacker that overrides it, if one does,
is credited to the same creature as a strongest one. Where this is so in two orders of the attackers
and only one attacker is the strongest, both orders have the same creature. -/
theorem creditsStrongest_iff (w : World) (self : ℕ) (damageMap : DamageMap) :
    (CreditsStrongest w self damageMap.entries ↔ Undisturbed w self damageMap.entries) ∧
      ∀ damageMap' : DamageMap, damageMap.entries.Perm damageMap'.entries →
        Undisturbed w self damageMap.entries → Undisturbed w self damageMap'.entries →
        ∀ cb, Strongest w damageMap.entries cb → (∀ s, Strongest w damageMap.entries s → s = cb) →
          mostDamageCreature w self damageMap.entries = mostDamageCreature w self damageMap'.entries := by
  refine ⟨⟨fun h cb hcb => ?_, creditsStrongest_of_undisturbed damageMap.positive⟩, ?_⟩
  · rw [CreditsStrongest, mostDamageCreature_of_overrides hcb] at h
    exact h
  · intro damageMap' hperm h h' cb hcb hunique
    have hchosen := (creditsStrongest_of_undisturbed damageMap.positive h).chosen hcb hunique
    have hchosen' := (creditsStrongest_of_undisturbed damageMap'.positive h').chosen (hcb.perm hperm)
      fun s hs => hunique s (hs.perm hperm.symm)
    rw [hchosen, hchosen']

/-- Players 10, 20 and 30. Players 20 and 30 are in a party with shared experience, which 30
leads. -/
def hunt : World where
  creature id := ⟨none, some (if id = 10 then none else some ⟨some 30, true, true⟩)⟩
  found _ := true
  timeNow := 60000
  inFightTicks := 60000

/-- Player 10 has done nearly all the damage, and player 20 one point long ago. -/
def hunted : DamageMap where
  entries := [⟨10, 1000, 59000⟩, ⟨20, 1, -60000⟩]
  distinct := by decide
  positive := by decide

/-- The leader of the party, who did nothing, is chosen in the place of player 10. -/
theorem not_creditsStrongest_hunted :
    mostDamageCreature hunt 40 hunted.entries = some 30 ∧ ¬ CreditsStrongest hunt 40 hunted.entries := by
  have hchosen : mostDamageCreature hunt 40 hunted.entries = some 30 := by decide
  refine ⟨hchosen, fun h => ?_⟩
  rw [CreditsStrongest, hchosen] at h
  obtain ⟨cb, hcb, hcredited⟩ := h
  rcases List.mem_cons.1 hcb.mem with rfl | hmem
  · exact absurd hcredited (by decide)
  · obtain rfl := List.mem_singleton.1 hmem
    exact absurd hcb.counts (by decide)

end Chosen

end TiabloServer.MostDamage
