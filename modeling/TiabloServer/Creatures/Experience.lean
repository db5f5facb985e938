import TiabloServer.Lib.Assoc

/-!
# Experience of a death

A creature counts the damage of each attacker (`addDamagePoints`, `creature.cpp`). When it dies,
`Creature::onDeath` gives every attacker the part of the lost experience that its damage is of all
the damage, and books the part of a player in a party with shared experience on the leader.

## Main definitions

* `Experience.getDamageRatio`, `Experience.getGainedExperience` — the part of an attacker.
* `Experience.experienceMap` — the amounts that `onDeath` collects.

## Main results

* `Experience.gained_creature` — the part of an attacker is the floor of its share.
* `Experience.sum_gained_le` — the parts are at most the lost experience.
* `Experience.sum_experienceMap` — what is collected are the parts of the attackers that are still
  there.
-/

namespace TiabloServer.Experience

/-! ## The damage map -/

/-- `damageMap`: the `total` of each attacker. -/
structure DamageMap where
  entries : List (ℕ × ℤ)
  distinct : Assoc.Distinct entries
  nonneg : ∀ p ∈ entries, 0 ≤ p.2

namespace DamageMap

/-- The damage map of a new creature. -/
def empty : DamageMap := ⟨[], List.nodup_nil, fun _ h => absurd h List.not_mem_nil⟩

/-- The damage of all attackers. -/
def sum (damageMap : DamageMap) : ℤ := Assoc.sum id damageMap.entries

end DamageMap

theorem nonneg_put {entries : List (ℕ × ℤ)} (h : ∀ p ∈ entries, 0 ≤ p.2) {attacker : ℕ} {total : ℤ}
    (htotal : 0 ≤ total) : ∀ p ∈ Assoc.put entries attacker total, 0 ≤ p.2 := by
  intro p hp
  rcases Assoc.mem_put hp with rfl | hp
  · exact htotal
  · exact h p hp

def addDamagePoints (damageMap : DamageMap) (attacker : ℕ) (damagePoints : ℤ) : DamageMap :=
  if h : damagePoints ≤ 0 then damageMap
  else
    { entries := Assoc.put damageMap.entries attacker
        (((Assoc.get damageMap.entries attacker).getD 0) + damagePoints)
      distinct := damageMap.distinct.put attacker _
      nonneg := by
        refine nonneg_put damageMap.nonneg ?_
        cases hget : Assoc.get damageMap.entries attacker with
        | none => simp only [Option.getD_none]; omega
        | some total =>
          have := damageMap.nonneg _ (Assoc.mem_of_get hget)
          simp only [Option.getD_some]
          omega }

/-! ## Creatures -/

/-- A party. -/
structure Party where
  leader : Option ℕ
  sharedExpActive : Bool
  sharedExpEnabled : Bool

/-- A player. -/
structure Player where
  level : ℤ
  party : Option Party

/-- A creature in the game: itself, and its master, if they are players. -/
structure Attacker where
  player : Option Player
  master : Option (Option Player)

/-- What `getCreatureByID` finds. -/
abbrev Game := ℕ → Option Attacker

/-- What a dying player and the configuration say about experience from players. -/
structure PlayerVictim where
  level : ℤ
  skillLoss : Bool
  /-- `EXPERIENCE_FROM_PLAYERS`. -/
  experienceFromPlayers : Bool
  /-- `EXP_FROM_PLAYERS_LEVEL_RANGE`. -/
  levelRange : ℤ

/-- The dying creature. -/
structure Victim where
  id : ℕ
  damageMap : DamageMap
  lostExperience : ℕ
  player : Option PlayerVictim

/-! ## The share of an attacker -/

/-- A conversion to `uint32_t`. -/
def uint32 (n : ℤ) : ℕ := (n % 4294967296).toNat

/-- `totalDamage` after the loop of `getDamageRatio`. -/
def totalDamage (damageMap : DamageMap) : ℕ :=
  damageMap.entries.foldl (fun total p => uint32 (total + p.2)) 0

/-- `attackerDamage` after the loop of `getDamageRatio`. -/
def attackerDamage (damageMap : DamageMap) (attacker : ℕ) : ℕ :=
  damageMap.entries.foldl
    (fun total p => if p.1 = attacker then uint32 (total + p.2) else total) 0

/-- `getDamageRatio`, as an exact number. -/
def getDamageRatio (damageMap : DamageMap) (attacker : ℕ) : ℚ :=
  if totalDamage damageMap = 0 then 0
  else attackerDamage damageMap attacker / totalDamage damageMap

/-- `getGainedExperience`, of a creature and of a player. -/
def getGainedExperience (game : Game) (victim : Victim) (attacker : ℕ) : ℕ :=
  let ratio := getDamageRatio victim.damageMap attacker
  match victim.player with
  | none => ⌊ratio * victim.lostExperience⌋₊
  | some player =>
    if player.experienceFromPlayers then
      match (game attacker).bind Attacker.player with
      | some attackerPlayer =>
        if attacker ≠ victim.id ∧ player.skillLoss = true ∧
            |attackerPlayer.level - player.level| ≤ player.levelRange then
          ⌊victim.lostExperience * ratio * (3 / 4)⌋₊
        else 0
      | none => 0
    else 0

/-! ## The death -/

/-- Who the experience of an attacker is booked on: the leader of a party with shared experience, if
the attacker or its master is in one, else the attacker. -/
def bookedOn (attacker : ℕ) (creature : Attacker) : ℕ :=
  match creature.master.getD creature.player with
  | some attackerPlayer =>
    match attackerPlayer.party with
    | some party =>
      match party.leader with
      | some leader => if party.sharedExpActive && party.sharedExpEnabled then leader else attacker
      | none => attacker
    | none => attacker
  | none => attacker

/-- The experience map after an attacker. -/
def collect (game : Game) (victim : Victim) (experience : List (ℕ × ℕ)) (attacker : ℕ) :
    List (ℕ × ℕ) :=
  match game attacker with
  | some creature =>
    if attacker ≠ victim.id then
      let gainExp := getGainedExperience game victim attacker
      let key := bookedOn attacker creature
      match Assoc.get experience key with
      | none => Assoc.put experience key gainExp
      | some old => Assoc.put experience key (old + gainExp)
    else experience
  | none => experience

/-- The experience map of `onDeath`. -/
def experienceMap (game : Game) (victim : Victim) : List (ℕ × ℕ) :=
  (victim.damageMap.entries.map Prod.fst).foldl (collect game victim) []

/-! ## Shares -/

theorem uint32_of_range {n : ℤ} (h : 0 ≤ n) (hn : n < 4294967296) : (uint32 n : ℤ) = n := by
  rw [uint32]
  omega

theorem sum_nonneg {entries : List (ℕ × ℤ)} (h : ∀ p ∈ entries, 0 ≤ p.2) : 0 ≤ Assoc.sum id entries := by
  refine List.sum_nonneg fun x hx => ?_
  obtain ⟨p, hp, rfl⟩ := List.mem_map.1 hx
  exact h p hp

/-- The loop of the total adds up what fits. -/
theorem foldl_total {entries : List (ℕ × ℤ)} (h : ∀ p ∈ entries, 0 ≤ p.2) (total : ℕ)
    (hfit : total + Assoc.sum id entries < 4294967296) :
    ((entries.foldl (fun total p => uint32 (total + p.2)) total : ℕ) : ℤ) = total + Assoc.sum id entries := by
  induction entries generalizing total with
  | nil => simp
  | cons p entries ih =>
    have hp := h p List.mem_cons_self
    have hentries := fun q hq => h q (List.mem_cons_of_mem p hq)
    have hsum := sum_nonneg hentries
    rw [Assoc.sum_cons, id] at hfit ⊢
    have hadd : (uint32 (total + p.2) : ℤ) = total + p.2 := uint32_of_range (by omega) (by omega)
    rw [List.foldl_cons, ih hentries _ (by rw [hadd]; omega), hadd, add_assoc]

/-- The loop for an attacker that is not there. -/
theorem foldl_attacker_of_notMem {entries : List (ℕ × ℤ)} {attacker : ℕ}
    (h : attacker ∉ entries.map Prod.fst) (total : ℕ) :
    entries.foldl (fun total p => if p.1 = attacker then uint32 (total + p.2) else total) total =
      total := by
  induction entries generalizing total with
  | nil => rfl
  | cons p entries ih =>
    rw [List.map_cons, List.mem_cons, not_or] at h
    rw [List.foldl_cons, if_neg (Ne.symm h.1), ih h.2]

/-- The loop for an attacker gives its damage. -/
theorem foldl_attacker {entries : List (ℕ × ℤ)} (hdistinct : Assoc.Distinct entries)
    (h : ∀ p ∈ entries, 0 ≤ p.2) {attacker : ℕ} {damage : ℤ} (hmem : (attacker, damage) ∈ entries)
    (hfit : damage < 4294967296) :
    ((entries.foldl (fun total p => if p.1 = attacker then uint32 (total + p.2) else total) 0 : ℕ) :
      ℤ) = damage := by
  induction entries with
  | nil => cases hmem
  | cons p entries ih =>
    rw [Assoc.Distinct, List.map_cons, List.nodup_cons] at hdistinct
    rw [List.foldl_cons]
    rcases List.mem_cons.1 hmem with rfl | hmem
    · rw [if_pos rfl, foldl_attacker_of_notMem hdistinct.1, Nat.cast_zero, zero_add,
        uint32_of_range (h _ List.mem_cons_self) hfit]
    · rw [if_neg, ih hdistinct.2 (fun q hq => h q (List.mem_cons_of_mem p hq)) hmem]
      rintro rfl
      exact hdistinct.1 (List.mem_map.2 ⟨_, hmem, rfl⟩)

/-- An attacker's damage is at most all the damage. -/
theorem le_sum {entries : List (ℕ × ℤ)} (h : ∀ p ∈ entries, 0 ≤ p.2) {p : ℕ × ℤ} (hp : p ∈ entries) :
    p.2 ≤ Assoc.sum id entries := by
  refine List.single_le_sum (fun x hx => ?_) _ (List.mem_map.2 ⟨p, hp, rfl⟩)
  obtain ⟨q, hq, rfl⟩ := List.mem_map.1 hx
  exact h q hq

/-- **The ratio of an attacker** is its damage of all the damage. -/
theorem getDamageRatio_eq {damageMap : DamageMap} (hfit : damageMap.sum < 4294967296) {attacker : ℕ}
    {damage : ℤ} (hmem : (attacker, damage) ∈ damageMap.entries) :
    getDamageRatio damageMap attacker = damage / damageMap.sum := by
  have htotal : (totalDamage damageMap : ℤ) = damageMap.sum := by
    have hfold := foldl_total damageMap.nonneg 0 (by simpa [DamageMap.sum] using hfit)
    rw [Nat.cast_zero, zero_add] at hfold
    exact hfold
  have hdamage : (attackerDamage damageMap attacker : ℤ) = damage :=
    foldl_attacker damageMap.distinct damageMap.nonneg hmem
      (lt_of_le_of_lt (le_sum damageMap.nonneg hmem) hfit)
  rw [getDamageRatio, ← htotal, ← hdamage, Int.cast_natCast, Int.cast_natCast]
  split_ifs with hzero
  · rw [hzero, Nat.cast_zero, div_zero]
  · rfl

/-! ## Parts -/

section Parts

variable {game : Game} {victim : Victim}

/-- A part of a share is at most the floor of the share. -/
theorem floor_ratio_mul {damage total : ℤ} (hdamage : 0 ≤ damage) (htotal : 0 ≤ total) (lostExperience : ℕ) :
    ⌊(damage / total : ℚ) * lostExperience⌋₊ = damage.toNat * lostExperience / total.toNat := by
  obtain ⟨d, rfl⟩ := Int.eq_ofNat_of_zero_le hdamage
  obtain ⟨t, rfl⟩ := Int.eq_ofNat_of_zero_le htotal
  rw [Int.cast_natCast, Int.cast_natCast, div_mul_eq_mul_div, ← Nat.cast_mul, Nat.floor_div_eq_div,
    Int.toNat_natCast, Int.toNat_natCast]

/-- **The part of an attacker** of a creature that is no player is the floor of the share of its
damage. -/
theorem gained_creature (hplayer : victim.player = none) (hfit : victim.damageMap.sum < 4294967296)
    {attacker : ℕ} {damage : ℤ} (hmem : (attacker, damage) ∈ victim.damageMap.entries) :
    getGainedExperience game victim attacker =
      damage.toNat * victim.lostExperience / victim.damageMap.sum.toNat := by
  have hdamage : 0 ≤ damage := victim.damageMap.nonneg _ hmem
  have htotal : 0 ≤ victim.damageMap.sum := sum_nonneg victim.damageMap.nonneg
  simp only [getGainedExperience, hplayer, getDamageRatio_eq hfit hmem]
  exact floor_ratio_mul hdamage htotal _

/-- A dying player gives experience to a player in the level range, where the configuration has
it. -/
def GivesExperience (game : Game) (victim : Victim) (player : PlayerVictim) (attacker : ℕ) : Prop :=
  player.experienceFromPlayers = true ∧ ∃ attackerPlayer,
    (game attacker).bind Attacker.player = some attackerPlayer ∧ attacker ≠ victim.id ∧
      player.skillLoss = true ∧ |attackerPlayer.level - player.level| ≤ player.levelRange

/-- **The part of an attacker** of a player is the floor of three quarters of the share of its
damage, or nothing. -/
theorem gained_player {player : PlayerVictim} (hplayer : victim.player = some player)
    (hfit : victim.damageMap.sum < 4294967296) {attacker : ℕ} {damage : ℤ}
    (hmem : (attacker, damage) ∈ victim.damageMap.entries) :
    (GivesExperience game victim player attacker → getGainedExperience game victim attacker =
      damage.toNat * victim.lostExperience * 3 / (victim.damageMap.sum.toNat * 4)) ∧
    (¬ GivesExperience game victim player attacker → getGainedExperience game victim attacker = 0) := by
  obtain ⟨d, hd⟩ : ∃ d : ℕ, damage = d :=
    Int.eq_ofNat_of_zero_le (victim.damageMap.nonneg _ hmem)
  obtain ⟨t, ht⟩ : ∃ t : ℕ, victim.damageMap.sum = t := Int.eq_ofNat_of_zero_le (sum_nonneg victim.damageMap.nonneg)
  have hratio : getDamageRatio victim.damageMap attacker = (d : ℚ) / t := by
    rw [getDamageRatio_eq hfit hmem, hd, ht, Int.cast_natCast, Int.cast_natCast]
  constructor
  · rintro ⟨hconfig, attackerPlayer, hattacker, hgives⟩
    simp only [getGainedExperience, hplayer, hconfig, hattacker, if_pos hgives, if_true, hratio]
    have hshare : (victim.lostExperience : ℚ) * (d / t) * (3 / 4) =
        ((d * victim.lostExperience * 3 : ℕ) : ℚ) / ((t * 4 : ℕ) : ℚ) := by
      push_cast
      ring
    rw [hshare, Nat.floor_div_eq_div, hd, ht, Int.toNat_natCast, Int.toNat_natCast]
  · intro hgives
    simp only [getGainedExperience, hplayer]
    split_ifs with hconfig
    · cases hattacker : (game attacker).bind Attacker.player with
      | none => rfl
      | some attackerPlayer =>
        exact if_neg fun h => hgives ⟨hconfig, attackerPlayer, hattacker, h⟩
    · rfl

/-- The part of an attacker is at most the floor of the share of its damage. -/
theorem gained_le (hfit : victim.damageMap.sum < 4294967296) {attacker : ℕ} {damage : ℤ}
    (hmem : (attacker, damage) ∈ victim.damageMap.entries) : getGainedExperience game victim attacker ≤
      damage.toNat * victim.lostExperience / victim.damageMap.sum.toNat := by
  cases hplayer : victim.player with
  | none => exact (gained_creature hplayer hfit hmem).le
  | some player =>
    obtain ⟨hgives, hnot⟩ := gained_player hplayer hfit hmem
    by_cases h : GivesExperience game victim player attacker
    · rw [hgives h, mul_comm _ 4, ← Nat.div_div_eq_div_mul]
      refine Nat.div_le_div_right ?_
      omega
    · rw [hnot h]
      exact Nat.zero_le _

theorem sum_div_le (l : List ℕ) (lostExperience total : ℕ) :
    (l.map fun damage => damage * lostExperience / total).sum ≤ l.sum * lostExperience / total := by
  induction l with
  | nil => exact Nat.zero_le _
  | cons damage l ih =>
    rw [List.map_cons, List.sum_cons, List.sum_cons, add_mul]
    exact (Nat.add_le_add_left ih _).trans (Nat.div_add_div_le_add_div)

/-- The parts of some attackers. -/
def sumGained (game : Game) (victim : Victim) (attackers : List ℕ) : ℕ :=
  (attackers.map (getGainedExperience game victim)).sum

/-- The attackers. -/
def attackers (victim : Victim) : List ℕ := victim.damageMap.entries.map Prod.fst

/-- **All parts** are at most the lost experience. -/
theorem sum_gained_le (hfit : victim.damageMap.sum < 4294967296) :
    sumGained game victim (attackers victim) ≤ victim.lostExperience := by
  have hsum : ((victim.damageMap.entries.map fun p => p.2.toNat).sum : ℕ) =
      victim.damageMap.sum.toNat := by
    have hcast : (((victim.damageMap.entries.map fun p => p.2.toNat).sum : ℕ) : ℤ) =
        victim.damageMap.sum := by
      rw [Nat.cast_list_sum, List.map_map, DamageMap.sum, Assoc.sum]
      refine congrArg List.sum (List.map_congr_left fun p hp => ?_)
      exact Int.toNat_of_nonneg (victim.damageMap.nonneg p hp)
    rw [← hcast, Int.toNat_natCast]
  calc sumGained game victim (attackers victim)
      ≤ ((victim.damageMap.entries.map fun p => p.2.toNat).map fun damage =>
          damage * victim.lostExperience / victim.damageMap.sum.toNat).sum := by
        rw [sumGained, attackers, List.map_map, List.map_map]
        exact List.sum_le_sum fun p hp => gained_le hfit hp
    _ ≤ victim.damageMap.sum.toNat * victim.lostExperience / victim.damageMap.sum.toNat := by
        rw [← hsum]
        exact sum_div_le _ _ _
    _ ≤ victim.lostExperience := by
        rcases Nat.eq_zero_or_pos victim.damageMap.sum.toNat with hzero | hpos
        · rw [hzero, zero_mul, Nat.zero_div]
          exact Nat.zero_le _
        · rw [Nat.mul_div_cancel_left _ hpos]

/-! ## What is collected -/

/-- The attackers that are still in the game, other than the dying creature. -/
def present (game : Game) (victim : Victim) : List ℕ :=
  (attackers victim).filter fun attacker => (game attacker).isSome ∧ attacker ≠ victim.id

/-- An attacker adds its part, if it is there. -/
theorem sum_collect (experience : List (ℕ × ℕ)) (attacker : ℕ) :
    Assoc.sum id (collect game victim experience attacker) = Assoc.sum id experience +
      if (game attacker).isSome ∧ attacker ≠ victim.id then getGainedExperience game victim attacker
      else 0 := by
  rw [collect]
  cases game attacker with
  | none => simp
  | some creature =>
    by_cases hself : attacker = victim.id
    · simp [hself]
    · have hput := Assoc.sum_put_add id experience (bookedOn attacker creature)
      simp only [Option.isSome_some, ne_eq, hself, not_false_eq_true, and_self, if_true]
      cases hget : Assoc.get experience (bookedOn attacker creature) with
      | none => simpa [hget] using hput (getGainedExperience game victim attacker)
      | some old =>
        have hsum := hput (old + getGainedExperience game victim attacker)
        simp only [hget, Option.elim_some, id] at hsum
        dsimp only
        omega

/-- **The experience map** has the parts of the attackers that are still there. -/
theorem sum_experienceMap :
    Assoc.sum id (experienceMap game victim) = sumGained game victim (present game victim) := by
  have hfold : ∀ (l : List ℕ) (experience : List (ℕ × ℕ)),
      Assoc.sum id (l.foldl (collect game victim) experience) = Assoc.sum id experience +
        sumGained game victim
          (l.filter fun attacker => (game attacker).isSome ∧ attacker ≠ victim.id) := by
    intro l
    induction l with
    | nil => intro experience; simp [sumGained]
    | cons attacker l ih =>
      intro experience
      rw [List.foldl_cons, ih, sum_collect, add_assoc, List.filter_cons]
      congr 1
      by_cases hpresent : (game attacker).isSome ∧ attacker ≠ victim.id
      · rw [if_pos hpresent, if_pos (decide_eq_true hpresent), sumGained, sumGained, List.map_cons,
          List.sum_cons]
      · rw [if_neg hpresent, if_neg (by simpa using hpresent), zero_add]
  rw [experienceMap, hfold, Assoc.sum_nil, zero_add]
  rfl

/-- What is collected is at most all parts. -/
theorem sum_present_le : sumGained game victim (present game victim) ≤ sumGained game victim (attackers victim) :=
  List.Sublist.sum_le_sum (List.filter_sublist.map _) fun _ _ => Nat.zero_le _

/-- **The experience of a death.** The part of an attacker is the floor of its share of the lost
experience; a player gives three quarters of it, to the players in the level range. All parts are at
most the lost experience, and what `onDeath` collects are the parts of the attackers that are still
there. -/
theorem onDeath_experience (game : Game) (victim : Victim)
    (hfit : victim.damageMap.sum < 4294967296) :
    (∀ attacker damage, (attacker, damage) ∈ victim.damageMap.entries →
      (victim.player = none → getGainedExperience game victim attacker =
        damage.toNat * victim.lostExperience / victim.damageMap.sum.toNat) ∧
      ∀ player, victim.player = some player →
        (GivesExperience game victim player attacker → getGainedExperience game victim attacker =
          damage.toNat * victim.lostExperience * 3 / (victim.damageMap.sum.toNat * 4)) ∧
        (¬ GivesExperience game victim player attacker →
          getGainedExperience game victim attacker = 0)) ∧
    sumGained game victim (attackers victim) ≤ victim.lostExperience ∧
    Assoc.sum id (experienceMap game victim) = sumGained game victim (present game victim) ∧
    Assoc.sum id (experienceMap game victim) ≤ victim.lostExperience := by
  refine ⟨fun attacker damage hmem => ⟨fun hplayer => gained_creature hplayer hfit hmem,
    fun player hplayer => gained_player hplayer hfit hmem⟩, sum_gained_le hfit, sum_experienceMap, ?_⟩
  rw [sum_experienceMap]
  exact sum_present_le.trans (sum_gained_le hfit)

end Parts

/-- A monster that two attackers have damaged equally. -/
def monster : Victim :=
  { id := 3
    damageMap := addDamagePoints (addDamagePoints .empty 1 10) 2 10
    lostExperience := 100
    player := none }

/-- The parts of two attackers of which one is no longer there. -/
theorem onDeath_experience_monster :
    sumGained (fun id => if id = 1 then some ⟨none, none⟩ else none) monster (attackers monster) ≤ 100 :=
  (onDeath_experience _ monster (by decide)).2.1

/-- An attacker that has left keeps its part from being collected. -/
theorem not_onDeath_experience :
    ¬ ∀ (game : Game) (victim : Victim), victim.damageMap.sum < 4294967296 →
      Assoc.sum id (experienceMap game victim) = sumGained game victim (attackers victim) := by
  intro h
  have hsum := h (fun id => if id = 1 then some ⟨none, none⟩ else none) monster (by decide)
  have hpart : ∀ game attacker, attacker = 1 ∨ attacker = 2 →
      getGainedExperience game monster attacker = 50 := by
    rintro game attacker (rfl | rfl)
    · exact gained_creature rfl (by decide) (show (1, (10 : ℤ)) ∈ monster.damageMap.entries by decide)
    · exact gained_creature rfl (by decide) (show (2, (10 : ℤ)) ∈ monster.damageMap.entries by decide)
  rw [sum_experienceMap] at hsum
  have hpresent : present (fun id => if id = 1 then some ⟨none, none⟩ else none) monster = [1] := by
    decide
  have hattackers : attackers monster = [1, 2] := by decide
  rw [hpresent, hattackers] at hsum
  simp only [sumGained, List.map_cons, List.map_nil, hpart _ 1 (Or.inl rfl),
    hpart _ 2 (Or.inr rfl)] at hsum
  revert hsum
  decide

end TiabloServer.Experience
