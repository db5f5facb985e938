import TiabloServer.Lib.Runs

/-!
# The targets of a monster

The target and friend lists of `Monster` (`monster.cpp`, `monster.hpp`), for a monster without a
master whose faction is not the default one. A creature is its id. A weak pointer to a creature that
was destroyed has expired. What a call sees of the world is given to it: the creatures that
`Spectators` finds, which of them the monster can see, their health, factions, flags and masters,
and what decides whether the monster may rest.

## Main definitions

* `Targets.Sound`, `Targets.Updated` — what is to hold of the lists, and of them after
  `updateTargetList`.
* `Targets.Fitting` — when a call keeps to that.

## Main results

* `Targets.run_targets_sound` — runs of such calls keep to it.
-/

namespace TiabloServer.Targets

/-! ## Lists of creatures -/

/-- What creatures always are, and whom the monster's type is an enemy of. -/
structure Kinds where
  isPlayer : ℕ → Bool
  isMonster : ℕ → Bool
  isEnemyFaction : ℕ → Bool

structure Monster where
  id : ℕ
  targetList : List ℕ
  friendList : List ℕ
  totalPlayersOnScreen : UInt16
  expired : ℕ → Bool

/-- What a call sees. -/
structure World where
  /-- The creatures in reach, as `Spectators` finds them. -/
  spectators : List ℕ
  canSee : ℕ → Bool
  health : ℕ → ℤ
  faction : ℕ → ℕ
  isSummon : ℕ → Bool
  /-- The flag `IgnoredByMonsters`. -/
  ignored : ℕ → Bool
  conditionsEmpty : Bool
  isInSpawnLocation : Bool
  isRemoved : Bool
  ownHealth : ℤ

def FACTION_PLAYER : ℕ := 1

variable (kinds : Kinds)

/-- `Monster::isFriend`. -/
def isFriend (w : World) (creature : ℕ) : Bool := kinds.isMonster creature && !w.isSummon creature

/-- `Monster::isOpponent`. -/
def isOpponent (w : World) (creature : ℕ) : Bool :=
  if kinds.isPlayer creature && w.ignored creature then false
  else kinds.isEnemyFaction (w.faction creature) || w.faction creature = FACTION_PLAYER

/-- `Monster::getTargetIterator`: whether it finds the creature. -/
def hasTarget (s : Monster) (creature : ℕ) : Bool :=
  s.targetList.any fun target => !s.expired target && target = creature

/-- `Monster::addFriend`. -/
def addFriend (s : Monster) (creature : ℕ) : Monster :=
  if creature = s.id ∨ creature ∈ s.friendList then s
  else { s with friendList := s.friendList ++ [creature] }

/-- `Monster::removeFriend`. -/
def removeFriend (s : Monster) (creature : ℕ) : Monster :=
  { s with friendList := s.friendList.filter fun target => !(s.expired target || target = creature) }

/-- `Monster::addTarget`. -/
def addTarget (s : Monster) (creature : ℕ) (pushFront : Bool) : Monster :=
  if creature = s.id then s
  else if hasTarget s creature then s
  else { s with
    targetList := if pushFront then creature :: s.targetList else s.targetList ++ [creature]
    totalPlayersOnScreen :=
      if kinds.isPlayer creature then s.totalPlayersOnScreen + 1 else s.totalPlayersOnScreen }

/-- `Monster::removeTarget`, none when it answers false. -/
def removeTarget (s : Monster) (creature : ℕ) : Option Monster :=
  if !hasTarget s creature then none
  else some { s with
    targetList := s.targetList.erase creature
    totalPlayersOnScreen :=
      if kinds.isPlayer creature then s.totalPlayersOnScreen - 1 else s.totalPlayersOnScreen }

/-- `Monster::setIdle`. -/
def setIdle (w : World) (s : Monster) (idle : Bool) : Monster :=
  if w.isRemoved || w.ownHealth ≤ 0 then s
  else if idle then { s with targetList := [], friendList := [] }
  else s

/-- `Monster::updateIdleStatus`. -/
def updateIdleStatus (w : World) (s : Monster) : Monster :=
  setIdle w s (w.conditionsEmpty && s.targetList.isEmpty && w.isInSpawnLocation)

/-- `Monster::onCreatureFound`. -/
def onCreatureFound (w : World) (s : Monster) (creature : ℕ) (pushFront : Bool) : Monster :=
  let s := if isFriend kinds w creature then addFriend s creature else s
  let s := if isOpponent kinds w creature then addTarget kinds s creature pushFront else s
  updateIdleStatus w s

/-- Who is erased from the lists. -/
def isGone (w : World) (s : Monster) (creature : ℕ) : Bool :=
  s.expired creature || w.health creature ≤ 0 || !w.canSee creature

/-- The lists without those who are gone. -/
def eraseGone (w : World) (s : Monster) : Monster :=
  { s with
    friendList := s.friendList.filter fun creature => !isGone w s creature
    targetList := s.targetList.filter fun creature => !isGone w s creature }

/-- The spectators that the monster sees. -/
def seen (w : World) (s : Monster) : List ℕ :=
  w.spectators.filter fun creature => creature ≠ s.id && w.canSee creature

/-- `Monster::updateTargetList`. -/
def updateTargetList (w : World) (s : Monster) : Monster :=
  (seen w s).foldl (fun s creature => onCreatureFound kinds w s creature false) (eraseGone w s)

/-- `Monster::onCreatureLeave`. -/
def onCreatureLeave (w : World) (s : Monster) (creature : ℕ) : Monster :=
  let s := if isFriend kinds w creature then removeFriend s creature else s
  if isOpponent kinds w creature then
    let s := (removeTarget kinds s creature).getD s
    if s.targetList.isEmpty then updateIdleStatus w s else s
  else s

/-- `Monster::onFollowCreatureComplete`. -/
def onFollowCreatureComplete (s : Monster) (creature : ℕ) (hasFollowPath : Bool) : Monster :=
  match removeTarget kinds s creature with
  | none => s
  | some s => addTarget kinds s creature hasFollowPath

/-- A call, or the destruction of a creature. -/
inductive Call where
  | onCreatureEnter (w : World) (creature : ℕ)
  | onCreatureLeave (w : World) (creature : ℕ)
  | updateTargetList (w : World)
  | onFollowCreatureComplete (creature : ℕ) (hasFollowPath : Bool)
  | setIdle (w : World) (idle : Bool)
  | getTargetList
  | getFriendList
  | destroy (creature : ℕ)

/-- The state after a call. `getTargetList` and `getFriendList` erase what has expired. -/
def step (s : Monster) : Call → Monster
  | .onCreatureEnter w creature => onCreatureFound kinds w s creature true
  | .onCreatureLeave w creature => onCreatureLeave kinds w s creature
  | .updateTargetList w => updateTargetList kinds w s
  | .onFollowCreatureComplete creature hasFollowPath => onFollowCreatureComplete kinds s creature hasFollowPath
  | .setIdle w idle => setIdle w s idle
  | .getTargetList => { s with targetList := s.targetList.filter fun target => !s.expired target }
  | .getFriendList => { s with friendList := s.friendList.filter fun target => !s.expired target }
  | .destroy creature => { s with expired := Function.update s.expired creature true }

/-- A monster that has met nobody. -/
def start (id : ℕ) : Monster := ⟨id, [], [], 0, fun _ => false⟩

/-! ## What is to hold -/

/-- The number of players in the target list that were not destroyed. -/
def livePlayers (s : Monster) : ℕ :=
  s.targetList.countP fun creature => kinds.isPlayer creature && !s.expired creature

/-- Each target is there once, the monster itself is not, and the players are counted: so none of
them is taken from a count of zero. -/
structure Sound (s : Monster) : Prop where
  nodup : s.targetList.Nodup
  self : s.id ∉ s.targetList
  counted : s.totalPlayersOnScreen.toNat = livePlayers kinds s
  unwrapped : ∀ creature ∈ s.targetList, kinds.isPlayer creature = true → s.expired creature = false →
    0 < s.totalPlayersOnScreen

/-- The lists are of creatures that live and are seen, and have all that are. -/
structure Updated (w : World) (s : Monster) : Prop where
  targets : ∀ creature ∈ s.targetList,
    s.expired creature = false ∧ 0 < w.health creature ∧ w.canSee creature = true
  friends : ∀ creature ∈ s.friendList,
    s.expired creature = false ∧ 0 < w.health creature ∧ w.canSee creature = true
  opponents : ∀ creature ∈ seen w s, isOpponent kinds w creature = true → creature ∈ s.targetList
  allFriends : ∀ creature ∈ seen w s, isFriend kinds w creature = true → creature ∈ s.friendList

/-- What is to hold after a call. -/
def Done (s : Monster) : Call → Prop
  | .updateTargetList w => Updated kinds w (step kinds s (.updateTargetList w))
  | _ => True

/-- The monster rests when it has no target. -/
def MayRest (w : World) : Prop :=
  w.isRemoved = false ∧ 0 < w.ownHealth ∧ w.conditionsEmpty = true ∧ w.isInSpawnLocation = true

/-- Updating the lists erases no player, finds no dead friend or opponent and less than 2 ^ 16
players, and sees no friend before the first opponent when the monster has no target left and may
rest. -/
structure Updates (w : World) (s : Monster) : Prop where
  exist : ∀ creature ∈ w.spectators, s.expired creature = false
  stay : ∀ creature ∈ s.targetList, kinds.isPlayer creature = true → s.expired creature = false →
    isGone w s creature = false
  alive : ∀ creature ∈ seen w s, (isFriend kinds w creature || isOpponent kinds w creature) = true →
    0 < w.health creature
  few : ((s.targetList.filter (fun creature => kinds.isPlayer creature && !s.expired creature) ++
    (seen w s).filter fun creature => kinds.isPlayer creature && isOpponent kinds w creature).dedup).length < 2 ^ 16
  order : MayRest w → (eraseGone w s).targetList = [] →
    ∀ creature ∈ (seen w s).takeWhile (fun creature => !isOpponent kinds w creature),
      isFriend kinds w creature = false

/-- A call that keeps the lists in order, about a creature that exists. -/
def Fitting (s : Monster) : Call → Prop
  | .onCreatureEnter w creature => s.expired creature = false ∧
    (creature ≠ s.id → isOpponent kinds w creature = true → kinds.isPlayer creature = true →
      creature ∉ s.targetList → livePlayers kinds s + 1 < 2 ^ 16)
  | .onCreatureLeave _ creature => s.expired creature = false
  | .onFollowCreatureComplete creature _ => s.expired creature = false
  | .updateTargetList w => Updates kinds w s
  | .setIdle w idle => idle = true → w.isRemoved = false → 0 < w.ownHealth → livePlayers kinds s = 0
  | .destroy creature => creature ∈ s.targetList → s.expired creature = false → kinds.isPlayer creature = false
  | _ => True

/-! ## The count -/

/-- The lists and the count, as far as 16 bits go. -/
structure Core (s : Monster) : Prop where
  nodup : s.targetList.Nodup
  self : s.id ∉ s.targetList
  counted : s.totalPlayersOnScreen = UInt16.ofNat (livePlayers kinds s)

variable {kinds} {s : Monster} {w : World} {creature : ℕ}

theorem hasTarget_iff (h : s.expired creature = false) : hasTarget s creature = true ↔ creature ∈ s.targetList := by
  simp only [hasTarget, List.any_eq_true, Bool.and_eq_true, Bool.not_eq_true', decide_eq_true_eq]
  constructor
  · rintro ⟨target, htarget, -, rfl⟩
    exact htarget
  · exact fun hin => ⟨creature, hin, h, rfl⟩

/-- A creature that is not in the list gets into it, and a player is counted. -/
theorem Core.insert (h : Core kinds s) (hexists : s.expired creature = false) (hself : creature ≠ s.id)
    (hin : creature ∉ s.targetList) {targets : List ℕ} (hperm : targets.Perm (creature :: s.targetList)) :
    Core kinds { s with
      targetList := targets
      totalPlayersOnScreen :=
        if kinds.isPlayer creature then s.totalPlayersOnScreen + 1 else s.totalPlayersOnScreen } := by
  refine ⟨(hperm.nodup_iff).2 (List.nodup_cons.2 ⟨hin, h.nodup⟩), fun hmem => ?_, ?_⟩
  · exact (List.mem_cons.1 (hperm.mem_iff.1 hmem)).elim (fun e => hself e.symm) h.self
  · have hcount := hperm.countP_eq fun c => kinds.isPlayer c && !s.expired c
    rw [List.countP_cons] at hcount
    simp only [livePlayers]
    rw [hcount, h.counted, livePlayers]
    by_cases hplayer : kinds.isPlayer creature = true <;> simp [hplayer, hexists, UInt16.ofNat_add]

theorem Core.addTarget (h : Core kinds s) (hexists : s.expired creature = false) (pushFront : Bool) :
    Core kinds (addTarget kinds s creature pushFront) := by
  unfold Targets.addTarget
  by_cases hself : creature = s.id
  · rwa [if_pos hself]
  by_cases hin : hasTarget s creature = true
  · rwa [if_neg hself, if_pos hin]
  rw [if_neg hself, if_neg hin]
  refine h.insert hexists hself (fun hmem => hin ((hasTarget_iff hexists).2 hmem)) ?_
  split_ifs
  · exact .refl _
  · exact List.perm_append_singleton creature _

theorem Core.removeTarget (h : Core kinds s) (hexists : s.expired creature = false) {s' : Monster}
    (hremove : removeTarget kinds s creature = some s') : Core kinds s' := by
  unfold Targets.removeTarget at hremove
  by_cases hnone : (!hasTarget s creature) = true
  · rw [if_pos hnone] at hremove
    exact nomatch hremove
  rw [if_neg hnone] at hremove
  have hin : creature ∈ s.targetList := by
    rw [← hasTarget_iff hexists]
    simpa using hnone
  obtain rfl := Option.some.inj hremove
  refine ⟨h.nodup.erase creature, fun hmem => h.self (List.mem_of_mem_erase hmem), ?_⟩
  simp only [livePlayers, List.countP_erase]
  rw [h.counted, livePlayers]
  by_cases hplayer : kinds.isPlayer creature = true
  · have hpos : 0 < s.targetList.countP fun c => kinds.isPlayer c && !s.expired c :=
      List.countP_pos_iff.2 ⟨creature, hin, by simp [hplayer, hexists]⟩
    obtain ⟨n, hn⟩ := Nat.exists_eq_add_one.2 hpos
    rw [hn]
    simp [hplayer, hexists, hin, UInt16.ofNat_add]
  · simp [hplayer]

/-- A list without live players is cleared. -/
theorem Core.clear (h : Core kinds s) (hnone : livePlayers kinds s = 0) :
    Core kinds { s with targetList := [], friendList := [] } where
  nodup := List.nodup_nil
  self := List.not_mem_nil
  counted := by
    rw [h.counted, hnone]
    rfl

/-- Targets other than live players are erased. -/
theorem Core.filter (h : Core kinds s) {keep : ℕ → Bool}
    (hkeep : ∀ c ∈ s.targetList, kinds.isPlayer c = true → s.expired c = false → keep c = true)
    (friendList : List ℕ) :
    Core kinds { s with targetList := s.targetList.filter keep, friendList := friendList } where
  nodup := h.nodup.filter _
  self hmem := h.self (List.mem_of_mem_filter hmem)
  counted := by
    rw [h.counted]
    simp only [livePlayers, List.countP_filter]
    congr 1
    refine List.countP_congr fun c hc => ?_
    simp only [Bool.and_eq_true, Bool.not_eq_true']
    exact ⟨fun hlive => ⟨hlive, hkeep c hc hlive.1 hlive.2⟩, fun hlive => hlive.1⟩

theorem Core.friends (h : Core kinds s) (friendList : List ℕ) : Core kinds { s with friendList := friendList } :=
  ⟨h.nodup, h.self, h.counted⟩

theorem Core.addFriend (h : Core kinds s) (creature : ℕ) : Core kinds (addFriend s creature) := by
  unfold Targets.addFriend
  split_ifs
  · exact h
  · exact h.friends _

theorem updateIdleStatus_of_rest (hrest : MayRest w) (hempty : s.targetList = []) :
    updateIdleStatus w s = { s with targetList := [], friendList := [] } := by
  obtain ⟨hremoved, hhealth, hconditions, hspawn⟩ := hrest
  simp [updateIdleStatus, setIdle, hremoved, hhealth, hconditions, hspawn, hempty]

theorem updateIdleStatus_of_not (h : ¬ (MayRest w ∧ s.targetList = [])) : updateIdleStatus w s = s := by
  unfold updateIdleStatus setIdle
  split_ifs with hdead hidle
  · rfl
  · simp only [Bool.and_eq_true, List.isEmpty_iff] at hidle
    simp only [Bool.or_eq_true, decide_eq_true_eq, not_or, Bool.not_eq_true, not_le] at hdead
    exact absurd ⟨⟨hdead.1, hdead.2, hidle.1.1, hidle.2⟩, hidle.1.2⟩ h
  · rfl

theorem Core.updateIdleStatus (h : Core kinds s) (w : World) : Core kinds (updateIdleStatus w s) := by
  by_cases hidle : MayRest w ∧ s.targetList = []
  · rw [updateIdleStatus_of_rest hidle.1 hidle.2]
    exact h.clear (by rw [livePlayers, hidle.2]; rfl)
  · rwa [updateIdleStatus_of_not hidle]

/-! ## Finding creatures -/

theorem mem_addTarget (hexists : s.expired creature = false) (hself : creature ≠ s.id) (pushFront : Bool) (c : ℕ) :
    c ∈ (addTarget kinds s creature pushFront).targetList ↔ c ∈ s.targetList ∨ c = creature := by
  unfold addTarget
  by_cases hin : hasTarget s creature = true
  · rw [if_neg hself, if_pos hin]
    rw [hasTarget_iff hexists] at hin
    exact ⟨.inl, fun h => h.elim id fun e => e ▸ hin⟩
  · rw [if_neg hself, if_neg hin]
    dsimp only
    split_ifs
    · rw [List.mem_cons, or_comm]
    · rw [List.mem_append, List.mem_singleton]

theorem mem_addFriend (hself : creature ≠ s.id) (c : ℕ) :
    c ∈ (addFriend s creature).friendList ↔ c ∈ s.friendList ∨ c = creature := by
  unfold addFriend
  split_ifs with hin
  · exact ⟨.inl, fun h => h.elim id fun e => e ▸ hin.resolve_left hself⟩
  · rw [List.mem_append, List.mem_singleton]

/-- The lists with a creature that is found, before the monster may rest. -/
def found (kinds : Kinds) (w : World) (s : Monster) (creature : ℕ) (pushFront : Bool) : Monster :=
  let s := if isFriend kinds w creature then addFriend s creature else s
  if isOpponent kinds w creature then addTarget kinds s creature pushFront else s

theorem onCreatureFound_eq (kinds : Kinds) (w : World) (s : Monster) (creature : ℕ) (pushFront : Bool) :
    onCreatureFound kinds w s creature pushFront = updateIdleStatus w (found kinds w s creature pushFront) := rfl

/-- What does not change. -/
structure SameSelf (s s' : Monster) : Prop where
  id : s'.id = s.id
  expired : s'.expired = s.expired

theorem SameSelf.trans {s' s'' : Monster} (h : SameSelf s s') (h' : SameSelf s' s'') : SameSelf s s'' :=
  ⟨h'.id.trans h.id, h'.expired.trans h.expired⟩

theorem sameSelf_addFriend (s : Monster) (creature : ℕ) : SameSelf s (addFriend s creature) := by
  unfold addFriend
  split_ifs <;> exact ⟨rfl, rfl⟩

theorem sameSelf_addTarget (s : Monster) (creature : ℕ) (pushFront : Bool) :
    SameSelf s (addTarget kinds s creature pushFront) := by
  unfold addTarget
  by_cases hself : creature = s.id
  · rw [if_pos hself]
    exact ⟨rfl, rfl⟩
  by_cases hin : hasTarget s creature = true
  · rw [if_neg hself, if_pos hin]
    exact ⟨rfl, rfl⟩
  · rw [if_neg hself, if_neg hin]
    exact ⟨rfl, rfl⟩

theorem sameSelf_updateIdleStatus (w : World) (s : Monster) : SameSelf s (updateIdleStatus w s) := by
  unfold updateIdleStatus setIdle
  split_ifs <;> exact ⟨rfl, rfl⟩

theorem sameSelf_found (kinds : Kinds) (w : World) (s : Monster) (creature : ℕ) (pushFront : Bool) :
    SameSelf s (found kinds w s creature pushFront) := by
  have hfriend : SameSelf s (if isFriend kinds w creature then addFriend s creature else s) := by
    split_ifs
    · exact sameSelf_addFriend s creature
    · exact ⟨rfl, rfl⟩
  unfold found
  dsimp only
  by_cases hopponent : isOpponent kinds w creature = true
  · rw [if_pos hopponent]
    exact hfriend.trans (sameSelf_addTarget _ creature pushFront)
  · rwa [if_neg hopponent]

theorem Core.found (h : Core kinds s) (hexists : s.expired creature = false) (w : World) (pushFront : Bool) :
    Core kinds (found kinds w s creature pushFront) := by
  have hfriend : Core kinds (if isFriend kinds w creature then Targets.addFriend s creature else s) := by
    split_ifs
    · exact h.addFriend creature
    · exact h
  unfold Targets.found
  dsimp only
  by_cases hopponent : isOpponent kinds w creature = true
  · rw [if_pos hopponent]
    refine hfriend.addTarget ?_ pushFront
    split_ifs
    · rwa [(sameSelf_addFriend s creature).expired]
    · exact hexists
  · rwa [if_neg hopponent]

theorem targetList_addFriend (s : Monster) (creature : ℕ) : (addFriend s creature).targetList = s.targetList := by
  unfold addFriend
  split_ifs <;> rfl

theorem friendList_addTarget (s : Monster) (creature : ℕ) (pushFront : Bool) :
    (addTarget kinds s creature pushFront).friendList = s.friendList := by
  unfold addTarget
  by_cases hself : creature = s.id
  · rw [if_pos hself]
  by_cases hin : hasTarget s creature = true
  · rw [if_neg hself, if_pos hin]
  · rw [if_neg hself, if_neg hin]

theorem mem_targetList_found (hexists : s.expired creature = false) (hself : creature ≠ s.id) (pushFront : Bool)
    (c : ℕ) : c ∈ (found kinds w s creature pushFront).targetList ↔
      c ∈ s.targetList ∨ c = creature ∧ isOpponent kinds w creature = true := by
  have hsame : SameSelf s (if isFriend kinds w creature then addFriend s creature else s) := by
    split_ifs
    · exact sameSelf_addFriend s creature
    · exact ⟨rfl, rfl⟩
  have htargets : (if isFriend kinds w creature then addFriend s creature else s).targetList = s.targetList := by
    split_ifs
    · exact targetList_addFriend s creature
    · rfl
  unfold found
  dsimp only
  by_cases hopponent : isOpponent kinds w creature = true
  · rw [if_pos hopponent, mem_addTarget (by rwa [hsame.expired]) (by rwa [hsame.id]), htargets,
      and_iff_left hopponent]
  · rw [if_neg hopponent, htargets]
    exact ⟨.inl, fun h => h.resolve_right fun hc => hopponent hc.2⟩

theorem mem_friendList_found (hself : creature ≠ s.id) (pushFront : Bool) (c : ℕ) :
    c ∈ (found kinds w s creature pushFront).friendList ↔
      c ∈ s.friendList ∨ c = creature ∧ isFriend kinds w creature = true := by
  have hfriends : (found kinds w s creature pushFront).friendList =
      (if isFriend kinds w creature then addFriend s creature else s).friendList := by
    unfold found
    dsimp only
    by_cases hopponent : isOpponent kinds w creature = true
    · rw [if_pos hopponent, friendList_addTarget]
    · rw [if_neg hopponent]
  rw [hfriends]
  by_cases hfriend : isFriend kinds w creature = true
  · rw [if_pos hfriend, mem_addFriend hself, and_iff_left hfriend]
  · rw [if_neg hfriend]
    exact ⟨.inl, fun h => h.resolve_right fun hc => hfriend hc.2⟩

theorem targetList_updateIdleStatus (w : World) (s : Monster) :
    (updateIdleStatus w s).targetList = s.targetList := by
  by_cases hidle : MayRest w ∧ s.targetList = []
  · rw [updateIdleStatus_of_rest hidle.1 hidle.2, hidle.2]
  · rw [updateIdleStatus_of_not hidle]

theorem mem_friendList_updateIdleStatus {c : ℕ} (h : c ∈ (updateIdleStatus w s).friendList) : c ∈ s.friendList := by
  by_cases hidle : MayRest w ∧ s.targetList = []
  · rw [updateIdleStatus_of_rest hidle.1 hidle.2] at h
    exact absurd h List.not_mem_nil
  · rwa [updateIdleStatus_of_not hidle] at h

/-! ### Several at once -/

/-- The lists after the creatures of a list are found one after another. -/
structure FoundAll (kinds : Kinds) (w : World) (creatures : List ℕ) (s s' : Monster) : Prop extends Core kinds s' where
  same : SameSelf s s'
  targets : ∀ c, c ∈ s'.targetList ↔ c ∈ s.targetList ∨ c ∈ creatures ∧ isOpponent kinds w c = true
  friends : ∀ c ∈ s'.friendList, c ∈ s.friendList ∨ c ∈ creatures ∧ isFriend kinds w c = true
  /-- Friends are kept where the monster does not rest. -/
  kept : ¬ (MayRest w ∧ s.targetList = []) → ∀ c ∈ s.friendList, c ∈ s'.friendList
  allFriends : (MayRest w → s.targetList = [] →
    ∀ c ∈ creatures.takeWhile (fun c => !isOpponent kinds w c), isFriend kinds w c = false) →
    ∀ c ∈ creatures, isFriend kinds w c = true → c ∈ s'.friendList

/-- **Finding creatures**, by induction on their list: the monster may rest at one of them only as
long as it has no target. -/
theorem Core.foldl_found {creatures : List ℕ} : ∀ {s : Monster}, Core kinds s →
    (∀ c ∈ creatures, s.expired c = false ∧ c ≠ s.id) →
    FoundAll kinds w creatures s (creatures.foldl (fun s c => onCreatureFound kinds w s c false) s) := by
  induction creatures with
  | nil =>
    exact fun h _ => { h with
      same := ⟨rfl, rfl⟩
      targets := fun c => by simp
      friends := fun c hc => .inl hc
      kept := fun _ c hc => hc
      allFriends := fun _ c hc => absurd hc List.not_mem_nil }
  | cons c creatures ih =>
    intro s h hall
    obtain ⟨hexists, hself⟩ := hall c List.mem_cons_self
    have hfound := h.found hexists w false
    have hsame := sameSelf_found kinds w s c false
    have hmem : ∀ d, d ∈ (Targets.found kinds w s c false).targetList ↔
        d ∈ s.targetList ∨ d = c ∧ isOpponent kinds w c = true := mem_targetList_found hexists hself false
    have hfriend : ∀ d, d ∈ (Targets.found kinds w s c false).friendList ↔
        d ∈ s.friendList ∨ d = c ∧ isFriend kinds w c = true := mem_friendList_found hself false
    rw [List.foldl_cons, onCreatureFound_eq]
    set s₁ := Targets.found kinds w s c false
    have hrest := ih (hfound.updateIdleStatus w) fun d hd => by
      have hold := hall d (List.mem_cons_of_mem _ hd)
      have hsame' := hsame.trans (sameSelf_updateIdleStatus w s₁)
      rwa [hsame'.expired, hsame'.id]
    have htargets : (Targets.updateIdleStatus w s₁).targetList = s₁.targetList := targetList_updateIdleStatus w s₁
    have hgrown : s.targetList ≠ [] → s₁.targetList ≠ [] := fun hne hempty => by
      obtain ⟨d, hd⟩ := List.exists_mem_of_ne_nil _ hne
      have hin := (hmem d).2 (.inl hd)
      rw [hempty] at hin
      exact List.not_mem_nil hin
    refine { hrest with
      same := (hsame.trans (sameSelf_updateIdleStatus w s₁)).trans hrest.same
      targets := fun d => ?_
      friends := fun d hd => ?_
      kept := fun hstays d hd => ?_
      allFriends := fun horder d hd hfriendly => ?_ }
    · rw [hrest.targets, htargets, hmem, List.mem_cons]
      constructor
      · rintro ((hold | ⟨rfl, hopponent⟩) | ⟨hin, hopponent⟩)
        · exact .inl hold
        · exact .inr ⟨.inl rfl, hopponent⟩
        · exact .inr ⟨.inr hin, hopponent⟩
      · rintro (hold | ⟨rfl | hin, hopponent⟩)
        · exact .inl (.inl hold)
        · exact .inl (.inr ⟨rfl, hopponent⟩)
        · exact .inr ⟨hin, hopponent⟩
    · rcases hrest.friends d hd with hold | ⟨hin, hfriendly⟩
      · rcases (hfriend d).1 (mem_friendList_updateIdleStatus hold) with hold | ⟨rfl, hfriendly⟩
        · exact .inl hold
        · exact .inr ⟨List.mem_cons_self, hfriendly⟩
      · exact .inr ⟨List.mem_cons_of_mem _ hin, hfriendly⟩
    · have hstays₁ : ¬ (MayRest w ∧ s₁.targetList = []) := fun ⟨hmay, hempty⟩ =>
        hstays ⟨hmay, not_not.1 fun hne => hgrown hne hempty⟩
      refine hrest.kept (by rwa [htargets]) d ?_
      rw [updateIdleStatus_of_not hstays₁]
      exact (hfriend d).2 (.inl hd)
    · by_cases hrests : MayRest w ∧ s₁.targetList = []
      · -- the creature is no opponent, and so no friend either
        have hempty : s.targetList = [] := not_not.1 fun hne => hgrown hne hrests.2
        have hnot : (!isOpponent kinds w c) = true := by
          rw [Bool.not_eq_true', ← Bool.not_eq_true]
          intro hopponent
          have hin := (hmem c).2 (.inr ⟨rfl, hopponent⟩)
          rw [hrests.2] at hin
          exact List.not_mem_nil hin
        have horder' : ∀ e ∈ c :: creatures.takeWhile (fun c => !isOpponent kinds w c), isFriend kinds w e = false := by
          have hall' := horder hrests.1 hempty
          rwa [List.takeWhile_cons, if_pos hnot] at hall'
        rcases List.mem_cons.1 hd with rfl | hd
        · rw [horder' d List.mem_cons_self] at hfriendly
          exact nomatch hfriendly
        · exact hrest.allFriends (fun _ _ e he => horder' e (List.mem_cons_of_mem _ he)) d hd hfriendly
      · rcases List.mem_cons.1 hd with rfl | hd
        · refine hrest.kept (by rwa [htargets]) d ?_
          rw [updateIdleStatus_of_not hrests]
          exact (hfriend d).2 (.inr ⟨rfl, hfriendly⟩)
        · exact hrest.allFriends (fun hmay hempty => absurd ⟨hmay, htargets ▸ hempty⟩ hrests) d hd hfriendly

/-! ## Calls -/

/-- The lists and the exact count. -/
structure Inv (kinds : Kinds) (s : Monster) : Prop extends Core kinds s where
  few : livePlayers kinds s < 2 ^ 16

theorem inv_start (id : ℕ) : Inv kinds (start id) where
  nodup := List.nodup_nil
  self := List.not_mem_nil
  counted := rfl
  few := Nat.two_pow_pos 16

theorem Inv.of_sub (h : Inv kinds s) {s' : Monster} (hcore : Core kinds s') (hsub : s'.targetList.Sublist s.targetList)
    (hexpired : s'.expired = s.expired) : Inv kinds s' where
  toCore := hcore
  few := by
    refine lt_of_le_of_lt ?_ h.few
    rw [livePlayers, livePlayers, hexpired]
    exact hsub.countP_le

theorem Inv.sound (h : Inv kinds s) : Sound kinds s := by
  have hcount : s.totalPlayersOnScreen.toNat = livePlayers kinds s := by
    rw [h.counted, UInt16.toNat_ofNat', Nat.mod_eq_of_lt h.few]
  refine ⟨h.nodup, h.self, hcount, fun c hc hplayer hexists => ?_⟩
  rw [UInt16.lt_iff_toNat_lt, hcount]
  exact List.countP_pos_iff.2 ⟨c, hc, by simp [hplayer, hexists]⟩

theorem Inv.updateIdleStatus (h : Inv kinds s) (w : World) : Inv kinds (updateIdleStatus w s) :=
  h.of_sub (h.toCore.updateIdleStatus w) (by rw [targetList_updateIdleStatus])
    (sameSelf_updateIdleStatus w s).expired

theorem livePlayers_le (h : Core kinds s) {l : List ℕ}
    (hsub : ∀ c ∈ s.targetList, kinds.isPlayer c = true → s.expired c = false → c ∈ l) :
    livePlayers kinds s ≤ l.length := by
  rw [livePlayers, List.countP_eq_length_filter]
  refine (List.subperm_of_subset (h.nodup.filter _) fun c hc => ?_).length_le
  obtain ⟨hin, hlive⟩ := List.mem_filter.1 hc
  rw [Bool.and_eq_true, Bool.not_eq_true'] at hlive
  exact hsub c hin hlive.1 hlive.2

theorem mem_of_live {c : ℕ} (hc : c ∈ s.targetList) (hplayer : kinds.isPlayer c = true)
    (hexists : s.expired c = false) : c ∈ s.targetList.filter fun c => kinds.isPlayer c && !s.expired c :=
  List.mem_filter.2 ⟨hc, by simp [hplayer, hexists]⟩

/-- The monster itself is not found. -/
theorem targetList_found_self (w : World) (s : Monster) (pushFront : Bool) :
    (found kinds w s s.id pushFront).targetList = s.targetList := by
  have hself : ∀ t : Monster, t.id = s.id → addTarget kinds t s.id pushFront = t := fun t ht => if_pos ht.symm
  unfold found
  dsimp only
  split_ifs
  · rw [hself _ (sameSelf_addFriend s s.id).id, targetList_addFriend]
  · rw [hself _ rfl]
  · rw [targetList_addFriend]
  · rfl

theorem Inv.onCreatureEnter (h : Inv kinds s) (hfits : Fitting kinds s (.onCreatureEnter w creature)) :
    Inv kinds (onCreatureFound kinds w s creature true) := by
  obtain ⟨hexists, hroom⟩ := hfits
  have hcore := h.toCore.found hexists w true
  have hsame := sameSelf_found kinds w s creature true
  rw [onCreatureFound_eq]
  refine Inv.updateIdleStatus ⟨hcore, ?_⟩ w
  have hcount : livePlayers kinds s = (s.targetList.filter fun c => kinds.isPlayer c && !s.expired c).length :=
    List.countP_eq_length_filter
  by_cases hnew : creature ≠ s.id ∧ isOpponent kinds w creature = true ∧ kinds.isPlayer creature = true ∧
      creature ∉ s.targetList
  · have hbound : (creature :: s.targetList.filter fun c => kinds.isPlayer c && !s.expired c).length < 2 ^ 16 := by
      rw [List.length_cons, ← hcount]
      exact hroom hnew.1 hnew.2.1 hnew.2.2.1 hnew.2.2.2
    refine lt_of_le_of_lt (livePlayers_le hcore fun c hc hplayer hlive => ?_) hbound
    · rcases (mem_targetList_found hexists hnew.1 true c).1 hc with hold | ⟨rfl, -⟩
      · exact List.mem_cons_of_mem _ (mem_of_live hold hplayer (hsame.expired ▸ hlive))
      · exact List.mem_cons_self
  · refine lt_of_le_of_lt (livePlayers_le hcore fun c hc hplayer hlive => ?_) (hcount ▸ h.few)
    refine mem_of_live ?_ hplayer (hsame.expired ▸ hlive)
    by_cases hself : creature = s.id
    · rwa [hself, targetList_found_self] at hc
    · rcases (mem_targetList_found hexists hself true c).1 hc with hold | ⟨rfl, hopponent⟩
      · exact hold
      · by_contra hin
        exact hnew ⟨hself, hopponent, hplayer, hin⟩

/-- **Updating the lists.** -/
theorem Inv.updateTargetList (h : Inv kinds s) (hfits : Updates kinds w s) :
    Inv kinds (updateTargetList kinds w s) ∧ Updated kinds w (updateTargetList kinds w s) := by
  have herased : Core kinds (eraseGone w s) := h.toCore.filter
    (fun c hc hplayer hlive => by rw [hfits.stay c hc hplayer hlive]; rfl) _
  have hseen : ∀ c, c ∈ seen w s ↔ c ∈ w.spectators ∧ c ≠ s.id ∧ w.canSee c = true := fun c => by
    simp [seen]
  have hall : FoundAll kinds w (seen w s) (eraseGone w s) (Targets.updateTargetList kinds w s) :=
    herased.foldl_found fun c hc => ⟨hfits.exist c ((hseen c).1 hc).1, ((hseen c).1 hc).2.1⟩
  have hsame : seen w (Targets.updateTargetList kinds w s) = seen w s := by
    have hid : (Targets.updateTargetList kinds w s).id = s.id := hall.same.id
    unfold seen
    rw [hid]
  have hexpired : (Targets.updateTargetList kinds w s).expired = s.expired := hall.same.expired
  have hstay : ∀ c, isGone w s c = false → s.expired c = false ∧ 0 < w.health c ∧ w.canSee c = true := by
    intro c hc
    simpa [isGone, and_assoc] using hc
  refine ⟨⟨hall.toCore, ?_⟩, fun c hc => ?_, fun c hc => ?_, fun c hc hopponent => ?_, fun c hc hfriendly => ?_⟩
  · refine lt_of_le_of_lt (livePlayers_le hall.toCore fun c hc hplayer hlive => List.mem_dedup.2 ?_) hfits.few
    rcases (hall.targets c).1 hc with hold | ⟨hin, hopponent⟩
    · exact List.mem_append_left _ (mem_of_live (List.mem_of_mem_filter hold) hplayer (hexpired ▸ hlive))
    · exact List.mem_append_right _ (List.mem_filter.2 ⟨hin, by simp [hplayer, hopponent]⟩)
  · rw [hexpired]
    rcases (hall.targets c).1 hc with hold | ⟨hin, hopponent⟩
    · exact hstay c (by simpa using (List.mem_filter.1 hold).2)
    · exact ⟨hfits.exist c ((hseen c).1 hin).1, hfits.alive c hin (by simp [hopponent]), ((hseen c).1 hin).2.2⟩
  · rw [hexpired]
    rcases hall.friends c hc with hold | ⟨hin, hfriendly⟩
    · exact hstay c (by simpa using (List.mem_filter.1 hold).2)
    · exact ⟨hfits.exist c ((hseen c).1 hin).1, hfits.alive c hin (by simp [hfriendly]), ((hseen c).1 hin).2.2⟩
  · exact (hall.targets c).2 (.inr ⟨hsame ▸ hc, hopponent⟩)
  · exact hall.allFriends hfits.order c (hsame ▸ hc) hfriendly

theorem Inv.friends (h : Inv kinds s) (friendList : List ℕ) : Inv kinds { s with friendList := friendList } :=
  ⟨h.toCore.friends friendList, h.few⟩

theorem Inv.removeTarget (h : Inv kinds s) (hexists : s.expired creature = false) :
    Inv kinds ((removeTarget kinds s creature).getD s) := by
  cases hremove : Targets.removeTarget kinds s creature with
  | none => exact h
  | some s' =>
    refine h.of_sub (h.toCore.removeTarget hexists hremove) ?_ ?_
    all_goals
      unfold Targets.removeTarget at hremove
      split at hremove
      · exact nomatch hremove
      · obtain rfl := Option.some.inj hremove
        first
        | exact List.erase_sublist
        | rfl

theorem Inv.onCreatureLeave (h : Inv kinds s) (hexists : s.expired creature = false) :
    Inv kinds (onCreatureLeave kinds w s creature) := by
  have hfriend : Inv kinds (if isFriend kinds w creature then removeFriend s creature else s) := by
    split_ifs
    · exact h.friends _
    · exact h
  have hheld : (if isFriend kinds w creature then removeFriend s creature else s).expired creature = false := by
    split_ifs <;> exact hexists
  unfold Targets.onCreatureLeave
  dsimp only
  by_cases hopponent : isOpponent kinds w creature = true
  · rw [if_pos hopponent]
    have hremoved := hfriend.removeTarget hheld
    by_cases hempty : ((Targets.removeTarget kinds
        (if isFriend kinds w creature then removeFriend s creature else s) creature).getD
        (if isFriend kinds w creature then removeFriend s creature else s)).targetList.isEmpty = true
    · rw [if_pos hempty]
      exact hremoved.updateIdleStatus w
    · rwa [if_neg hempty]
  · rwa [if_neg hopponent]

theorem Inv.onFollowCreatureComplete (h : Inv kinds s) (hexists : s.expired creature = false) (hasFollowPath : Bool) :
    Inv kinds (onFollowCreatureComplete kinds s creature hasFollowPath) := by
  unfold Targets.onFollowCreatureComplete
  cases hremove : Targets.removeTarget kinds s creature with
  | none => exact h
  | some s' =>
    have hcore := h.toCore.removeTarget hexists hremove
    unfold Targets.removeTarget at hremove
    by_cases hnone : (!hasTarget s creature) = true
    · rw [if_pos hnone] at hremove
      exact nomatch hremove
    rw [if_neg hnone] at hremove
    obtain rfl := Option.some.inj hremove
    have hin : creature ∈ s.targetList := by
      rw [← hasTarget_iff hexists]
      simpa using hnone
    have hself : creature ≠ s.id := fun e => h.self (e ▸ hin)
    have hadded := hcore.addTarget hexists hasFollowPath
    refine ⟨hadded, lt_of_le_of_lt (livePlayers_le hadded fun c hc hplayer hlive => ?_)
      (List.countP_eq_length_filter.symm.trans_lt h.few)⟩
    refine mem_of_live ?_ hplayer ?_
    · rcases (mem_addTarget (by exact hexists) (by exact hself) hasFollowPath c).1 hc with hold | rfl
      · exact List.mem_of_mem_erase hold
      · exact hin
    · rwa [(sameSelf_addTarget _ creature hasFollowPath).expired] at hlive

theorem Inv.setIdle (h : Inv kinds s) {idle : Bool} (hfits : Fitting kinds s (.setIdle w idle)) :
    Inv kinds (setIdle w s idle) := by
  unfold Targets.setIdle
  split_ifs with hdead hidle
  · exact h
  · simp only [Bool.or_eq_true, decide_eq_true_eq, not_or, Bool.not_eq_true, not_le] at hdead
    exact h.of_sub (h.toCore.clear (hfits hidle hdead.1 hdead.2)) (List.nil_sublist _) rfl
  · exact h

theorem Inv.destroy (h : Inv kinds s) (hfits : Fitting kinds s (.destroy creature)) :
    Inv kinds { s with expired := Function.update s.expired creature true } := by
  have hcount : livePlayers kinds { s with expired := Function.update s.expired creature true } =
      livePlayers kinds s := by
    refine List.countP_congr fun c hc => ?_
    by_cases hself : c = creature
    · subst hself
      cases hlive : s.expired c with
      | true => simp
      | false => simp [hfits hc hlive]
    · simp [hself]
  exact ⟨⟨h.nodup, h.self, by rw [hcount]; exact h.counted⟩, hcount ▸ h.few⟩

/-- One call. -/
theorem Inv.step (h : Inv kinds s) {c : Call} (hfits : Fitting kinds s c) :
    Inv kinds (step kinds s c) ∧ Done kinds s c := by
  cases c with
  | onCreatureEnter w creature => exact ⟨h.onCreatureEnter hfits, trivial⟩
  | onCreatureLeave w creature => exact ⟨h.onCreatureLeave hfits, trivial⟩
  | updateTargetList w => exact h.updateTargetList hfits
  | onFollowCreatureComplete creature hasFollowPath =>
    exact ⟨h.onFollowCreatureComplete hfits hasFollowPath, trivial⟩
  | setIdle w idle => exact ⟨h.setIdle hfits, trivial⟩
  | getTargetList =>
    refine ⟨h.of_sub (h.toCore.filter (fun c _ _ hlive => ?_) s.friendList) List.filter_sublist rfl, trivial⟩
    rw [hlive]
    rfl
  | getFriendList => exact ⟨h.friends _, trivial⟩
  | destroy creature => exact ⟨h.destroy hfits, trivial⟩

/-- **The lists are sound** in every state of a run of calls that fit, and what is to hold after a
call does. -/
theorem run_targets_sound (kinds : Kinds) (id : ℕ) {l : List Call}
    (hl : Runs.Meets (step kinds) (Fitting kinds) (start id) l) :
    Sound kinds (Runs.run (step kinds) (start id) l) ∧
      ∀ l₁ c l₂, l = l₁ ++ c :: l₂ → Done kinds (Runs.run (step kinds) (start id) l₁) c := by
  obtain ⟨hinv, hsteps⟩ := Runs.invariant_steps _ (fun _ _ hs hc => hs.step hc) (inv_start id) hl
  exact ⟨hinv.sound, hsteps⟩

/-- A player who is seen and in health. -/
def openField : World where
  spectators := [5]
  canSee _ := true
  health _ := 100
  faction _ := FACTION_PLAYER
  isSummon _ := false
  ignored _ := false
  conditionsEmpty := false
  isInSpawnLocation := true
  isRemoved := false
  ownHealth := 100

/-- A player who comes and goes. -/
theorem run_targets_sound_visit :
    let kinds : Kinds := ⟨(· == 5), fun _ => false, fun _ => false⟩
    Sound kinds (Runs.run (step kinds) (start 1)
      [.onCreatureEnter openField 5, .updateTargetList openField, .onCreatureLeave openField 5]) := by
  intro kinds
  have hhealth : ∀ creature, 0 < openField.health creature := fun _ => by
    show (0 : ℤ) < 100
    decide
  have hupdates : Updates kinds openField (onCreatureFound kinds openField (start 1) 5 true) :=
    ⟨fun _ _ => rfl, fun _ _ _ _ => rfl, fun creature _ _ => hhealth creature, by decide,
      fun hrest => nomatch hrest.2.2.1⟩
  have hmeets : Runs.Meets (step kinds) (Fitting kinds) (start 1)
      [.onCreatureEnter openField 5, .updateTargetList openField, .onCreatureLeave openField 5] :=
    ⟨⟨rfl, fun _ _ _ _ => by decide⟩, hupdates, rfl, trivial⟩
  exact (run_targets_sound kinds 1 hmeets).1

/-- A player who goes out of sight is erased, and stays counted. -/
theorem not_sound_outOfSight :
    let kinds : Kinds := ⟨(· == 5), fun _ => false, fun _ => false⟩
    ¬ Sound kinds (Runs.run (step kinds) (start 1)
      [.onCreatureEnter openField 5,
        .updateTargetList { openField with spectators := [], canSee := fun _ => false }]) := by
  intro kinds h
  have hcounted := h.counted
  revert hcounted
  decide

end TiabloServer.Targets
