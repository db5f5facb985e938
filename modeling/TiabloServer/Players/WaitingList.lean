import TiabloServer.Lib.Runs

/-!
# The waiting list

`WaitingList` (`waitlist.cpp`, `waitlist.hpp`): players who wait to log in stand in one of two
lists, and `playerReferences` has for each of them an iterator and the slot of his last call. Which
list an iterator belongs to is not stored: every call asks again whether the player is premium. An
iterator is the number of its node, which no other node gets. A call that hands a list the node of
the other one has no defined result and answers nothing.

## Main definitions

* `Waiting.Fair` — a call answers, and lets in only a player with room for him and those ahead of
  him.
* `Waiting.Placed` — a player waits in the list of his kind, and no premium player is let in from a
  list.

## Main results

* `Waiting.run_fair` — in runs of such calls every state is sound and every call fair.
-/

namespace TiabloServer.Waiting

/-! ## The lists -/

/-- `Wait`, with the number of its node. -/
structure Wait where
  node : ℕ
  timeout : ℕ
  playerGUID : ℕ
  deriving DecidableEq

/-- `WaitListInfo`. -/
structure WaitingList where
  priorityWaitList : List Wait
  waitList : List Wait
  playerReferences : ℕ → Option (ℕ × ℕ)
  nextNode : ℕ

/-- What the list asks of a player. -/
structure Player where
  guid : ℕ
  isPremium : Bool
  /-- He has the flag `CanAlwaysLogin`, or is a gamemaster. -/
  alwaysLogin : Bool

namespace WaitingList

def empty : WaitingList := ⟨[], [], fun _ => none, 0⟩

/-- All nodes. -/
def waits (s : WaitingList) : List Wait := s.priorityWaitList ++ s.waitList

end WaitingList

/-- `WaitingList::getTime`. -/
def getTime (slot : ℕ) : ℕ :=
  if slot < 5 then 5 else if slot < 10 then 10 else if slot < 20 then 20 else if slot < 50 then 60 else 120

/-- `WaitingList::getTimeout`. -/
def getTimeout (slot : ℕ) : ℕ := getTime slot + 15

/-- `WaitingList::cleanupList`: what is left of the references and of the list. -/
def cleanupList (time : ℕ) : (ℕ → Option (ℕ × ℕ)) → List Wait → (ℕ → Option (ℕ × ℕ)) × List Wait
  | playerReferences, [] => (playerReferences, [])
  | playerReferences, w :: list =>
    if w.timeout ≤ time then
      cleanupList time (Function.update playerReferences w.playerGUID none) list
    else
      let r := cleanupList time playerReferences list
      (r.1, w :: r.2)

/-- Both lists are cleaned up. -/
def cleanup (time : ℕ) (s : WaitingList) : WaitingList :=
  let r := cleanupList time s.playerReferences s.priorityWaitList
  let r' := cleanupList time r.1 s.waitList
  { s with priorityWaitList := r.2, waitList := r'.2, playerReferences := r'.1 }

/-- `std::distance` from the beginning of a list, for a node of it. -/
def distance (list : List Wait) (node : ℕ) : Option ℕ := list.findIdx? fun w => w.node = node

/-- `std::list::erase`, for a node of the list. -/
def erase (list : List Wait) (node : ℕ) : Option (List Wait) :=
  if list.any (fun w => w.node = node) then some (list.filter fun w => w.node ≠ node) else none

/-- A node gets a timeout, in whichever list it is. -/
def setTimeout (node timeout : ℕ) (list : List Wait) : List Wait :=
  list.map fun w => if w.node = node then { w with timeout } else w

/-- The slot of a player who has a reference. -/
def slotOf (s : WaitingList) (player : Player) (node : ℕ) : Option ℕ :=
  if player.isPremium then (distance s.priorityWaitList node).map (· + 1)
  else (distance s.waitList node).map (s.priorityWaitList.length + · + 1)

/-- `WaitingList::addPlayerToList`. -/
def addPlayerToList (time : ℕ) (s : WaitingList) (player : Player) : Option WaitingList :=
  match s.playerReferences player.guid with
  | some (node, _) =>
    (slotOf s player node).map fun slot =>
      let timeout := time + getTimeout slot * 1000
      { s with
        playerReferences := Function.update s.playerReferences player.guid (some (node, slot))
        priorityWaitList := setTimeout node timeout s.priorityWaitList
        waitList := setTimeout node timeout s.waitList }
  | none =>
    let slot := s.priorityWaitList.length + if player.isPremium then 0 else s.waitList.length
    let w : Wait := ⟨s.nextNode, time + getTimeout (slot + 1) * 1000, player.guid⟩
    some {
      priorityWaitList := if player.isPremium then s.priorityWaitList ++ [w] else s.priorityWaitList
      waitList := if player.isPremium then s.waitList else s.waitList ++ [w]
      playerReferences := Function.update s.playerReferences player.guid (some (s.nextNode, slot + 1))
      nextNode := s.nextNode + 1 }

/-- The second part of `clientLogin`, for a player who stands in a list. -/
def letIn (maxPlayers online : ℕ) (s : WaitingList) (player : Player) : Option (Bool × WaitingList) :=
  match s.playerReferences player.guid with
  | none => none
  | some (node, slot) =>
    if online + slot ≤ maxPlayers then
      (erase s.waitList node).map fun waitList =>
        (true, { s with
          waitList
          playerReferences := Function.update s.playerReferences player.guid none })
    else some (false, s)

/-- `WaitingList::clientLogin`, with the number of players that are online. -/
def clientLogin (maxPlayers time online : ℕ) (s : WaitingList) (player : Player) :
    Option (Bool × WaitingList) :=
  if player.alwaysLogin then some (true, s)
  else if maxPlayers = 0 ∨ s.priorityWaitList = [] ∧ s.waitList = [] ∧ online < maxPlayers then some (true, s)
  else (addPlayerToList time (cleanup time s) player).bind fun s => letIn maxPlayers online s player

/-- `WaitingList::getClientSlot`. -/
def getClientSlot (s : WaitingList) (player : Player) : Option ℕ :=
  match s.playerReferences player.guid with
  | none => some 0
  | some (node, _) => slotOf s player node

/-- A call. -/
inductive Call where
  | clientLogin (time online : ℕ) (player : Player)
  | getClientSlot (player : Player)

/-- The state after a call, which is as it was when the call has no result. -/
def step (maxPlayers : ℕ) (s : WaitingList) : Call → WaitingList
  | .clientLogin time online player =>
    ((Waiting.clientLogin maxPlayers time online s player).map Prod.snd).getD s
  | .getClientSlot _ => s

/-! ## What calls are to do -/

/-- Each node in the lists has one reference, which leads to it, and there are no others. -/
structure Sound (s : WaitingList) : Prop where
  nodes : (s.waits.map Wait.node).Nodup
  refers : ∀ w ∈ s.waits, ∃ slot, s.playerReferences w.playerGUID = some (w.node, slot)
  referred : ∀ guid r, s.playerReferences guid = some r →
    ∃ w ∈ s.waits, w.playerGUID = guid ∧ w.node = r.1
  fresh : ∀ w ∈ s.waits, w.node < s.nextNode

/-- The entries ahead of a player: those before him in the list of his kind, and for a player who is
not premium all in the priority list. -/
def ahead (s : WaitingList) (player : Player) : ℕ :=
  let before (list : List Wait) := (list.takeWhile fun w => w.playerGUID ≠ player.guid).length
  if player.isPremium then before s.priorityWaitList else s.priorityWaitList.length + before s.waitList

/-- A call has a result, and answers true only to a player for whom and for those ahead of him there
is room. -/
def Fair (maxPlayers : ℕ) (s : WaitingList) : Call → Prop
  | .clientLogin time online player =>
    ∃ r, clientLogin maxPlayers time online s player = some r ∧
      (r.1 = true → player.alwaysLogin = false → online + ahead (cleanup time s) player < maxPlayers)
  | .getClientSlot player => (getClientSlot s player).isSome = true

/-- A player who waits does so in the list of his kind. -/
def InList (s : WaitingList) (player : Player) : Prop :=
  ∀ w ∈ s.waits, w.playerGUID = player.guid →
    if player.isPremium then w ∈ s.priorityWaitList else w ∈ s.waitList

/-- A player comes when he waits in the list of his kind, and a premium player only when there is no
room for him. -/
def Placed (maxPlayers : ℕ) (s : WaitingList) : Call → Prop
  | .clientLogin time online player =>
    player.alwaysLogin = true ∨ (s.priorityWaitList = [] ∧ s.waitList = [] ∧ online < maxPlayers) ∨
      InList (cleanup time s) player ∧
        (player.isPremium = true → maxPlayers ≤ online + ahead (cleanup time s) player)
  | .getClientSlot player => InList s player

/-! ## Sound lists -/

variable {s s' : WaitingList} {w v : Wait} {player : Player} {time maxPlayers online node : ℕ}

theorem sound_empty : Sound .empty where
  nodes := List.nodup_nil
  refers := nofun
  referred := nofun
  fresh := nofun

/-- Each player waits once. -/
theorem Sound.eq_of_guid (h : Sound s) (hw : w ∈ s.waits) (hv : v ∈ s.waits)
    (hguid : w.playerGUID = v.playerGUID) : w = v := by
  obtain ⟨slot, hslot⟩ := h.refers w hw
  obtain ⟨slot', hslot'⟩ := h.refers v hv
  rw [hguid, hslot'] at hslot
  have hnode : v.node = w.node := (Prod.mk.inj (Option.some.inj hslot)).1
  exact (List.inj_on_of_nodup_map h.nodes hw hv hnode.symm)

theorem Sound.node_iff (h : Sound s) (hw : w ∈ s.waits) (hv : v ∈ s.waits) :
    w.node = v.node ↔ w.playerGUID = v.playerGUID :=
  ⟨fun hnode => congrArg _ (List.inj_on_of_nodup_map h.nodes hw hv hnode),
    fun hguid => congrArg _ (h.eq_of_guid hw hv hguid)⟩

/-- The node that a reference leads to. -/
theorem Sound.of_reference (h : Sound s) {slot : ℕ} (hr : s.playerReferences player.guid = some (node, slot)) :
    ∃ w ∈ s.waits, w.playerGUID = player.guid ∧ w.node = node := h.referred _ _ hr

/-! ### Cleaning up -/

theorem cleanupList_snd (time : ℕ) (r : ℕ → Option (ℕ × ℕ)) (list : List Wait) :
    (cleanupList time r list).2 = list.filter fun w => ¬ w.timeout ≤ time := by
  induction list generalizing r with
  | nil => rfl
  | cons w list ih =>
    unfold cleanupList
    split_ifs with hold
    · rw [ih, List.filter_cons_of_neg (by simpa using hold)]
    · dsimp only
      rw [ih, List.filter_cons_of_pos (by simpa using hold)]

/-- The references of those who have waited too long are taken away. -/
theorem cleanupList_fst (time : ℕ) (r : ℕ → Option (ℕ × ℕ)) (list : List Wait) (guid : ℕ) :
    (cleanupList time r list).1 guid =
      if ∃ w ∈ list, w.timeout ≤ time ∧ w.playerGUID = guid then none else r guid := by
  induction list generalizing r with
  | nil => simp [cleanupList]
  | cons w list ih =>
    unfold cleanupList
    split_ifs with hold hin hin
    · rw [ih]
      split_ifs with hrest
      · rfl
      · obtain ⟨v, hv, hvold, hguid⟩ := hin
        rcases List.mem_cons.1 hv with rfl | hv
        · rw [← hguid, Function.update_self]
        · exact absurd ⟨v, hv, hvold, hguid⟩ hrest
    · rw [ih, if_neg fun ⟨v, hv, hrest⟩ => hin ⟨v, List.mem_cons_of_mem w hv, hrest⟩,
        Function.update_of_ne fun hguid => hin ⟨w, List.mem_cons_self, hold, hguid.symm⟩]
    · obtain ⟨v, hv, hvold, hguid⟩ := hin
      have hv' : v ∈ list := (List.mem_cons.1 hv).resolve_left fun e => hold (e ▸ hvold)
      exact (ih r).trans (if_pos ⟨v, hv', hvold, hguid⟩)
    · exact (ih r).trans (if_neg fun ⟨v, hv, hrest⟩ => hin ⟨v, List.mem_cons_of_mem w hv, hrest⟩)

theorem waits_cleanup (time : ℕ) (s : WaitingList) :
    (cleanup time s).waits = s.waits.filter fun w => ¬ w.timeout ≤ time := by
  simp only [WaitingList.waits, cleanup, cleanupList_snd, List.filter_append]

theorem playerReferences_cleanup (time : ℕ) (s : WaitingList) (guid : ℕ) :
    (cleanup time s).playerReferences guid =
      if ∃ w ∈ s.waits, w.timeout ≤ time ∧ w.playerGUID = guid then none else s.playerReferences guid := by
  simp only [cleanup, cleanupList_fst, WaitingList.waits, List.mem_append]
  split_ifs with h₁ h₂ h₃ h₃ h₃ <;> first | rfl | grind

/-- Nodes are taken away, with the references of their players. -/
theorem Sound.filter (h : Sound s) {keep : Wait → Bool} (hwaits : s'.waits = s.waits.filter keep)
    (hreferences : ∀ guid, s'.playerReferences guid =
      if ∃ w ∈ s.waits, keep w = false ∧ w.playerGUID = guid then none else s.playerReferences guid)
    (hnext : s'.nextNode = s.nextNode) : Sound s' where
  nodes := by
    rw [hwaits]
    exact h.nodes.sublist (List.filter_sublist.map _)
  refers w hw := by
    rw [hwaits] at hw
    obtain ⟨hin, hkept⟩ := List.mem_filter.1 hw
    rw [hreferences, if_neg]
    · exact h.refers w hin
    · rintro ⟨v, hv, hgone, hguid⟩
      rw [h.eq_of_guid hv hin hguid, hkept] at hgone
      exact nomatch hgone
  referred guid r hr := by
    rw [hreferences] at hr
    split_ifs at hr with hgone
    obtain ⟨w, hw, hguid, hnode⟩ := h.referred guid r hr
    refine ⟨w, ?_, hguid, hnode⟩
    rw [hwaits]
    refine List.mem_filter.2 ⟨hw, ?_⟩
    by_contra hkeep
    exact hgone ⟨w, hw, by simpa using hkeep, hguid⟩
  fresh w hw := by
    rw [hwaits] at hw
    rw [hnext]
    exact h.fresh w (List.mem_of_mem_filter hw)

/-- **Cleaning up** takes the references of just the nodes that it takes. -/
theorem Sound.cleanup (h : Sound s) (time : ℕ) : Sound (cleanup time s) :=
  h.filter (waits_cleanup time s) (fun guid => by simp [playerReferences_cleanup]) rfl

/-! ### Taking a place -/

/-- The distance to a node is the number of those before its player. -/
theorem distance_eq {list : List Wait} (hw : w ∈ list)
    (h : ∀ v ∈ list, v.node = w.node ↔ v.playerGUID = w.playerGUID) :
    distance list w.node = some (list.takeWhile fun v => v.playerGUID ≠ w.playerGUID).length := by
  unfold distance
  induction list with
  | nil => exact absurd hw List.not_mem_nil
  | cons v list ih =>
    rw [List.findIdx?_cons]
    by_cases hnode : v.node = w.node
    · have hguid := (h v List.mem_cons_self).1 hnode
      simp [hnode, hguid]
    · have hguid : v.playerGUID ≠ w.playerGUID := fun e => hnode ((h v List.mem_cons_self).2 e)
      have hin : w ∈ list := (List.mem_cons.1 hw).resolve_left fun e => hnode (congrArg _ e.symm)
      rw [if_neg (by simpa using hnode), ih hin fun u hu => h u (List.mem_cons_of_mem v hu),
        List.takeWhile_cons_of_pos (by simpa using hguid)]
      rfl

/-- The slot of a player who waits in the list of his kind. -/
theorem slotOf_eq (h : Sound s) (hin : InList s player) (hw : w ∈ s.waits)
    (hguid : w.playerGUID = player.guid) : slotOf s player w.node = some (ahead s player + 1) := by
  have hplace := hin w hw hguid
  unfold slotOf ahead
  split_ifs at hplace ⊢ with hpremium
  · rw [distance_eq hplace fun v hv => h.node_iff (List.mem_append_left _ hv) hw, hguid]
    rfl
  · rw [distance_eq hplace fun v hv => h.node_iff (List.mem_append_right _ hv) hw, hguid]
    rfl

theorem setTimeout_map {β : Type} (f : Wait → β) (hf : ∀ (w : Wait) (t : ℕ), f { w with timeout := t } = f w)
    (node timeout : ℕ) (list : List Wait) : (setTimeout node timeout list).map f = list.map f := by
  rw [setTimeout, List.map_map]
  refine List.map_congr_left fun w _ => ?_
  rw [Function.comp_apply]
  split_ifs
  · exact hf w timeout
  · rfl

theorem mem_setTimeout {timeout : ℕ} {list : List Wait} (hw : w ∈ setTimeout node timeout list) :
    ∃ v ∈ list, v.node = w.node ∧ v.playerGUID = w.playerGUID := by
  obtain ⟨v, hv, rfl⟩ := List.mem_map.1 hw
  refine ⟨v, hv, ?_⟩
  split_ifs <;> exact ⟨rfl, rfl⟩

theorem exists_setTimeout (node timeout : ℕ) {list : List Wait} (hw : w ∈ list) :
    ∃ v ∈ setTimeout node timeout list, v.node = w.node ∧ v.playerGUID = w.playerGUID := by
  refine ⟨_, List.mem_map_of_mem hw, ?_⟩
  split_ifs <;> exact ⟨rfl, rfl⟩

/-- A player who waits gets another timeout and slot. -/
theorem Sound.setTimeout (h : Sound s) (hw : w ∈ s.waits) (timeout slot : ℕ) :
    Sound { s with
      playerReferences := Function.update s.playerReferences w.playerGUID (some (w.node, slot))
      priorityWaitList := setTimeout w.node timeout s.priorityWaitList
      waitList := setTimeout w.node timeout s.waitList } := by
  have hwaits : Waiting.setTimeout w.node timeout s.priorityWaitList ++
      Waiting.setTimeout w.node timeout s.waitList = Waiting.setTimeout w.node timeout s.waits := by
    simp only [Waiting.setTimeout, WaitingList.waits, List.map_append]
  refine ⟨?_, fun u hu => ?_, fun guid r hr => ?_, fun u hu => ?_⟩
  · rw [WaitingList.waits, hwaits, setTimeout_map Wait.node fun _ _ => rfl]
    exact h.nodes
  · rw [WaitingList.waits, hwaits] at hu
    obtain ⟨u', hu', hnode', hguid'⟩ := mem_setTimeout hu
    rw [← hnode', ← hguid']
    dsimp only
    by_cases hself : u'.playerGUID = w.playerGUID
    · rw [hself, Function.update_self, h.eq_of_guid hu' hw hself]
      exact ⟨_, rfl⟩
    · rw [Function.update_of_ne hself]
      exact h.refers u' hu'
  · rw [WaitingList.waits, hwaits]
    have hold : ∃ u ∈ s.waits, u.playerGUID = guid ∧ u.node = r.1 := by
      dsimp only at hr
      by_cases hself : guid = w.playerGUID
      · subst hself
        rw [Function.update_self] at hr
        obtain rfl := Option.some.inj hr
        exact ⟨w, hw, rfl, rfl⟩
      · rw [Function.update_of_ne hself] at hr
        exact h.referred guid r hr
    obtain ⟨u, hu, huguid, hunode⟩ := hold
    obtain ⟨u', hu', hnode', hguid'⟩ := exists_setTimeout w.node timeout hu
    exact ⟨u', hu', hguid'.trans huguid, hnode'.trans hunode⟩
  · rw [WaitingList.waits, hwaits] at hu
    obtain ⟨u', hu', hnode', -⟩ := mem_setTimeout hu
    rw [← hnode']
    exact h.fresh u' hu'

/-- A player who has no reference does not wait. -/
theorem Sound.absent (h : Sound s) (hr : s.playerReferences player.guid = none) :
    ∀ u ∈ s.waits, u.playerGUID ≠ player.guid := by
  intro u hu hguid
  obtain ⟨slot, hslot⟩ := h.refers u hu
  rw [hguid, hr] at hslot
  exact nomatch hslot

/-- All others are ahead of a player who does not wait. -/
theorem ahead_of_absent (habsent : ∀ u ∈ s.waits, u.playerGUID ≠ player.guid) :
    ahead s player = s.priorityWaitList.length + if player.isPremium then 0 else s.waitList.length := by
  have hall : ∀ list : List Wait, (∀ u ∈ list, u ∈ s.waits) →
      (list.takeWhile fun u => u.playerGUID ≠ player.guid) = list := fun list hlist =>
    List.takeWhile_eq_self_iff.2 fun u hu => by simpa using habsent u (hlist u hu)
  unfold ahead
  dsimp only
  split_ifs
  · rw [hall _ fun u hu => List.mem_append_left _ hu, Nat.add_zero]
  · rw [hall _ fun u hu => List.mem_append_right _ hu]

/-- A new node of a player who does not wait. -/
theorem Sound.insert (h : Sound s) (habsent : ∀ u ∈ s.waits, u.playerGUID ≠ w.playerGUID)
    (hnode : w.node = s.nextNode) (slot : ℕ) {priorityWaitList waitList : List Wait}
    (hperm : (priorityWaitList ++ waitList).Perm (w :: s.waits)) : Sound ⟨priorityWaitList, waitList,
      Function.update s.playerReferences w.playerGUID (some (w.node, slot)), s.nextNode + 1⟩ := by
  refine ⟨?_, fun u hu => ?_, fun guid r hr => ?_, fun u hu => ?_⟩
  · refine ((hperm.map Wait.node).nodup_iff).2 (List.nodup_cons.2 ⟨fun hin => ?_, h.nodes⟩)
    obtain ⟨u, hu, hsame⟩ := List.mem_map.1 hin
    exact absurd (h.fresh u hu) (by rw [hsame, hnode]; exact lt_irrefl _)
  · dsimp only
    rcases List.mem_cons.1 (hperm.mem_iff.1 hu) with rfl | hu
    · exact ⟨slot, Function.update_self ..⟩
    · rw [Function.update_of_ne (habsent u hu)]
      exact h.refers u hu
  · dsimp only at hr
    by_cases hself : guid = w.playerGUID
    · subst hself
      rw [Function.update_self] at hr
      obtain rfl := Option.some.inj hr
      exact ⟨w, hperm.mem_iff.2 List.mem_cons_self, rfl, rfl⟩
    · rw [Function.update_of_ne hself] at hr
      obtain ⟨u, hu, huguid, hunode⟩ := h.referred guid r hr
      exact ⟨u, hperm.mem_iff.2 (List.mem_cons_of_mem _ hu), huguid, hunode⟩
  · rcases List.mem_cons.1 (hperm.mem_iff.1 hu) with rfl | hu
    · exact hnode.trans_lt (Nat.lt_succ_self _)
    · exact (h.fresh u hu).trans (Nat.lt_succ_self _)

/-- **A place in the list**: a player who waits keeps it, another gets the last one of his kind; his
slot is behind those ahead of him. -/
theorem addPlayerToList_spec (h : Sound s) (hin : InList s player) :
    ∃ s' w, addPlayerToList time s player = some s' ∧ Sound s' ∧
      s'.playerReferences player.guid = some (w.node, ahead s player + 1) ∧
      w.playerGUID = player.guid ∧ if player.isPremium then w ∈ s'.priorityWaitList else w ∈ s'.waitList := by
  cases hr : s.playerReferences player.guid with
  | some r =>
    obtain ⟨node, slot⟩ := r
    obtain ⟨w, hw, hguid, rfl⟩ := h.of_reference hr
    have hslot := slotOf_eq h hin hw hguid
    have hsound := h.setTimeout hw (time + getTimeout (ahead s player + 1) * 1000) (ahead s player + 1)
    rw [hguid] at hsound
    have hlist := hin w hw hguid
    split_ifs at hlist ⊢ with hpremium
    all_goals
      obtain ⟨v, hv, hnode, hsame⟩ :=
        exists_setTimeout w.node (time + getTimeout (ahead s player + 1) * 1000) hlist
      refine ⟨_, v, by simp [addPlayerToList, hr, hslot], hsound, ?_, hsame.trans hguid, hv⟩
      rw [hnode]
      exact Function.update_self ..
  | none =>
    have habsent := h.absent hr
    have hahead := ahead_of_absent habsent
    set w : Wait := ⟨s.nextNode, time + getTimeout (ahead s player + 1) * 1000, player.guid⟩ with hw
    have hperm : ((if player.isPremium then s.priorityWaitList ++ [w] else s.priorityWaitList) ++
        if player.isPremium then s.waitList else s.waitList ++ [w]).Perm (w :: s.waits) := by
      unfold WaitingList.waits
      split_ifs
      · rw [List.append_assoc]
        exact List.perm_middle
      · rw [← List.append_assoc]
        exact List.perm_append_singleton w _
    refine ⟨_, w, ?_, h.insert habsent rfl (ahead s player + 1) hperm, Function.update_self .., rfl, ?_⟩
    · simp [addPlayerToList, hr, hw, hahead]
    · dsimp only
      split_ifs <;> simp

/-- **Being let in**: a player of the list is taken from it when there is room for him and those
ahead. -/
theorem letIn_spec (h : Sound s) {slot : ℕ} (hw : w ∈ s.waits) (hguid : w.playerGUID = player.guid)
    (hr : s.playerReferences player.guid = some (w.node, slot))
    (hlist : online + slot ≤ maxPlayers → w ∈ s.waitList) :
    ∃ r, letIn maxPlayers online s player = some r ∧ Sound r.2 ∧ (r.1 = true → online + slot ≤ maxPlayers) := by
  simp only [letIn, hr]
  split_ifs with hroom
  · have hin := hlist hroom
    have herase : erase s.waitList w.node = some (s.waitList.filter fun v => v.node ≠ w.node) :=
      if_pos (List.any_eq_true.2 ⟨w, hin, by simp⟩)
    rw [herase]
    have hpriority : s.priorityWaitList.filter (fun v => v.node ≠ w.node) = s.priorityWaitList := by
      refine List.filter_eq_self.2 fun v hv => ?_
      have hnodes := h.nodes
      rw [WaitingList.waits, List.map_append] at hnodes
      have hne := List.disjoint_of_nodup_append hnodes (List.mem_map_of_mem hv)
      simp only [decide_eq_true_eq]
      exact fun e => hne (e ▸ List.mem_map_of_mem hin)
    have hwaits : s.priorityWaitList ++ s.waitList.filter (fun v => v.node ≠ w.node) =
        s.waits.filter fun v => v.node ≠ w.node := by
      rw [WaitingList.waits, List.filter_append, hpriority]
    refine ⟨_, rfl, h.filter hwaits (fun guid => ?_) rfl, fun _ => hroom⟩
    dsimp only
    by_cases hself : guid = player.guid
    · rw [hself, Function.update_self, if_pos ⟨w, hw, by simp, hguid⟩]
    · rw [Function.update_of_ne hself, if_neg]
      rintro ⟨v, hv, hnode, rfl⟩
      rw [(h.node_iff hv hw).1 (by simpa using hnode), hguid] at hself
      exact hself rfl
  · exact ⟨_, rfl, h, nofun⟩

/-! ## Runs -/

theorem clientLogin_spec (h : Sound s) (hmax : 0 < maxPlayers)
    (hplaced : Placed maxPlayers s (.clientLogin time online player)) :
    ∃ r, clientLogin maxPlayers time online s player = some r ∧ Sound r.2 ∧
      (r.1 = true → player.alwaysLogin = false → online + ahead (cleanup time s) player < maxPlayers) := by
  unfold clientLogin
  split_ifs with halways hfree
  · exact ⟨_, rfl, h, fun _ hnot => absurd halways (by simp [hnot])⟩
  · obtain hzero | ⟨hpriority, hwait, hroom⟩ := hfree
    · exact absurd hzero hmax.ne'
    · refine ⟨_, rfl, h, fun _ _ => ?_⟩
      have hnone : ahead (cleanup time s) player = 0 := by
        simp [ahead, cleanup, hpriority, hwait, cleanupList]
      rwa [hnone, Nat.add_zero]
  · obtain ⟨hin, hfull⟩ : InList (cleanup time s) player ∧
        (player.isPremium = true → maxPlayers ≤ online + ahead (cleanup time s) player) := by
      rcases hplaced with halways' | hfree' | hplace
      · exact absurd halways' halways
      · exact absurd (Or.inr hfree') hfree
      · exact hplace
    obtain ⟨s', w, hadd, hs', hr, hguid, hlist⟩ := addPlayerToList_spec (h.cleanup time) hin
    rw [hadd, Option.bind_some]
    have hmem : w ∈ s'.waits := by
      split_ifs at hlist
      · exact List.mem_append_left _ hlist
      · exact List.mem_append_right _ hlist
    have hwaits : online + (ahead (cleanup time s) player + 1) ≤ maxPlayers → w ∈ s'.waitList := by
      intro hroom
      have hnormal : ¬ player.isPremium = true := fun hpremium => by
        have := hfull hpremium
        omega
      rwa [if_neg hnormal] at hlist
    obtain ⟨r, hletIn, hr₂, hroom⟩ := letIn_spec hs' hmem hguid hr hwaits
    exact ⟨r, hletIn, hr₂, fun ht _ => Nat.lt_of_succ_le (hroom ht)⟩

theorem getClientSlot_isSome (h : Sound s) (hin : InList s player) : (getClientSlot s player).isSome = true := by
  unfold getClientSlot
  cases hr : s.playerReferences player.guid with
  | none => rfl
  | some r =>
    obtain ⟨node, slot⟩ := r
    obtain ⟨w, hw, hguid, rfl⟩ := h.of_reference hr
    simp only [slotOf_eq h hin hw hguid, Option.isSome_some]

/-- One call. -/
theorem Sound.step (h : Sound s) (hmax : 0 < maxPlayers) {c : Call} (hplaced : Placed maxPlayers s c) :
    Sound (step maxPlayers s c) ∧ Fair maxPlayers s c := by
  cases c with
  | clientLogin time online player =>
    obtain ⟨r, hlogin, hsound, hfair⟩ := clientLogin_spec h hmax hplaced
    exact ⟨by simpa [Waiting.step, hlogin] using hsound, r, hlogin, hfair⟩
  | getClientSlot player => exact ⟨h, getClientSlot_isSome h hplaced⟩

/-- **Waiting is fair** while every player waits in the list of his kind and none of the priority
list is let in: then in all states the references are those of the nodes, and every call has its
result and keeps the order. -/
theorem run_fair (hmax : 0 < maxPlayers) {l : List Call}
    (hl : Runs.Meets (step maxPlayers) (Placed maxPlayers) .empty l) :
    Sound (Runs.run (step maxPlayers) .empty l) ∧
      ∀ l₁ c l₂, l = l₁ ++ c :: l₂ → Fair maxPlayers (Runs.run (step maxPlayers) .empty l₁) c :=
  Runs.invariant_steps _ (fun _ _ hs hc => hs.step hmax hc) sound_empty hl

/-- Two normal players when one may be online: the first is let in when there is room. -/
theorem run_fair_two :
    let a : Player := ⟨1, false, false⟩
    let b : Player := ⟨2, false, false⟩
    let l : List Call := [.clientLogin 0 1 a, .clientLogin 1 1 b]
    Sound (Runs.run (step 1) .empty (l ++ [.clientLogin 2 0 a, .getClientSlot b])) ∧
      Fair 1 (Runs.run (step 1) .empty l) (.clientLogin 2 0 a) := by
  intro a b l
  have hmeets : Runs.Meets (step 1) (Placed 1) .empty (l ++ [.clientLogin 2 0 a, .getClientSlot b]) := by
    have hnormal : ∀ {s : WaitingList} {player : Player}, s.priorityWaitList = [] → player.isPremium = false →
        InList s player := by
      intro s player hempty hnormal w hw _
      rw [if_neg (by simp [hnormal])]
      rwa [WaitingList.waits, hempty] at hw
    exact ⟨.inr (.inr ⟨hnormal rfl rfl, nofun⟩), .inr (.inr ⟨hnormal rfl rfl, nofun⟩),
      .inr (.inr ⟨hnormal rfl rfl, nofun⟩), hnormal rfl rfl, trivial⟩
  have hrun := run_fair Nat.one_pos hmeets
  exact ⟨hrun.1, hrun.2 l _ [.getClientSlot b] rfl⟩

/-- A premium player for whom there is room again is to be erased from the list of the others. -/
theorem not_fair_premium :
    let a : Player := ⟨1, true, false⟩
    ¬ Fair 1 (Runs.run (step 1) .empty [.clientLogin 0 1 a]) (.clientLogin 1 0 a) := by
  rintro a ⟨r, hr, -⟩
  have hnone : clientLogin 1 1 0 (Runs.run (step 1) .empty [.clientLogin 0 1 a]) a = none := rfl
  rw [hnone] at hr
  exact nomatch hr

end TiabloServer.Waiting
