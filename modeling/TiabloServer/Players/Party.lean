import TiabloServer.Lib.Runs

/-!
# Parties

A party has a leader, members and invited players; a player has a party and the parties that invite
it (`party.cpp`, `player.cpp`). The requests of the players (`game.cpp`) edit both sides of these
links.

## Main definitions

* `Party.Linked` — both sides of the links agree.
* `Party.Settles` — a leader who leaves the last party member behind can disband the party.

## Main results

* `Party.step_linked` — a request keeps the links.
* `Party.run_linked` — and so does every run of requests.
-/

namespace TiabloServer.Party

/-! ## State -/

/-- `Party`: players are named by numbers. -/
structure Group where
  leader : Option ℕ
  memberList : List ℕ
  inviteList : List ℕ

namespace Group

/-- A party that is not in use. -/
def unused : Group := ⟨none, [], []⟩

def empty (g : Group) : Bool := g.memberList.isEmpty && g.inviteList.isEmpty

/-- A player that leads the party or is a member of it. -/
def Has (g : Group) (player : ℕ) : Prop := g.leader = some player ∨ player ∈ g.memberList

end Group

/-- The players and the parties. Parties are named by numbers, in the order in which they are
made. -/
structure State where
  /-- `m_party` of a player. -/
  party : ℕ → Option ℕ
  /-- `invitePartyList` of a player. -/
  invitePartyList : ℕ → List ℕ
  parties : ℕ → Group
  /-- The number of the next party. -/
  next : ℕ

def setParty (s : State) (player : ℕ) (newParty : Option ℕ) : State :=
  { s with party := Function.update s.party player newParty }

/-- A change of a party. -/
def edit (s : State) (p : ℕ) (f : Group → Group) : State :=
  { s with parties := Function.update s.parties p (f (s.parties p)) }

@[simp]
theorem edit_party (s : State) (p : ℕ) (f : Group → Group) : (edit s p f).party = s.party := rfl

@[simp]
theorem edit_invitePartyList (s : State) (p : ℕ) (f : Group → Group) :
    (edit s p f).invitePartyList = s.invitePartyList := rfl

@[simp]
theorem edit_next (s : State) (p : ℕ) (f : Group → Group) : (edit s p f).next = s.next := rfl

@[simp]
theorem edit_parties_self (s : State) (p : ℕ) (f : Group → Group) :
    (edit s p f).parties p = f (s.parties p) := Function.update_self ..

@[simp]
theorem setParty_parties (s : State) (player : ℕ) (newParty : Option ℕ) :
    (setParty s player newParty).parties = s.parties := rfl

def addPartyInvitation (s : State) (player p : ℕ) : State :=
  if p ∈ s.invitePartyList player then s
  else
    { s with
      invitePartyList := Function.update s.invitePartyList player (p :: s.invitePartyList player) }

def removePartyInvitation (s : State) (player p : ℕ) : State :=
  { s with
    invitePartyList := Function.update s.invitePartyList player
      ((s.invitePartyList player).filter fun q => q ≠ p) }

/-! ## Operations of a party -/

/-- `Party::create`, of the party `s.next`. -/
def create (s : State) (leader : ℕ) : State :=
  setParty { edit s s.next (fun g => { g with leader := some leader }) with next := s.next + 1 } leader
    (some s.next)

/-- `Party::disband`: `onDisband` is what the scripts answer. -/
def disband (s : State) (p : ℕ) (onDisband : Bool) : State :=
  if onDisband then
    match (s.parties p).leader with
    | none => s
    | some currentLeader =>
      let members := (s.parties p).memberList
      let invitees := (s.parties p).inviteList
      let s := setParty (edit s p fun g => { g with leader := none }) currentLeader none
      let s := invitees.foldl (fun s invitee => removePartyInvitation s invitee p) s
      let s := edit s p fun g => { g with inviteList := [] }
      let s := members.foldl (fun s member => setParty s member none) s
      edit s p fun g => { g with memberList := [] }
  else s

/-- `Party::passPartyLeadership`. -/
def passPartyLeadership (s : State) (p player : ℕ) : State :=
  match (s.parties p).leader with
  | none => s
  | some leader =>
    if leader = player ∨ s.party player ≠ some p then s
    else edit s p fun g =>
      { g with leader := some player, memberList := leader :: g.memberList.erase player }

/-- A leader who leaves: nobody is there to lead the party. -/
def missingLeader (g : Group) : Bool :=
  g.memberList.isEmpty || (g.memberList.length == 1 && g.inviteList.isEmpty)

/-- The leadership goes to the first member, whose entry is never null. -/
def passToFront (s : State) (p : ℕ) : State :=
  match (s.parties p).memberList with
  | [] => s
  | newLeader :: _ => passPartyLeadership s p newLeader

/-- A player leaves the member list. -/
def dropMember (s : State) (p player : ℕ) : State :=
  setParty (edit s p fun g => { g with memberList := g.memberList.erase player }) player none

/-- `Party::leaveParty`: `onLeave` and `onDisband` are what the scripts answer. -/
def leaveParty (s : State) (p player : ℕ) (onLeave onDisband : Bool) : State :=
  match (s.parties p).leader with
  | none => s
  | some leader =>
    if s.party player ≠ some p ∧ leader ≠ player then s
    else if onLeave then
      let missing := decide (leader = player) && missingLeader (s.parties p)
      let s := if leader = player ∧ missing = false then passToFront s p else s
      let s := dropMember s p player
      if missing || (s.parties p).empty then disband s p onDisband else s
    else s

/-- `Party::joinParty`: `onJoin` is what the scripts answer. -/
def joinParty (s : State) (p player : ℕ) (onJoin : Bool) : State :=
  match (s.parties p).leader with
  | none => s
  | some _ =>
    if onJoin = true ∧ player ∈ (s.parties p).inviteList then
      let s := edit s p fun g => { g with inviteList := g.inviteList.erase player }
      let s := setParty s player (some p)
      let s := edit s p fun g => { g with memberList := g.memberList ++ [player] }
      removePartyInvitation s player p
    else s

/-- `Party::removeInvite`, also from the player. -/
def removeInvite (s : State) (p player : ℕ) (onDisband : Bool) : State :=
  match (s.parties p).leader with
  | none => s
  | some _ =>
    if player ∈ (s.parties p).inviteList then
      let s := edit s p fun g => { g with inviteList := g.inviteList.erase player }
      let s := removePartyInvitation s player p
      if (s.parties p).empty then disband s p onDisband else s
    else s

/-- `Party::revokeInvitation`. -/
def revokeInvitation (s : State) (p player : ℕ) (onDisband : Bool) : State :=
  match (s.parties p).leader with
  | none => s
  | some _ => removeInvite s p player onDisband

/-- `Party::invitePlayer`. -/
def invitePlayer (s : State) (p player : ℕ) : State :=
  match (s.parties p).leader with
  | none => s
  | some _ =>
    if player ∈ (s.parties p).inviteList then s
    else
      let s := edit s p fun g => { g with inviteList := g.inviteList ++ [player] }
      addPartyInvitation s player p

/-! ## Requests -/

/-- `Player::isInviting`. -/
def isInviting (s : State) (player invited : ℕ) : Bool :=
  match s.party player with
  | none => false
  | some p => decide ((s.parties p).leader = some player) && decide (invited ∈ (s.parties p).inviteList)

/-- `Player::isPartner`. -/
def isPartner (s : State) (player other : ℕ) : Bool :=
  match s.party player with
  | none => false
  | some p => decide (other ≠ player) && decide (s.party other = some p)

/-- A request of a player who is in the game, with the answers of the scripts. -/
inductive Step where
  | playerInviteToParty (player invited : ℕ)
  | playerJoinParty (player leader : ℕ) (onJoin : Bool)
  | playerRevokePartyInvitation (player invited : ℕ) (onDisband : Bool)
  | playerPassPartyLeadership (player newLeader : ℕ)
  /-- `inFight` is the test of the handler for a player who may not leave now. -/
  | playerLeaveParty (player : ℕ) (inFight onLeave onDisband : Bool)

/-- `Game::playerInviteToParty`. -/
def playerInviteToParty (s : State) (player invited : ℕ) : State :=
  if player = invited ∨ isInviting s invited player = true ∨ s.party invited ≠ none then s
  else
    match s.party player with
    | none => invitePlayer (create s player) s.next invited
    | some p => if (s.parties p).leader ≠ some player then s else invitePlayer s p invited

/-- `Game::playerJoinParty`. -/
def playerJoinParty (s : State) (player leader : ℕ) (onJoin : Bool) : State :=
  if isInviting s leader player then
    match s.party leader with
    | none => s
    | some p =>
      if (s.parties p).leader ≠ some leader ∨ s.party player ≠ none then s
      else joinParty s p player onJoin
  else s

/-- `Game::playerRevokePartyInvitation`. -/
def playerRevokePartyInvitation (s : State) (player invited : ℕ) (onDisband : Bool) : State :=
  match s.party player with
  | none => s
  | some p =>
    if (s.parties p).leader = some player ∧ isInviting s player invited = true then
      revokeInvitation s p invited onDisband
    else s

/-- `Game::playerPassPartyLeadership`. -/
def playerPassPartyLeadership (s : State) (player newLeader : ℕ) : State :=
  match s.party player with
  | none => s
  | some p =>
    if (s.parties p).leader = some player ∧ isPartner s player newLeader = true then
      passPartyLeadership s p newLeader
    else s

/-- `Game::playerLeaveParty`. -/
def playerLeaveParty (s : State) (player : ℕ) (inFight onLeave onDisband : Bool) : State :=
  match s.party player with
  | none => s
  | some p => if inFight then s else leaveParty s p player onLeave onDisband

/-- The state after a request. -/
def step (s : State) : Step → State
  | .playerInviteToParty player invited => playerInviteToParty s player invited
  | .playerJoinParty player leader onJoin => playerJoinParty s player leader onJoin
  | .playerRevokePartyInvitation player invited onDisband =>
    playerRevokePartyInvitation s player invited onDisband
  | .playerPassPartyLeadership player newLeader => playerPassPartyLeadership s player newLeader
  | .playerLeaveParty player inFight onLeave onDisband =>
    playerLeaveParty s player inFight onLeave onDisband

/-- No parties. -/
def init : State := ⟨fun _ => none, fun _ => [], fun _ => .unused, 0⟩

/-! ## Links -/

/-- Both sides of the links agree. -/
structure Linked (s : State) : Prop where
  /-- A player's party has a leader, and the player leads it or is one of its members once. -/
  party : ∀ player p, s.party player = some p → ∃ leader, (s.parties p).leader = some leader ∧
    (leader = player ∨ (s.parties p).memberList.count player = 1)
  leader : ∀ p leader, (s.parties p).leader = some leader → leader ∉ (s.parties p).memberList
  unique : ∀ player p q, (s.parties p).Has player → (s.parties q).Has player → p = q
  invited : ∀ player p, p ∈ s.invitePartyList player ↔ player ∈ (s.parties p).inviteList

/-- The scripts let a leader disband a party that nobody is there to lead. -/
def Settles (s : State) : Step → Prop
  | .playerLeaveParty player inFight onLeave onDisband =>
    ∀ p, s.party player = some p → (s.parties p).leader = some player →
      missingLeader (s.parties p) = true → inFight = false → onLeave = true → onDisband = true
  | _ => True

/-- A party in which nobody occurs twice, and which has members only under a leader. -/
structure Group.Tidy (g : Group) : Prop where
  led : g.leader = none → g.memberList = []
  leader : ∀ leader, g.leader = some leader → leader ∉ g.memberList
  members : g.memberList.Nodup
  invitees : g.inviteList.Nodup

/-- What holds of the players and the parties after every request. -/
structure Inv (s : State) : Prop where
  has : ∀ player p, s.party player = some p ↔ (s.parties p).Has player
  tidy : ∀ p, (s.parties p).Tidy
  invited : ∀ player p, p ∈ s.invitePartyList player ↔ player ∈ (s.parties p).inviteList
  fresh : ∀ p, s.next ≤ p → s.parties p = .unused

theorem Inv.linked {s : State} (h : Inv s) : Linked s := by
  refine ⟨fun player p hparty => ?_, fun p => (h.tidy p).leader, fun player p q hp hq => ?_, h.invited⟩
  · rcases (h.has player p).1 hparty with hleader | hmember
    · exact ⟨player, hleader, Or.inl rfl⟩
    · cases hleader : (s.parties p).leader with
      | none =>
        rw [(h.tidy p).led hleader] at hmember
        exact absurd hmember List.not_mem_nil
      | some leader =>
        exact ⟨leader, rfl, Or.inr (List.count_eq_one_of_mem (h.tidy p).members hmember)⟩
  · exact Option.some.inj (((h.has player p).2 hp).symm.trans ((h.has player q).2 hq))

theorem inv_init : Inv init := by
  refine ⟨fun player p => ?_, fun p => ⟨fun _ => rfl, fun _ _ => List.not_mem_nil, List.nodup_nil,
    List.nodup_nil⟩, fun player p => ?_, fun p _ => rfl⟩
  · simp [init, Group.Has, Group.unused]
  · simp [init, Group.unused]

/-! ## Changes of one party -/

variable {s s' : State}

/-- **A change of one party** keeps the links of the others. -/
theorem Inv.change (h : Inv s) {p : ℕ} {g : Group} (hparties : s'.parties = Function.update s.parties p g)
    (hnext : s.next ≤ s'.next) (hfresh : s'.next ≤ p → g = .unused) (htidy : g.Tidy)
    (hhas : ∀ player, s'.party player = some p ↔ g.Has player)
    (hparty : ∀ player q, q ≠ p → (s'.party player = some q ↔ s.party player = some q))
    (hinvited : ∀ player, p ∈ s'.invitePartyList player ↔ player ∈ g.inviteList) (hinvitation : ∀ player q, q ≠ p →
      (q ∈ s'.invitePartyList player ↔ q ∈ s.invitePartyList player)) : Inv s' := by
  refine ⟨fun player q => ?_, fun q => ?_, fun player q => ?_, fun q hq => ?_⟩ <;> rw [hparties]
  · by_cases hqp : q = p
    · rw [hqp, Function.update_self]
      exact hhas player
    · rw [Function.update_of_ne hqp, hparty player q hqp]
      exact h.has player q
  · rw [Function.update_apply]
    split_ifs
    · exact htidy
    · exact h.tidy q
  · by_cases hqp : q = p
    · rw [hqp, Function.update_self]
      exact hinvited player
    · rw [Function.update_of_ne hqp, hinvitation player q hqp]
      exact h.invited player q
  · rw [Function.update_apply]
    split_ifs with hqp
    · exact hfresh (hqp ▸ hq)
    · exact h.fresh q (hnext.trans hq)

/-- A party that is in use has been made. -/
theorem Inv.lt_next (h : Inv s) {p leader : ℕ} (hleader : (s.parties p).leader = some leader) : p < s.next := by
  by_contra hnot
  rw [h.fresh p (not_lt.1 hnot)] at hleader
  cases hleader

/-! ## Disbanding -/

theorem foldl_removePartyInvitation (s : State) (p : ℕ) (l : List ℕ) :
    l.foldl (fun s invitee => removePartyInvitation s invitee p) s =
      { s with
        invitePartyList := fun player =>
          if player ∈ l then (s.invitePartyList player).filter fun q => q ≠ p
          else s.invitePartyList player } := by
  induction l generalizing s with
  | nil => simp
  | cons invitee l ih =>
    rw [List.foldl_cons, ih, removePartyInvitation]
    congr 1
    funext player
    dsimp only
    rw [Function.update_apply]
    by_cases hplayer : player = invitee
    · subst hplayer
      simp
    · simp [hplayer]

theorem foldl_setParty (s : State) (l : List ℕ) :
    l.foldl (fun s member => setParty s member none) s =
      { s with party := fun player => if player ∈ l then none else s.party player } := by
  induction l generalizing s with
  | nil => simp
  | cons member l ih =>
    rw [List.foldl_cons, ih, setParty]
    congr 1
    funext player
    dsimp only
    rw [Function.update_apply]
    by_cases hplayer : player = member
    · subst hplayer
      simp
    · simp [hplayer]

/-- A party that is disbanded is no longer in use, and its players and invitees are free of it. -/
theorem disband_eq {p leader : ℕ} (hleader : (s.parties p).leader = some leader) :
    disband s p true =
      { party := fun player =>
          if player ∈ (s.parties p).memberList ∨ player = leader then none else s.party player
        invitePartyList := fun player =>
          if player ∈ (s.parties p).inviteList then (s.invitePartyList player).filter fun q => q ≠ p
          else s.invitePartyList player
        parties := Function.update s.parties p .unused
        next := s.next } := by
  rw [disband, if_pos rfl, hleader]
  dsimp only
  rw [foldl_removePartyInvitation, foldl_setParty]
  simp only [edit, setParty, Function.update_idem, Function.update_self, State.mk.injEq, and_true,
    true_and]
  refine ⟨?_, rfl⟩
  funext player
  rw [Function.update_apply]
  by_cases hmember : player ∈ (s.parties p).memberList
  · simp [hmember]
  · simp [hmember]

/-- A party without members and invitees. -/
theorem tidy_of_nil (leader : Option ℕ) : Group.Tidy ⟨leader, [], []⟩ :=
  ⟨fun _ => rfl, fun _ _ => List.not_mem_nil, List.nodup_nil, List.nodup_nil⟩

theorem inv_disband (h : Inv s) (p : ℕ) (onDisband : Bool) : Inv (disband s p onDisband) := by
  cases onDisband with
  | false => exact h
  | true =>
    cases hleader : (s.parties p).leader with
    | none =>
      rw [disband, if_pos rfl, hleader]
      exact h
    | some leader =>
      rw [disband_eq hleader]
      have hhas : ∀ player, s.party player = some p ↔
          player ∈ (s.parties p).memberList ∨ player = leader := by
        intro player
        rw [h.has, Group.Has, hleader, Option.some_inj, or_comm, eq_comm (a := leader)]
      refine h.change (p := p) rfl le_rfl (fun _ => rfl) (tidy_of_nil none) (fun player => ?_)
        (fun player q hqp => ?_) (fun player => ?_) (fun player q hqp => ?_) <;> dsimp only
      · have hplayer := hhas player
        simp only [Group.Has, Group.unused, List.not_mem_nil, or_false, reduceCtorEq, iff_false]
        split_ifs with hp
        · simp
        · exact fun heq => hp (hplayer.1 heq)
      · have hplayer := hhas player
        split_ifs with hp
        · simp [hplayer.2 hp, Ne.symm hqp]
        · rfl
      · simp only [Group.unused, List.not_mem_nil, iff_false]
        have hinvited := h.invited player p
        split_ifs with hp <;> simp_all
      · split_ifs
        · simp [hqp]
        · rfl

/-! ## The other operations -/

theorem inv_create (h : Inv s) {leader : ℕ} (hparty : s.party leader = none) : Inv (create s leader) := by
  have hunused : s.parties s.next = .unused := h.fresh _ le_rfl
  refine h.change (p := s.next) (g := ⟨some leader, [], []⟩) ?_ (Nat.le_succ _)
    (fun hle => absurd hle (Nat.not_succ_le_self _)) (tidy_of_nil _) (fun player => ?_)
    (fun player q hqp => ?_) (fun player => ?_) (fun player q hqp => Iff.rfl)
  · simp only [create, setParty, edit, hunused]
    rfl
  · have hnot := h.has player s.next
    rw [hunused] at hnot
    simp only [create, setParty, edit, Function.update_apply, Group.Has, List.not_mem_nil, or_false,
      Option.some_inj]
    simp only [Group.Has, Group.unused, List.not_mem_nil, or_false, reduceCtorEq, iff_false] at hnot
    grind
  · simp only [create, setParty, edit, Function.update_apply]
    grind
  · have hnot := h.invited player s.next
    rw [hunused] at hnot
    exact hnot

theorem nodup_append_singleton {l : List ℕ} (hl : l.Nodup) {player : ℕ} (h : player ∉ l) :
    (l ++ [player]).Nodup := by
  rw [← List.concat_eq_append]
  exact hl.concat h

theorem inv_invitePlayer (h : Inv s) (p player : ℕ) : Inv (invitePlayer s p player) := by
  rw [invitePlayer]
  cases hleader : (s.parties p).leader with
  | none => exact h
  | some leader =>
    dsimp only
    split_ifs with hinvited
    · exact h
    · have htidy := h.tidy p
      have hnot : p ∉ s.invitePartyList player := by rwa [h.invited]
      rw [addPartyInvitation, edit_invitePartyList, if_neg hnot]
      refine h.change (p := p)
        (g := { s.parties p with inviteList := (s.parties p).inviteList ++ [player] }) rfl le_rfl
        (fun hle => absurd hle (not_le.2 (h.lt_next hleader)))
        ⟨htidy.led, htidy.leader, htidy.members, ?_⟩ (fun other => h.has other p)
        (fun _ _ _ => Iff.rfl) (fun other => ?_) (fun other q hqp => ?_)
      · exact nodup_append_singleton htidy.invitees hinvited
      · have hother := h.invited other p
        simp only [Function.update_apply, List.mem_append, List.mem_singleton]
        grind
      · simp only [Function.update_apply]
        grind

theorem inv_joinParty (h : Inv s) {p player : ℕ} (hparty : s.party player = none) (onJoin : Bool) :
    Inv (joinParty s p player onJoin) := by
  rw [joinParty]
  cases hleader : (s.parties p).leader with
  | none => exact h
  | some leader =>
    dsimp only
    split_ifs with hjoin
    · have htidy := h.tidy p
      have hnot : ¬ (s.parties p).Has player := by
        rw [← h.has, hparty]
        simp
      rw [Group.Has, not_or] at hnot
      refine h.change (p := p)
        (g := ⟨some leader, (s.parties p).memberList ++ [player], (s.parties p).inviteList.erase player⟩)
        ?_ le_rfl (fun hle => absurd hle (not_le.2 (h.lt_next hleader)))
        ⟨fun hnone => (by cases hnone), fun l hl => ?_, nodup_append_singleton htidy.members hnot.2,
          htidy.invitees.erase player⟩ (fun other => ?_) (fun other q hqp => ?_) (fun other => ?_)
        (fun other q hqp => ?_)
      · simp [removePartyInvitation, setParty, edit, hleader]
      · have hl' := htidy.leader l (hleader.trans hl)
        simp only [List.mem_append, List.mem_singleton]
        grind
      · have hother := h.has other p
        simp only [removePartyInvitation, setParty, edit, Function.update_apply, Group.Has,
          List.mem_append, List.mem_singleton, hleader] at hother ⊢
        grind
      · simp only [removePartyInvitation, setParty, edit, Function.update_apply]
        grind
      · have hother := h.invited other p
        simp only [removePartyInvitation, setParty, edit, Function.update_apply,
          htidy.invitees.mem_erase_iff]
        grind
      · simp only [removePartyInvitation, setParty, edit, Function.update_apply]
        grind
    · exact h

theorem inv_removeInvite (h : Inv s) (p player : ℕ) (onDisband : Bool) :
    Inv (removeInvite s p player onDisband) := by
  rw [removeInvite]
  cases hleader : (s.parties p).leader with
  | none => exact h
  | some leader =>
    dsimp only
    by_cases hinvited : player ∈ (s.parties p).inviteList
    · rw [if_pos hinvited]
      have htidy := h.tidy p
      have hremoved : Inv (removePartyInvitation
          (edit s p fun g => { g with inviteList := g.inviteList.erase player }) player p) := by
        refine h.change (p := p)
          (g := { s.parties p with inviteList := (s.parties p).inviteList.erase player }) rfl le_rfl
          (fun hle => absurd hle (not_le.2 (h.lt_next hleader)))
          ⟨htidy.led, htidy.leader, htidy.members, htidy.invitees.erase player⟩
          (fun other => h.has other p) (fun _ _ _ => Iff.rfl) (fun other => ?_) (fun other q hqp => ?_)
        · have hother := h.invited other p
          simp only [removePartyInvitation, edit, Function.update_apply, htidy.invitees.mem_erase_iff]
          grind
        · simp only [removePartyInvitation, edit, Function.update_apply]
          grind
      split_ifs
      · exact inv_disband hremoved p onDisband
      · exact hremoved
    · rw [if_neg hinvited]
      exact h

theorem inv_revokeInvitation (h : Inv s) (p player : ℕ) (onDisband : Bool) :
    Inv (revokeInvitation s p player onDisband) := by
  rw [revokeInvitation]
  cases (s.parties p).leader with
  | none => exact h
  | some leader => exact inv_removeInvite h p player onDisband

/-- A new leader changes places with the old one. -/
theorem passPartyLeadership_eq {p leader player : ℕ} (hleader : (s.parties p).leader = some leader)
    (hne : leader ≠ player) (hparty : s.party player = some p) :
    passPartyLeadership s p player = edit s p fun g =>
      { g with leader := some player, memberList := leader :: g.memberList.erase player } := by
  rw [passPartyLeadership, hleader]
  exact if_neg (not_or.2 ⟨hne, not_not.2 hparty⟩)

theorem inv_passPartyLeadership (h : Inv s) (p player : ℕ) : Inv (passPartyLeadership s p player) := by
  cases hleader : (s.parties p).leader with
  | none =>
    rw [passPartyLeadership, hleader]
    exact h
  | some leader =>
    by_cases hpass : leader = player ∨ s.party player ≠ some p
    · rw [passPartyLeadership, hleader]
      dsimp only
      rw [if_pos hpass]
      exact h
    · rw [not_or, not_not] at hpass
      rw [passPartyLeadership_eq hleader hpass.1 hpass.2]
      have htidy := h.tidy p
      have hnot := htidy.leader leader hleader
      have hmember : player ∈ (s.parties p).memberList := by
        have hhas := (h.has player p).1 hpass.2
        rw [Group.Has, hleader, Option.some_inj] at hhas
        exact hhas.resolve_left hpass.1
      refine h.change (p := p)
        (g := ⟨some player, leader :: (s.parties p).memberList.erase player, (s.parties p).inviteList⟩)
        rfl le_rfl (fun hle => absurd hle (not_le.2 (h.lt_next hleader)))
        ⟨fun hnone => (by cases hnone), fun l hl => ?_, ?_, htidy.invitees⟩ (fun other => ?_)
        (fun _ _ _ => Iff.rfl) (fun other => h.invited other p) (fun _ _ _ => Iff.rfl)
      · have hl' := Option.some.inj hl
        simp only [List.mem_cons, htidy.members.mem_erase_iff]
        grind
      · rw [List.nodup_cons, htidy.members.mem_erase_iff]
        exact ⟨fun hmem => hnot hmem.2, htidy.members.erase player⟩
      · have hother := h.has other p
        simp only [Group.Has, hleader, List.mem_cons, htidy.members.mem_erase_iff] at hother ⊢
        simp only [edit_party]
        grind

/-- A member that leaves is no longer in the list, and has no party. -/
theorem inv_dropMember (h : Inv s) {p player : ℕ} (hmember : player ∈ (s.parties p).memberList) :
    Inv (dropMember s p player) := by
  have htidy := h.tidy p
  have hparty : s.party player = some p := (h.has player p).2 (Or.inr hmember)
  cases hleader : (s.parties p).leader with
  | none =>
    rw [htidy.led hleader] at hmember
    exact absurd hmember List.not_mem_nil
  | some leader =>
    have hnot := htidy.leader leader hleader
    refine h.change (p := p)
      (g := { s.parties p with memberList := (s.parties p).memberList.erase player }) rfl le_rfl
      (fun hle => absurd hle (not_le.2 (h.lt_next hleader)))
      ⟨fun hnone => ?_, fun l hl => ?_, htidy.members.erase player, htidy.invitees⟩ (fun other => ?_)
      (fun other q hqp => ?_) (fun other => h.invited other p) (fun _ _ _ => Iff.rfl)
    · rw [hleader] at hnone
      cases hnone
    · exact fun hmem => htidy.leader l hl (List.mem_of_mem_erase hmem)
    · have hother := h.has other p
      simp only [dropMember, setParty, edit_party, Function.update_apply, Group.Has, hleader,
        htidy.members.mem_erase_iff] at hother ⊢
      grind
    · simp only [dropMember, setParty, edit_party, Function.update_apply]
      grind

/-- A leader who leaves nobody to lead the party disbands it. -/
theorem leaveParty_eq_disband (h : Inv s) {p player : ℕ} (hleader : (s.parties p).leader = some player)
    (hmissing : missingLeader (s.parties p) = true) : leaveParty s p player true true = disband s p true := by
  have hnot := (h.tidy p).leader player hleader
  have hdrop : ((dropMember s p player).parties p) = s.parties p := by
    rw [dropMember, setParty_parties, edit_parties_self, List.erase_of_not_mem hnot]
  rw [leaveParty, hleader]
  simp only [hmissing, ne_eq, not_true_eq_false, and_false, if_false, if_true, decide_true,
    Bool.and_self, Bool.true_eq_false, Bool.true_or]
  rw [disband_eq (hdrop ▸ hleader), disband_eq hleader, hdrop]
  congr 1
  · funext other
    simp only [dropMember, setParty, edit_party, Function.update_apply]
    split_ifs with hother heq
    · rfl
    · exact absurd (Or.inr heq) hother
    · rfl
  · simp only [dropMember, setParty_parties, edit, Function.update_idem]

/-- A leader hands the party to the first member, and is a member then. -/
theorem inv_passToFront (h : Inv s) {p player : ℕ} (hleader : (s.parties p).leader = some player)
    (hmissing : missingLeader (s.parties p) = false) :
    Inv (passToFront s p) ∧ player ∈ ((passToFront s p).parties p).memberList := by
  rw [passToFront]
  cases hmembers : (s.parties p).memberList with
  | nil =>
    rw [missingLeader, hmembers] at hmissing
    cases hmissing
  | cons newLeader rest =>
    have hmember : newLeader ∈ (s.parties p).memberList := hmembers ▸ List.mem_cons_self
    have hne : player ≠ newLeader := by
      rintro rfl
      exact (h.tidy p).leader player hleader hmember
    refine ⟨inv_passPartyLeadership h p newLeader, ?_⟩
    dsimp only
    rw [passPartyLeadership_eq hleader hne ((h.has newLeader p).2 (Or.inr hmember)), edit_parties_self]
    exact List.mem_cons_self

theorem inv_leaveParty (h : Inv s) {p player : ℕ} {onLeave onDisband : Bool}
    (hsettles : (s.parties p).leader = some player → missingLeader (s.parties p) = true →
      onLeave = true → onDisband = true) : Inv (leaveParty s p player onLeave onDisband) := by
  by_cases hmissing : (s.parties p).leader = some player ∧ missingLeader (s.parties p) = true ∧
      onLeave = true
  · obtain ⟨hleader, hmissing, rfl⟩ := hmissing
    rw [hsettles hleader hmissing rfl, leaveParty_eq_disband h hleader hmissing]
    exact inv_disband h p true
  · rw [leaveParty]
    cases hleader : (s.parties p).leader with
    | none => exact h
    | some leader =>
      dsimp only
      by_cases hin : s.party player ≠ some p ∧ leader ≠ player
      · rw [if_pos hin]
        exact h
      · rw [if_neg hin]
        cases onLeave with
        | false => exact h
        | true =>
          rw [if_pos rfl]
          rw [hleader, Option.some_inj] at hmissing
          have hmissing' : (decide (leader = player) && missingLeader (s.parties p)) = false := by
            by_contra hcontra
            rw [Bool.not_eq_false, Bool.and_eq_true, decide_eq_true_eq] at hcontra
            exact hmissing ⟨hcontra.1, hcontra.2, rfl⟩
          rw [hmissing']
          simp only [and_true, Bool.false_or]
          -- the player is a member when it leaves, also if it has led the party
          have hdropped : Inv (dropMember (if leader = player then passToFront s p else s) p player) := by
            split_ifs with heq
            · subst heq
              rw [decide_eq_true rfl, Bool.true_and] at hmissing'
              obtain ⟨hpassed, hmember⟩ := inv_passToFront h hleader hmissing'
              exact inv_dropMember hpassed hmember
            · have hparty : s.party player = some p := by
                by_contra hparty
                exact hin ⟨hparty, heq⟩
              have hhas := (h.has player p).1 hparty
              rw [Group.Has, hleader, Option.some_inj] at hhas
              exact inv_dropMember h (hhas.resolve_left heq)
          revert hdropped
          generalize dropMember (if leader = player then passToFront s p else s) p player = s'
          intro hdropped
          split_ifs
          · exact inv_disband hdropped p onDisband
          · exact hdropped

/-! ## Requests -/

/-- **A request** keeps the links, unless it leaves a party that nobody leads. -/
theorem step_inv (h : Inv s) {a : Step} (ha : Settles s a) : Inv (step s a) := by
  cases a with
  | playerInviteToParty player invited =>
    rw [step, playerInviteToParty]
    split_ifs
    · exact h
    · cases hparty : s.party player with
      | none => exact inv_invitePlayer (inv_create h hparty) _ _
      | some p =>
        dsimp only
        split_ifs
        · exact h
        · exact inv_invitePlayer h p invited
  | playerJoinParty player leader onJoin =>
    rw [step, playerJoinParty]
    split_ifs
    · cases s.party leader with
      | none => exact h
      | some p =>
        dsimp only
        split_ifs with hjoin
        · exact h
        · rw [not_or, not_not, not_not] at hjoin
          exact inv_joinParty h hjoin.2 onJoin
    · exact h
  | playerRevokePartyInvitation player invited onDisband =>
    rw [step, playerRevokePartyInvitation]
    cases s.party player with
    | none => exact h
    | some p =>
      dsimp only
      split_ifs
      · exact inv_revokeInvitation h p invited onDisband
      · exact h
  | playerPassPartyLeadership player newLeader =>
    rw [step, playerPassPartyLeadership]
    cases s.party player with
    | none => exact h
    | some p =>
      dsimp only
      split_ifs
      · exact inv_passPartyLeadership h p newLeader
      · exact h
  | playerLeaveParty player inFight onLeave onDisband =>
    rw [step, playerLeaveParty]
    cases hparty : s.party player with
    | none => exact h
    | some p =>
      dsimp only
      cases inFight with
      | true => exact h
      | false =>
        exact inv_leaveParty h fun hleader hmissing hleave =>
          ha p hparty hleader hmissing rfl hleave

/-- **A run of requests** keeps the links, if every leader who leaves nobody to lead the party may
disband it. -/
theorem run_linked {l : List Step} (hl : Runs.Meets step Settles init l) :
    Linked (Runs.run step init l) :=
  (Runs.invariant (P := Inv) step (fun _ _ h ha => step_inv h ha) inv_init hl).linked

/-- Two players in a party, of which the leader leaves. -/
def leaving (onDisband : Bool) : List Step :=
  [.playerInviteToParty 1 2, .playerJoinParty 2 1 true, .playerLeaveParty 1 false true onDisband]

theorem run_linked_leaving : Linked (Runs.run step init (leaving true)) :=
  run_linked ⟨trivial, trivial, fun _ _ _ _ _ _ => rfl, trivial⟩

/-- A leader who may not disband the party leaves it all the same, and leads the next one too. -/
theorem not_run_linked : ¬ ∀ l : List Step, Linked (Runs.run step init l) := by
  intro h
  have hunique := (h (leaving false ++ [.playerInviteToParty 1 3])).unique 1 0 1 (Or.inl (by decide))
    (Or.inl (by decide))
  cases hunique

end TiabloServer.Party
