import TiabloServer.Lib.Runs

/-!
# Chat channels

`Chat` (`chat.cpp`) and the calls of it in `game.cpp`. The users of a channel are kept by the id of
the player, those invited to a private channel by their guid. A map is the function of its keys; a
pointer to a channel is the map and the key where it is. Scripts accept everybody, and what clients
are told of the changes is left out. A private channel's id is neither that of the guild channel nor
that of the party channel, so closing it at a client changes nothing here.

## Main definitions

* `Channels.step` — the calls.
* `Channels.Secluded` — what private channels promise.

## Main results

* `Channels.run_secluded` — private channels are private after every run of calls.
-/

namespace TiabloServer.Channels

/-! ## Players and channels -/

/-- Players, with the numbers that are each one's own. -/
class Player (P : Type) where
  getGUID : P → ℕ
  getID : P → ℕ
  getGUID_injective : Function.Injective getGUID
  getID_injective : Function.Injective getID

open Player

/-- A player who calls, and what he belongs to at that time. -/
structure Caller (P : Type) where
  player : P
  isPremium : Bool
  guild : Option ℕ
  party : Option ℕ
  /-- The level of his rank in the guild. -/
  guildRank : Option ℕ

structure ChatChannel (P : Type) where
  users : ℕ → Option P

structure PrivateChatChannel (P : Type) extends ChatChannel P where
  invites : ℕ → Option P
  owner : ℕ

structure Chat (P : Type) where
  normalChannels : ℕ → Option (ChatChannel P)
  privateChannels : ℕ → Option (PrivateChatChannel P)
  partyChannels : ℕ → Option (ChatChannel P)
  guildChannels : ℕ → Option (ChatChannel P)

/-- Where a channel is. -/
inductive ChannelRef where
  | normalChannel (channelId : ℕ)
  | privateChannel (channelId : ℕ)
  | partyChannel (party : ℕ)
  | guildChannel (guild : ℕ)
  deriving DecidableEq

/-- The types of speech that matter here. -/
inductive SpeakClasses where
  | channelY
  | channelO
  | other (value : ℕ)
  deriving DecidableEq

def CHANNEL_GUILD : ℕ := 0

def CHANNEL_PARTY : ℕ := 1

def CHANNEL_PRIVATE : ℕ := 0xFFFF

variable {P : Type} [Player P]

/-- A channel without users. -/
def newChannel : ChatChannel P := ⟨fun _ => none⟩

namespace ChatChannel

/-- `ChatChannel::addUser`, none when it answers false. -/
def addUser (c : ChatChannel P) (player : P) : Option (ChatChannel P) :=
  if (c.users (getID player)).isSome then none
  else some { c with users := Function.update c.users (getID player) (some player) }

/-- `ChatChannel::removeUser`, none when it answers false. -/
def removeUser (c : ChatChannel P) (player : P) : Option (ChatChannel P) :=
  if (c.users (getID player)).isNone then none
  else some { c with users := Function.update c.users (getID player) none }

/-- `ChatChannel::talk`: who is told, none when it answers false. -/
def talk (c : ChatChannel P) (player : P) : Option (ℕ → Option P) :=
  if (c.users (getID player)).isNone then none else some c.users

end ChatChannel

namespace PrivateChatChannel

/-- `PrivateChatChannel::isInvited`. -/
def isInvited (c : PrivateChatChannel P) (guid : ℕ) : Bool :=
  guid = c.owner || (c.invites guid).isSome

/-- `PrivateChatChannel::removeInvite`, none when it answers false. -/
def removeInvite (c : PrivateChatChannel P) (guid : ℕ) : Option (PrivateChatChannel P) :=
  if (c.invites guid).isNone then none else some { c with invites := Function.update c.invites guid none }

/-- `PrivateChatChannel::invitePlayer`. -/
def invitePlayer (c : PrivateChatChannel P) (invitePlayer : P) : PrivateChatChannel P :=
  if (c.invites (getGUID invitePlayer)).isSome then c
  else { c with invites := Function.update c.invites (getGUID invitePlayer) (some invitePlayer) }

/-- `removeUser` of a private channel. -/
def dropUser (c : PrivateChatChannel P) (player : P) : PrivateChatChannel P :=
  { c with toChatChannel := (c.removeUser player).getD c.toChatChannel }

/-- `PrivateChatChannel::excludePlayer`. -/
def excludePlayer (c : PrivateChatChannel P) (excludePlayer : P) : PrivateChatChannel P :=
  match c.removeInvite (getGUID excludePlayer) with
  | none => c
  | some c => c.dropUser excludePlayer

end PrivateChatChannel

/-! ## The calls -/

/-- The channel at a place, and its `getOwner`. -/
def channelAt (s : Chat P) : ChannelRef → Option (ChatChannel P × ℕ)
  | .normalChannel channelId => (s.normalChannels channelId).map fun c => (c, 0)
  | .privateChannel channelId => (s.privateChannels channelId).map fun c => (c.toChatChannel, c.owner)
  | .partyChannel party => (s.partyChannels party).map fun c => (c, 0)
  | .guildChannel guild => (s.guildChannels guild).map fun c => (c, 0)

/-- The channel at a place gets other users. -/
def setChannel (s : Chat P) (c : ChatChannel P) : ChannelRef → Chat P
  | .normalChannel channelId =>
    { s with normalChannels := Function.update s.normalChannels channelId (some c) }
  | .privateChannel channelId =>
    { s with
      privateChannels := Function.update s.privateChannels channelId
        ((s.privateChannels channelId).map fun d => { d with toChatChannel := c }) }
  | .partyChannel party => { s with partyChannels := Function.update s.partyChannels party (some c) }
  | .guildChannel guild => { s with guildChannels := Function.update s.guildChannels guild (some c) }

/-- `Chat::getChannel`. -/
def getChannel (s : Chat P) (caller : Caller P) (channelId : ℕ) : Option ChannelRef :=
  if channelId = CHANNEL_GUILD then
    caller.guild.bind fun guild => if (s.guildChannels guild).isSome then some (.guildChannel guild) else none
  else if channelId = CHANNEL_PARTY then
    caller.party.bind fun party => if (s.partyChannels party).isSome then some (.partyChannel party) else none
  else if (s.normalChannels channelId).isSome then some (.normalChannel channelId)
  else (s.privateChannels channelId).bind fun c =>
    if c.isInvited (getGUID caller.player) then some (.privateChannel channelId) else none

/-- The ids of private channels. -/
def privateIds : List ℕ := List.range' 100 9900

/-- `Chat::getPrivateChannel`: where it is. -/
def getPrivateChannel (s : Chat P) (player : P) : Option ℕ :=
  privateIds.find? fun i => (s.privateChannels i).any fun c => c.owner = getGUID player

/-- `Chat::createChannel`: where the channel is that it answers, if one, and the state after it. -/
def createChannel (s : Chat P) (caller : Caller P) (channelId : ℕ) : Option ChannelRef × Chat P :=
  if (getChannel s caller channelId).isSome then (none, s)
  else if channelId = CHANNEL_GUILD then
    match caller.guild with
    | none => (none, s)
    | some guild =>
      (some (.guildChannel guild), { s with
        guildChannels := Function.update s.guildChannels guild
          (some ((s.guildChannels guild).getD newChannel)) })
  else if channelId = CHANNEL_PARTY then
    match caller.party with
    | none => (none, s)
    | some party =>
      (some (.partyChannel party), { s with
        partyChannels := Function.update s.partyChannels party
          (some ((s.partyChannels party).getD newChannel)) })
  else if channelId = CHANNEL_PRIVATE then
    if !caller.isPremium || (getPrivateChannel s caller.player).isSome then (none, s)
    else
      match privateIds.find? fun i => (s.privateChannels i).isNone with
      | none => (none, s)
      | some i =>
        (some (.privateChannel i), { s with
          privateChannels := Function.update s.privateChannels i
            (some { newChannel with invites := fun _ => none, owner := getGUID caller.player }) })
  else (none, s)

/-- `Chat::deleteChannel`, none when it answers false. -/
def deleteChannel (s : Chat P) (caller : Caller P) (channelId : ℕ) : Option (Chat P) :=
  if channelId = CHANNEL_GUILD then
    caller.guild.bind fun guild => if (s.guildChannels guild).isNone then none
      else some { s with guildChannels := Function.update s.guildChannels guild none }
  else if channelId = CHANNEL_PARTY then
    caller.party.bind fun party => if (s.partyChannels party).isNone then none
      else some { s with partyChannels := Function.update s.partyChannels party none }
  else if (s.privateChannels channelId).isNone then none
  else some { s with privateChannels := Function.update s.privateChannels channelId none }

/-- `Chat::addUserToChannel`, none when it answers no channel. -/
def addUserToChannel (s : Chat P) (caller : Caller P) (channelId : ℕ) : Option (Chat P) := do
  let ref ← getChannel s caller channelId
  let (c, _) ← channelAt s ref
  let c ← c.addUser caller.player
  some (setChannel s c ref)

/-- `Chat::removeUserFromChannel`, none when it answers false. -/
def removeUserFromChannel (s : Chat P) (caller : Caller P) (channelId : ℕ) : Option (Chat P) := do
  let ref ← getChannel s caller channelId
  let (c, owner) ← channelAt s ref
  let c ← c.removeUser caller.player
  let s := setChannel s c ref
  if owner = getGUID caller.player then some ((deleteChannel s caller channelId).getD s) else some s

/-- `Chat::removeUserFromAllChannels`. -/
def removeUserFromAllChannels (s : Chat P) (player : P) : Chat P :=
  let remove (c : ChatChannel P) := (c.removeUser player).getD c
  { normalChannels := fun i => (s.normalChannels i).map remove
    partyChannels := fun i => (s.partyChannels i).map remove
    guildChannels := fun i => (s.guildChannels i).map remove
    privateChannels := fun i => (s.privateChannels i).bind fun c =>
      let c := ((c.removeInvite (getGUID player)).getD c).dropUser player
      if c.owner = getGUID player then none else some c }

/-- `Chat::talkToChannel`: the type of the speech and who is told, none when it answers false. -/
def talkToChannel (s : Chat P) (caller : Caller P) (type : SpeakClasses) (channelId : ℕ) :
    Option (SpeakClasses × (ℕ → Option P)) := do
  let ref ← getChannel s caller channelId
  let (c, _) ← channelAt s ref
  let type :=
    if channelId = CHANNEL_GUILD then if caller.guildRank.any (1 < ·) then .channelO else .channelY
    else if type ≠ .channelY ∧ (channelId = CHANNEL_PRIVATE ∨ channelId = CHANNEL_PARTY) then .channelY
    else type
  let users ← c.talk caller.player
  some (type, users)

/-- `Game::playerChannelInvite`, for a player who is there. -/
def playerChannelInvite (s : Chat P) (player invited : P) : Chat P :=
  match getPrivateChannel s player with
  | none => s
  | some i =>
    if getID player = getID invited then s
    else { s with
      privateChannels := Function.update s.privateChannels i
        ((s.privateChannels i).map fun c => c.invitePlayer invited) }

/-- `Game::playerChannelExclude`, for a player who is there. -/
def playerChannelExclude (s : Chat P) (player excluded : P) : Chat P :=
  match getPrivateChannel s player with
  | none => s
  | some i =>
    if getID player = getID excluded then s
    else { s with
      privateChannels := Function.update s.privateChannels i
        ((s.privateChannels i).map fun c => c.excludePlayer excluded) }

/-- A call. -/
inductive Call (P : Type) where
  | createChannel (caller : Caller P) (channelId : ℕ)
  | deleteChannel (caller : Caller P) (channelId : ℕ)
  | addUserToChannel (caller : Caller P) (channelId : ℕ)
  | removeUserFromChannel (caller : Caller P) (channelId : ℕ)
  | removeUserFromAllChannels (player : P)
  | playerChannelInvite (player invited : P)
  | playerChannelExclude (player excluded : P)

/-- The state after a call. -/
def step (s : Chat P) : Call P → Chat P
  | .createChannel caller channelId => (createChannel s caller channelId).2
  | .deleteChannel caller channelId => (deleteChannel s caller channelId).getD s
  | .addUserToChannel caller channelId => (addUserToChannel s caller channelId).getD s
  | .removeUserFromChannel caller channelId => (removeUserFromChannel s caller channelId).getD s
  | .removeUserFromAllChannels player => removeUserFromAllChannels s player
  | .playerChannelInvite player invited => playerChannelInvite s player invited
  | .playerChannelExclude player excluded => playerChannelExclude s player excluded

/-- The chat as it is loaded, with the normal channels that there are. -/
def start (normal : ℕ → Bool) : Chat P where
  normalChannels i := if normal i then some newChannel else none
  privateChannels _ := none
  partyChannels _ := none
  guildChannels _ := none

/-! ## What private channels promise -/

/-- A player is in no channel, invited to none, and has none. -/
structure Forgotten (s : Chat P) (player : P) : Prop where
  users : ∀ ref c owner, channelAt s ref = some (c, owner) → ∀ k, c.users k ≠ some player
  invites : ∀ i c, s.privateChannels i = some c →
    c.isInvited (getGUID player) = false ∧ ∀ k, c.invites k ≠ some player
  owners : ∀ i c, s.privateChannels i = some c → c.owner ≠ getGUID player

/-- Private channels are private. -/
structure Secluded (s : Chat P) : Prop where
  /-- Their users are the owner and those invited. -/
  users : ∀ i c, s.privateChannels i = some c → ∀ k player, c.users k = some player →
    getGUID player = c.owner ∨ (c.invites (getGUID player)).isSome = true
  /-- An owner has one. -/
  owners : ∀ i j c d, s.privateChannels i = some c → s.privateChannels j = some d → c.owner = d.owner → i = j
  /-- Who leaves all channels leaves nothing behind. -/
  leaves : ∀ player, Forgotten (removeUserFromAllChannels s player) player
  /-- Who is heard in one is a user, and its owner or invited. -/
  talks : ∀ caller type channelId i heard, getChannel s caller channelId = some (.privateChannel i) →
    talkToChannel s caller type channelId = some heard →
    ∃ c, s.privateChannels i = some c ∧ c.users (getID caller.player) = some caller.player ∧
      (getGUID caller.player = c.owner ∨ (c.invites (getGUID caller.player)).isSome = true)

/-! ## The invariant -/

/-- The users of a channel are kept by their ids. -/
def ChatChannel.Keyed (c : ChatChannel P) : Prop := ∀ k player, c.users k = some player → k = getID player

/-- Invitations are kept by the guids, and every user has one or is the owner. -/
structure PrivateChatChannel.Sound (c : PrivateChatChannel P) : Prop where
  keyed : c.Keyed
  invites : ∀ k player, c.invites k = some player → k = getGUID player
  users : ∀ k player, c.users k = some player → c.isInvited (getGUID player) = true

/-- The channels are sound and each private one has an owner of its own. -/
structure Inv (s : Chat P) : Prop where
  normal : ∀ i c, s.normalChannels i = some c → c.Keyed
  party : ∀ i c, s.partyChannels i = some c → c.Keyed
  guild : ∀ i c, s.guildChannels i = some c → c.Keyed
  sound : ∀ i c, s.privateChannels i = some c → c.Sound
  ids : ∀ i c, s.privateChannels i = some c → i ∈ privateIds
  owners : ∀ i j c d, s.privateChannels i = some c → s.privateChannels j = some d → c.owner = d.owner → i = j

variable {s : Chat P} {c : ChatChannel P} {d : PrivateChatChannel P} {player : P} {caller : Caller P}
  {channelId : ℕ}

/-! ### Channels -/

theorem keyed_newChannel : (newChannel : ChatChannel P).Keyed := nofun

theorem ChatChannel.Keyed.addUser (h : c.Keyed) {c' : ChatChannel P} (hadd : c.addUser player = some c') :
    c'.Keyed := by
  unfold ChatChannel.addUser at hadd
  split_ifs at hadd
  obtain rfl := Option.some.inj hadd
  intro k p hk
  dsimp only at hk
  by_cases hself : k = getID player
  · subst hself
    rw [Function.update_self] at hk
    rw [Option.some.inj hk]
  · rw [Function.update_of_ne hself] at hk
    exact h k p hk

/-- The users that are left, whatever `removeUser` answers. -/
theorem users_removeUser (c : ChatChannel P) (player : P) :
    ((c.removeUser player).getD c).users = Function.update c.users (getID player) none := by
  unfold ChatChannel.removeUser
  split_ifs with hnone
  · rw [Option.getD_none, eq_comm, Function.update_eq_self_iff]
    exact (Option.isNone_iff_eq_none.1 hnone).symm
  · rfl

theorem users_removeUser_sub {k : ℕ} {p : P} (h : ((c.removeUser player).getD c).users k = some p) :
    k ≠ getID player ∧ c.users k = some p := by
  rw [users_removeUser] at h
  by_cases hself : k = getID player
  · subst hself
    rw [Function.update_self] at h
    exact nomatch h
  · exact ⟨hself, by rwa [Function.update_of_ne hself] at h⟩

theorem ChatChannel.Keyed.removeUser (h : c.Keyed) : ((c.removeUser player).getD c).Keyed :=
  fun k p hk => h k p (users_removeUser_sub hk).2

/-- A player who is removed is no user. -/
theorem ChatChannel.Keyed.notMem_removeUser (h : c.Keyed) (k : ℕ) :
    ((c.removeUser player).getD c).users k ≠ some player := fun hk =>
  (users_removeUser_sub hk).1 (h k player (users_removeUser_sub hk).2)

namespace PrivateChatChannel

omit [Player P] in
theorem isInvited_iff (guid : ℕ) : d.isInvited guid = true ↔ guid = d.owner ∨ (d.invites guid).isSome = true := by
  simp [isInvited]

theorem Sound.invitePlayer (h : d.Sound) (invited : P) : (d.invitePlayer invited).Sound := by
  unfold PrivateChatChannel.invitePlayer
  split_ifs with hsome
  · exact h
  refine ⟨h.keyed, fun k p hk => ?_, fun k p hk => ?_⟩
  · dsimp only at hk
    by_cases hself : k = getGUID invited
    · subst hself
      rw [Function.update_self] at hk
      rw [Option.some.inj hk]
    · rw [Function.update_of_ne hself] at hk
      exact h.invites k p hk
  · rcases (isInvited_iff _).1 (h.users k p hk) with howner | hinvited
    · exact (isInvited_iff _).2 (.inl howner)
    · refine (isInvited_iff _).2 (.inr ?_)
      dsimp only
      by_cases hself : getGUID p = getGUID invited
      · rw [hself, Function.update_self]
        rfl
      · rwa [Function.update_of_ne hself]

omit [Player P] in
/-- The invitations that are left, whatever `removeInvite` answers. -/
theorem removeInvite_getD (d : PrivateChatChannel P) (guid : ℕ) :
    (d.removeInvite guid).getD d = { d with invites := Function.update d.invites guid none } := by
  unfold removeInvite
  split_ifs with hnone
  · have hself : Function.update d.invites guid none = d.invites :=
      Function.update_eq_self_iff.2 (Option.isNone_iff_eq_none.1 hnone).symm
    rw [hself]
    rfl
  · rfl

/-- A player is taken out: his invitation and his place. -/
def without (d : PrivateChatChannel P) (player : P) : PrivateChatChannel P :=
  ((d.removeInvite (getGUID player)).getD d).dropUser player

@[simp] theorem owner_without : (d.without player).owner = d.owner := by
  rw [without, removeInvite_getD]
  rfl

theorem invites_without : (d.without player).invites = Function.update d.invites (getGUID player) none := by
  rw [without, removeInvite_getD]
  rfl

theorem users_without {k : ℕ} {p : P} (hk : (d.without player).users k = some p) :
    k ≠ getID player ∧ d.users k = some p := by
  rw [without, removeInvite_getD] at hk
  exact users_removeUser_sub hk

/-- Everybody else stays invited. -/
theorem Sound.without (h : d.Sound) (player : P) : (d.without player).Sound := by
  refine ⟨fun k p hk => h.keyed k p (users_without hk).2, fun k p hk => ?_, fun k p hk => ?_⟩
  · rw [invites_without] at hk
    by_cases hself : k = getGUID player
    · subst hself
      rw [Function.update_self] at hk
      exact nomatch hk
    · rw [Function.update_of_ne hself] at hk
      exact h.invites k p hk
  · obtain ⟨hother, hk⟩ := users_without hk
    rw [isInvited_iff, owner_without, invites_without, Function.update_of_ne, ← isInvited_iff]
    · exact h.users k p hk
    · intro hguid
      rw [h.keyed k p hk, getGUID_injective hguid] at hother
      exact hother rfl

theorem excludePlayer_eq (d : PrivateChatChannel P) (excluded : P) :
    d.excludePlayer excluded = d ∨ d.excludePlayer excluded = d.without excluded := by
  unfold excludePlayer PrivateChatChannel.without
  cases d.removeInvite (getGUID excluded)
  · exact .inl rfl
  · exact .inr rfl

end PrivateChatChannel

/-! ### Calls -/

open PrivateChatChannel

theorem inv_start (normal : ℕ → Bool) : Inv (start normal : Chat P) where
  normal i c hc := by
    simp only [start] at hc
    split_ifs at hc
    rw [← Option.some.inj hc]
    exact keyed_newChannel
  party := nofun
  guild := nofun
  sound := nofun
  ids := nofun
  owners := nofun

/-- Private channels are changed or go, and keep their owners. -/
theorem Inv.withPrivate (h : Inv s) {channels : ℕ → Option (PrivateChatChannel P)}
    (hsub : ∀ i d, channels i = some d → d.Sound ∧ ∃ d', s.privateChannels i = some d' ∧ d'.owner = d.owner) :
    Inv { s with privateChannels := channels } where
  normal := h.normal
  party := h.party
  guild := h.guild
  sound i d hd := (hsub i d hd).1
  ids i d hd := by
    obtain ⟨-, d', hd', -⟩ := hsub i d hd
    exact h.ids i d' hd'
  owners i j d e hd he howner := by
    obtain ⟨-, d', hd', hdo⟩ := hsub i d hd
    obtain ⟨-, e', he', heo⟩ := hsub j e he
    exact h.owners i j d' e' hd' he' (by rw [hdo, heo, howner])

/-- One private channel is changed and keeps its owner. -/
theorem Inv.mapPrivate (h : Inv s) (i : ℕ) {f : PrivateChatChannel P → PrivateChatChannel P}
    (hf : ∀ d, s.privateChannels i = some d → (f d).Sound ∧ (f d).owner = d.owner) :
    Inv { s with privateChannels := Function.update s.privateChannels i ((s.privateChannels i).map f) } := by
  refine h.withPrivate fun j d hd => ?_
  by_cases hself : j = i
  · subst hself
    rw [Function.update_self] at hd
    obtain ⟨d', hd', rfl⟩ := Option.map_eq_some_iff.1 hd
    exact ⟨(hf d' hd').1, d', hd', (hf d' hd').2.symm⟩
  · rw [Function.update_of_ne hself] at hd
    exact ⟨h.sound j d hd, d, hd, rfl⟩

theorem Inv.erasePrivate (h : Inv s) (i : ℕ) :
    Inv { s with privateChannels := Function.update s.privateChannels i none } := by
  refine h.withPrivate fun j d hd => ?_
  by_cases hself : j = i
  · subst hself
    rw [Function.update_self] at hd
    exact nomatch hd
  · rw [Function.update_of_ne hself] at hd
    exact ⟨h.sound j d hd, d, hd, rfl⟩

theorem keyed_update {channels : ℕ → Option (ChatChannel P)} (h : ∀ i c, channels i = some c → c.Keyed)
    (i : ℕ) {new : Option (ChatChannel P)} (hnew : ∀ c, new = some c → c.Keyed) :
    ∀ j c, Function.update channels i new j = some c → c.Keyed := by
  intro j c hc
  by_cases hself : j = i
  · subst hself
    rw [Function.update_self] at hc
    exact hnew c hc
  · rw [Function.update_of_ne hself] at hc
    exact h j c hc

/-- Other users in a channel: they are kept by their ids, and in a private one they are invited. -/
theorem Inv.setChannel (h : Inv s) {ref : ChannelRef} (hc : c.Keyed)
    (hprivate : ∀ i d, ref = .privateChannel i → s.privateChannels i = some d →
      ∀ k p, c.users k = some p → d.isInvited (getGUID p) = true) : Inv (setChannel s c ref) := by
  have hnew : ∀ c', some c = some c' → c'.Keyed := fun c' e => Option.some.inj e ▸ hc
  cases ref with
  | normalChannel i => exact { h with normal := keyed_update h.normal i hnew }
  | privateChannel i =>
    refine h.mapPrivate i fun d hd => ⟨⟨hc, (h.sound i d hd).invites, fun k p hk => ?_⟩, rfl⟩
    exact hprivate i d rfl hd k p hk
  | partyChannel i => exact { h with party := keyed_update h.party i hnew }
  | guildChannel i => exact { h with guild := keyed_update h.guild i hnew }

theorem Inv.keyed (h : Inv s) {ref : ChannelRef} {owner : ℕ} (hc : channelAt s ref = some (c, owner)) :
    c.Keyed := by
  have hplain : ∀ {channels : ℕ → Option (ChatChannel P)} {i : ℕ}, (∀ i c, channels i = some c → c.Keyed) →
      (channels i).map (fun c => (c, 0)) = some (c, owner) → c.Keyed := by
    intro channels i hchannels hin
    obtain ⟨c', hc', e⟩ := Option.map_eq_some_iff.1 hin
    obtain ⟨rfl, -⟩ := Prod.mk.inj e
    exact hchannels i _ hc'
  cases ref with
  | normalChannel i => exact hplain h.normal hc
  | partyChannel i => exact hplain h.party hc
  | guildChannel i => exact hplain h.guild hc
  | privateChannel i =>
    obtain ⟨d, hd, e⟩ := Option.map_eq_some_iff.1 hc
    obtain ⟨rfl, -⟩ := Prod.mk.inj e
    exact (h.sound i d hd).keyed

/-- A private channel is answered to its owner and those invited. -/
theorem getChannel_private {i : ℕ} (h : getChannel s caller channelId = some (.privateChannel i)) :
    i = channelId ∧ ∃ d, s.privateChannels i = some d ∧ d.isInvited (getGUID caller.player) = true := by
  unfold getChannel at h
  split_ifs at h
  · obtain ⟨guild, -, hguild⟩ := Option.bind_eq_some_iff.1 h
    split_ifs at hguild
    exact nomatch Option.some.inj hguild
  · obtain ⟨party, -, hparty⟩ := Option.bind_eq_some_iff.1 h
    split_ifs at hparty
    exact nomatch Option.some.inj hparty
  · exact nomatch Option.some.inj h
  · obtain ⟨d, hd, hinvited⟩ := Option.bind_eq_some_iff.1 h
    split_ifs at hinvited with hin
    obtain rfl := ChannelRef.privateChannel.inj (Option.some.inj hinvited)
    exact ⟨rfl, d, hd, hin⟩

/-- A new private channel, of an owner who has none. -/
theorem Inv.insertPrivate (h : Inv s) {i : ℕ} (hid : i ∈ privateIds) (hd : d.Sound)
    (hnone : ∀ j e, s.privateChannels j = some e → e.owner ≠ d.owner) :
    Inv { s with privateChannels := Function.update s.privateChannels i (some d) } := by
  have hget : ∀ j e, Function.update s.privateChannels i (some d) j = some e →
      j = i ∧ e = d ∨ j ≠ i ∧ s.privateChannels j = some e := by
    intro j e he
    by_cases hself : j = i
    · subst hself
      rw [Function.update_self] at he
      exact .inl ⟨rfl, (Option.some.inj he).symm⟩
    · rw [Function.update_of_ne hself] at he
      exact .inr ⟨hself, he⟩
  refine { h with sound := fun j e he => ?_, ids := fun j e he => ?_, owners := fun j k e f he hf howner => ?_ }
  · rcases hget j e he with ⟨-, rfl⟩ | ⟨-, hold⟩
    · exact hd
    · exact h.sound j e hold
  · rcases hget j e he with ⟨rfl, -⟩ | ⟨-, hold⟩
    · exact hid
    · exact h.ids j e hold
  · rcases hget j e he with ⟨rfl, rfl⟩ | ⟨-, hold⟩ <;> rcases hget k f hf with ⟨rfl, rfl⟩ | ⟨-, hold'⟩
    · rfl
    · exact absurd howner.symm (hnone k f hold')
    · exact absurd howner (hnone j e hold)
    · exact h.owners j k e f hold hold' howner

theorem Inv.createChannel (h : Inv s) (caller : Caller P) (channelId : ℕ) :
    Inv (createChannel s caller channelId).2 := by
  have hold : ∀ {channels : ℕ → Option (ChatChannel P)} (i : ℕ), (∀ i c, channels i = some c → c.Keyed) →
      ∀ c, some ((channels i).getD newChannel) = some c → c.Keyed := by
    intro channels i hchannels c hc
    obtain rfl := Option.some.inj hc
    cases hi : channels i with
    | none => exact keyed_newChannel
    | some c => exact hchannels i c hi
  unfold Channels.createChannel
  split_ifs with hknown hguild hparty hprivate hmay
  · exact h
  · cases caller.guild with
    | none => exact h
    | some guild => exact { h with guild := keyed_update h.guild guild (hold guild h.guild) }
  · cases caller.party with
    | none => exact h
    | some party => exact { h with party := keyed_update h.party party (hold party h.party) }
  · exact h
  · cases hfree : privateIds.find? fun i => (s.privateChannels i).isNone with
    | none => exact h
    | some i =>
      simp only [Bool.or_eq_true, not_or, Bool.not_eq_true, Option.isSome_eq_false_iff,
        Option.isNone_iff_eq_none] at hmay
      refine h.insertPrivate (List.mem_of_find?_eq_some hfree) ⟨nofun, nofun, nofun⟩ fun j e he howner => ?_
      -- no channel is the player's yet
      have hno := List.find?_eq_none.1 hmay.2 j (h.ids j e he)
      rw [he] at hno
      exact hno (by simp [howner])
  · exact h

theorem Inv.deleteChannel (h : Inv s) (caller : Caller P) (channelId : ℕ) :
    Inv ((deleteChannel s caller channelId).getD s) := by
  unfold Channels.deleteChannel
  split_ifs
  · cases caller.guild with
    | none => exact h
    | some guild =>
      rw [Option.bind_some]
      split_ifs
      · exact h
      · exact { h with guild := keyed_update h.guild guild nofun }
  · cases caller.party with
    | none => exact h
    | some party =>
      rw [Option.bind_some]
      split_ifs
      · exact h
      · exact { h with party := keyed_update h.party party nofun }
  · exact h
  · exact h.erasePrivate channelId

theorem Inv.addUserToChannel (h : Inv s) (caller : Caller P) (channelId : ℕ) :
    Inv ((addUserToChannel s caller channelId).getD s) := by
  cases hadd : Channels.addUserToChannel s caller channelId with
  | none => exact h
  | some s' =>
    obtain ⟨ref, href, ⟨c, owner⟩, hc, c', hc', e⟩ : ∃ ref, getChannel s caller channelId = some ref ∧
        ∃ r, channelAt s ref = some r ∧ ∃ c', r.1.addUser caller.player = some c' ∧
          some (Channels.setChannel s c' ref) = some s' := by
      simpa [Channels.addUserToChannel, Option.bind_eq_some_iff] using hadd
    obtain rfl := Option.some.inj e
    refine h.setChannel ((h.keyed hc).addUser hc') fun i d hi hd k p hk => ?_
    subst hi
    obtain ⟨d', hd', e⟩ := Option.map_eq_some_iff.1 hc
    obtain ⟨rfl, -⟩ := Prod.mk.inj e
    rw [hd] at hd'
    obtain rfl := Option.some.inj hd'
    unfold ChatChannel.addUser at hc'
    split_ifs at hc'
    obtain rfl := Option.some.inj hc'
    dsimp only at hk
    by_cases hself : k = getID caller.player
    · subst hself
      rw [Function.update_self] at hk
      obtain ⟨-, d', hd', hinvited⟩ := getChannel_private href
      rw [hd] at hd'
      rw [← Option.some.inj hk, Option.some.inj hd']
      exact hinvited
    · rw [Function.update_of_ne hself] at hk
      exact (h.sound i d hd).users k p hk

theorem Inv.removeUserFromChannel (h : Inv s) (caller : Caller P) (channelId : ℕ) :
    Inv ((removeUserFromChannel s caller channelId).getD s) := by
  cases hremove : Channels.removeUserFromChannel s caller channelId with
  | none => exact h
  | some s' =>
    obtain ⟨ref, href, ⟨c, owner⟩, hc, c', hc', e⟩ : ∃ ref, getChannel s caller channelId = some ref ∧
        ∃ r, channelAt s ref = some r ∧ ∃ c', r.1.removeUser caller.player = some c' ∧
          (if r.2 = getGUID caller.player then
            some ((Channels.deleteChannel (Channels.setChannel s c' ref) caller channelId).getD
              (Channels.setChannel s c' ref))
          else some (Channels.setChannel s c' ref)) = some s' := by
      simpa [Channels.removeUserFromChannel, Option.bind_eq_some_iff] using hremove
    have hleft : c' = (c.removeUser caller.player).getD c := by rw [hc', Option.getD_some]
    have hset : Inv (Channels.setChannel s c' ref) := by
      refine h.setChannel (hleft ▸ (h.keyed hc).removeUser) fun i d hi hd k p hk => ?_
      subst hi
      obtain ⟨d', hd', e⟩ := Option.map_eq_some_iff.1 hc
      obtain ⟨rfl, -⟩ := Prod.mk.inj e
      rw [hd] at hd'
      obtain rfl := Option.some.inj hd'
      rw [hleft] at hk
      exact (h.sound i d hd).users k p (users_removeUser_sub hk).2
    split_ifs at e
    · rw [← Option.some.inj e]
      exact hset.deleteChannel caller channelId
    · rw [← Option.some.inj e]
      exact hset

theorem removeUserFromAllChannels_private (player : P) {i : ℕ}
    (hd : (removeUserFromAllChannels s player).privateChannels i = some d) :
    d.owner ≠ getGUID player ∧ ∃ d', s.privateChannels i = some d' ∧ d = d'.without player := by
  obtain ⟨d', hd', hkept⟩ := Option.bind_eq_some_iff.1 hd
  dsimp only at hkept
  split_ifs at hkept with howner
  obtain rfl := Option.some.inj hkept
  exact ⟨howner, d', hd', rfl⟩

theorem Inv.removeUserFromAllChannels (h : Inv s) (player : P) : Inv (removeUserFromAllChannels s player) := by
  have hmap : ∀ {channels : ℕ → Option (ChatChannel P)}, (∀ i c, channels i = some c → c.Keyed) →
      ∀ i c, (channels i).map (fun c => (c.removeUser player).getD c) = some c → c.Keyed := by
    intro channels hchannels i c hc
    obtain ⟨c', hc', rfl⟩ := Option.map_eq_some_iff.1 hc
    exact (hchannels i c' hc').removeUser
  have hprivate := h.withPrivate fun i d hd => by
    obtain ⟨-, d', hd', rfl⟩ := removeUserFromAllChannels_private player hd
    exact ⟨(h.sound i d' hd').without player, d', hd', owner_without.symm⟩
  exact { hprivate with normal := hmap h.normal, party := hmap h.party, guild := hmap h.guild }

/-- One call. -/
theorem Inv.step (h : Inv s) (a : Call P) : Inv (step s a) := by
  cases a with
  | createChannel caller channelId => exact h.createChannel caller channelId
  | deleteChannel caller channelId => exact h.deleteChannel caller channelId
  | addUserToChannel caller channelId => exact h.addUserToChannel caller channelId
  | removeUserFromChannel caller channelId => exact h.removeUserFromChannel caller channelId
  | removeUserFromAllChannels player => exact h.removeUserFromAllChannels player
  | playerChannelInvite player invited =>
    simp only [Channels.step, playerChannelInvite]
    split
    · exact h
    · split_ifs
      · exact h
      · refine h.mapPrivate _ fun d hd => ⟨(h.sound _ d hd).invitePlayer invited, ?_⟩
        unfold PrivateChatChannel.invitePlayer
        split_ifs <;> rfl
  | playerChannelExclude player excluded =>
    simp only [Channels.step, playerChannelExclude]
    split
    · exact h
    · split_ifs
      · exact h
      · refine h.mapPrivate _ fun d hd => ?_
        rcases d.excludePlayer_eq excluded with e | e
        · rw [e]
          exact ⟨h.sound _ d hd, rfl⟩
        · rw [e]
          exact ⟨(h.sound _ d hd).without excluded, owner_without⟩

/-! ## Privacy -/

theorem Inv.forgotten (h : Inv s) (player : P) :
    Forgotten (Channels.removeUserFromAllChannels s player) player where
  users ref c owner hc k := by
    have hplain : ∀ {channels : ℕ → Option (ChatChannel P)} {i : ℕ}, (∀ i c, channels i = some c → c.Keyed) →
        ((channels i).map fun c => (c.removeUser player).getD c).map (fun c => (c, 0)) = some (c, owner) →
        c.users k ≠ some player := by
      intro channels i hchannels hin
      obtain ⟨c', hc', e⟩ := Option.map_eq_some_iff.1 hin
      obtain ⟨rfl, -⟩ := Prod.mk.inj e
      obtain ⟨old, hold, rfl⟩ := Option.map_eq_some_iff.1 hc'
      exact (hchannels i old hold).notMem_removeUser k
    cases ref with
    | normalChannel i => exact hplain h.normal hc
    | partyChannel i => exact hplain h.party hc
    | guildChannel i => exact hplain h.guild hc
    | privateChannel i =>
      obtain ⟨d, hd, e⟩ := Option.map_eq_some_iff.1 hc
      obtain ⟨rfl, -⟩ := Prod.mk.inj e
      obtain ⟨-, d', hd', rfl⟩ := removeUserFromAllChannels_private player hd
      intro hk
      obtain ⟨hother, hk⟩ := users_without hk
      exact hother ((h.sound i d' hd').keyed k player hk)
  invites i d hd := by
    obtain ⟨howner, d', hd', rfl⟩ := removeUserFromAllChannels_private player hd
    refine ⟨?_, fun k hk => ?_⟩
    · rw [← Bool.not_eq_true, isInvited_iff, invites_without, Function.update_self]
      rintro (hguid | hsome)
      · exact howner hguid.symm
      · exact nomatch hsome
    · rw [invites_without] at hk
      by_cases hself : k = getGUID player
      · subst hself
        rw [Function.update_self] at hk
        exact nomatch hk
      · rw [Function.update_of_ne hself] at hk
        exact hself ((h.sound i d' hd').invites k player hk)
  owners i d hd := (removeUserFromAllChannels_private player hd).1

theorem Inv.secluded (h : Inv s) : Secluded s where
  users i d hd k player hk := (isInvited_iff _).1 ((h.sound i d hd).users k player hk)
  owners := h.owners
  leaves := h.forgotten
  talks caller type channelId i heard href htalk := by
    obtain ⟨-, d, hd, hinvited⟩ := getChannel_private href
    refine ⟨d, hd, ?_, (isInvited_iff _).1 hinvited⟩
    have htold : ∃ users, d.toChatChannel.talk caller.player = some users := by
      simp only [talkToChannel, href, Option.bind_eq_bind, Option.bind_some, channelAt, hd, Option.map_some] at htalk
      obtain ⟨users, husers, -⟩ := Option.bind_eq_some_iff.1 htalk
      exact ⟨users, husers⟩
    obtain ⟨users, husers⟩ := htold
    unfold ChatChannel.talk at husers
    split_ifs at husers with hnone
    obtain ⟨p, hp⟩ := Option.ne_none_iff_exists'.1 fun e => hnone (Option.isNone_iff_eq_none.2 e)
    rw [hp, getID_injective ((h.sound i d hd).keyed _ p hp)]

/-- **Private channels stay private** in every run of calls. -/
theorem run_secluded (normal : ℕ → Bool) (l : List (Call P)) :
    Secluded (Runs.run step (start normal : Chat P) l) :=
  (Runs.invariant_of_step step (fun _ a h => h.step a) (inv_start normal) l).secluded

/-- Players that are numbered. -/
instance : Player ℕ where
  getGUID guid := guid
  getID guid := 0x10000000 + guid
  getGUID_injective := Function.injective_id
  getID_injective := add_right_injective _

/-- The first player has a private channel, to which he invites the second. -/
def invitation : List (Call ℕ) :=
  [.createChannel ⟨1, true, none, none, none⟩ CHANNEL_PRIVATE, .playerChannelInvite 1 2,
    .addUserToChannel ⟨2, false, none, none, none⟩ 100]

/-- The second player is in the channel, is excluded, and the first logs out. -/
theorem run_secluded_invitation :
    ((Runs.run step (start fun _ => false) invitation).privateChannels 100).bind (·.users (Player.getID 2)) =
        some 2 ∧
      Secluded (Runs.run step (start fun _ => false)
        (invitation ++ [.playerChannelExclude 1 2, .removeUserFromAllChannels 1])) :=
  ⟨by decide +kernel, run_secluded (fun _ => false) _⟩

end TiabloServer.Channels
