import TiabloServer.Lib.Runs

/-!
# Trade sessions

The trade state of the players and the registry `tradeItems` of `Game` (`game/game.cpp`), as
`internalStartTrade`, `playerAcceptTrade` and `internalCloseTrade` change them. What these functions
learn from the map, the inventories and the scripts is an argument of the operation, and so is the
outcome of the item transfer.

`internalStartTrade` has two callers. `playerRequestTrade` refuses the player himself and every item
that is registered, holds a registered item or lies in one; `house:startTrade` refuses a partner who
owns a house, as the player does, and offers a transfer item that it has just created.

## Main definitions

* `Trade.SessionInv` — the session invariant.
* `Trade.Change` — what one operation can do to a session.

## Main results

* `Trade.change_step` — every operation makes one of the four changes.
* `Trade.sessionInv_step` — every operation keeps the invariant.
* `Trade.session_invariant` — partners are mutual, the registry lists exactly the offered items and
  an idle player has neither item nor partner, in every reachable state.
-/

namespace TiabloServer.Trade

/-- `TradeState_t`. -/
inductive TradeState where
  | TRADE_NONE
  | TRADE_INITIATED
  | TRADE_ACCEPT
  | TRADE_ACKNOWLEDGE
  | TRADE_TRANSFER
deriving DecidableEq

open TradeState

/-- The trade fields of a player, for players `P` and items `I`. -/
structure PlayerTrade (P I : Type) where
  tradeState : TradeState
  tradePartner : Option P
  tradeItem : Option I

/-- The fields of a player who does not trade. -/
def PlayerTrade.idle {P I : Type} : PlayerTrade P I := ⟨TRADE_NONE, none, none⟩

/-- The trade fields of all players and the registry `tradeItems` from an offered item to the
player who offers it. -/
structure Session (P I : Type) where
  players : P → PlayerTrade P I
  tradeItems : AList fun _ : I => P

section Operations

variable {P I : Type} [DecidableEq P] [DecidableEq I]

/-- No player trades. -/
def Session.init : Session P I := ⟨fun _ => .idle, ∅⟩

/-- Replaces the trade fields of a player. -/
def Session.set (s : Session P I) (p : P) (r : PlayerTrade P I) : Session P I :=
  { s with players := Function.update s.players p r }

/-- Erases an item, if there is one, from the registry. -/
def Session.eraseItem (s : Session P I) (item : Option I) : Session P I :=
  { s with tradeItems := item.elim s.tradeItems s.tradeItems.erase }

/-- `Game::internalStartTrade`. `untradeable` says that the item is a store item or has an owner. -/
def internalStartTrade (s : Session P I) (player tradePartner : P) (tradeItem : I)
    (untradeable : Bool) : Session P I :=
  let r := s.players player
  let rp := s.players tradePartner
  if r.tradeState ≠ TRADE_NONE ∧
      ¬ (r.tradeState = TRADE_ACKNOWLEDGE ∧ r.tradePartner = some tradePartner) then s
  else if rp.tradeState ≠ TRADE_NONE ∧ rp.tradePartner ≠ some player then s
  else if untradeable then s
  else
    let s := s.set player ⟨TRADE_INITIATED, some tradePartner, some tradeItem⟩
    let s := { s with tradeItems := s.tradeItems.insert tradeItem player }
    if (s.players tradePartner).tradeState = TRADE_NONE then
      s.set tradePartner
        { s.players tradePartner with
          tradeState := TRADE_ACKNOWLEDGE
          tradePartner := some player }
    else s

/-- What `playerRequestTrade` reads outside the session: whether the players and the item are in
reach, whether the item may be traded at all, and which container holds which item. -/
structure RequestChecks (I : Type) where
  reachable : Bool
  tradeable : Bool
  isHoldingItem : I → I → Bool
  untradeable : Bool

/-- The loop of `playerRequestTrade` over `tradeItems`: "This item is already being traded." -/
def alreadyTraded (s : Session P I) (c : RequestChecks I) (tradeItem : I) : Bool :=
  s.tradeItems.keys.any fun item =>
    tradeItem = item || c.isHoldingItem tradeItem item || c.isHoldingItem item tradeItem

/-- `Game::playerRequestTrade`. -/
def playerRequestTrade (s : Session P I) (player tradePartner : P) (tradeItem : I)
    (c : RequestChecks I) : Session P I :=
  if tradePartner = player then s
  else if ¬ c.reachable then s
  else if alreadyTraded s c tradeItem then s
  else if ¬ c.tradeable then s
  else internalStartTrade s player tradePartner tradeItem c.untradeable

/-- `house:startTrade`, the other caller: the partner owns no house and the transfer item is new,
so the partner is not the player and nobody offers the item. -/
def houseStartTrade (s : Session P I) (player tradePartner : P) (transferItem : I) :
    Session P I :=
  if tradePartner = player ∨ transferItem ∈ s.tradeItems then s
  else internalStartTrade s player tradePartner transferItem false

/-- One side of `internalCloseTrade`: the player's item leaves the registry and he is idle. -/
def clearTrade (s : Session P I) (p : P) : Session P I :=
  (s.eraseItem (s.players p).tradeItem).set p .idle

/-- `Game::internalCloseTrade`. -/
def internalCloseTrade (s : Session P I) (player : P) : Session P I :=
  let tradePartner := (s.players player).tradePartner
  if (∃ q ∈ tradePartner, (s.players q).tradeState = TRADE_TRANSFER) ∨
      (s.players player).tradeState = TRADE_TRANSFER then s
  else
    let s := clearTrade s player
    tradePartner.elim s (clearTrade s)

/-- What `playerAcceptTrade` reads outside the session: whether the partner is in line of sight,
whether the scripts consent, and whether the transfer passes its checks. -/
structure AcceptChecks where
  canThrow : Bool
  eventAccept : Bool
  feasible : Bool

/-- The guards of `playerAcceptTrade`, and the partner when they pass. -/
def acceptPartner (s : Session P I) (player : P) (c : AcceptChecks) : Option P :=
  if ((s.players player).tradeState = TRADE_ACKNOWLEDGE ∨
      (s.players player).tradeState = TRADE_INITIATED) ∧ c.canThrow then
    (s.players player).tradePartner
  else none

/-- The first write of `playerAcceptTrade`: `setTradeState(TRADE_ACCEPT)`. -/
def acceptState (s : Session P I) (player : P) : Session P I :=
  s.set player { s.players player with tradeState := TRADE_ACCEPT }

/-- The end of a trade in `playerAcceptTrade`: both items leave the registry and, whatever became of
the transfer, both players are idle. -/
def finishTrade (s : Session P I) (player tradePartner : P) : Session P I :=
  let s := (s.eraseItem (s.players player).tradeItem).eraseItem (s.players tradePartner).tradeItem
  (s.set player .idle).set tradePartner .idle

/-- `Game::playerAcceptTrade`. -/
def playerAcceptTrade (s : Session P I) (player : P) (c : AcceptChecks) : Session P I :=
  match acceptPartner s player c with
  | none => s
  | some tradePartner =>
    let s := acceptState s player
    if (s.players tradePartner).tradeState = TRADE_ACCEPT then
      if c.eventAccept then finishTrade s player tradePartner else internalCloseTrade s player
    else s

/-- The transfer that `playerAcceptTrade` makes, if it does: the player, his partner and the item of
each. A missing item fails the checks, as `internalAddItem` refuses a null item. -/
def transferred (s : Session P I) (player : P) (c : AcceptChecks) : Option (P × I × I) :=
  match acceptPartner s player c with
  | none => none
  | some tradePartner =>
    if ((acceptState s player).players tradePartner).tradeState = TRADE_ACCEPT ∧ c.eventAccept ∧
        c.feasible then
      match (s.players player).tradeItem, (s.players tradePartner).tradeItem with
      | some tradeItem1, some tradeItem2 => some (tradePartner, tradeItem1, tradeItem2)
      | _, _ => none
    else none

/-- The operations on the trade session. -/
inductive Op (P I : Type) where
  | request (player tradePartner : P) (tradeItem : I) (c : RequestChecks I)
  | houseStart (player tradePartner : P) (transferItem : I)
  | accept (player : P) (c : AcceptChecks)
  | close (player : P)

/-- The session after one operation. -/
def step (s : Session P I) : Op P I → Session P I
  | .request player tradePartner tradeItem c => playerRequestTrade s player tradePartner tradeItem c
  | .houseStart player tradePartner transferItem =>
    houseStartTrade s player tradePartner transferItem
  | .accept player c => playerAcceptTrade s player c
  | .close player => internalCloseTrade s player

end Operations

/-! ## The session invariant -/

section Records

variable {P I : Type} [DecidableEq P]

@[simp] theorem set_players_self (s : Session P I) (p : P) (r : PlayerTrade P I) :
    (s.set p r).players p = r := by simp [Session.set]

theorem set_players_of_ne (s : Session P I) {p q : P} (h : q ≠ p) (r : PlayerTrade P I) :
    (s.set p r).players q = s.players q := by simp [Session.set, h]

@[simp] theorem set_tradeItems (s : Session P I) (p : P) (r : PlayerTrade P I) :
    (s.set p r).tradeItems = s.tradeItems := rfl

/-- Setting the fields that a player has changes nothing. -/
theorem set_eq_self {s : Session P I} {p : P} {r : PlayerTrade P I} (h : s.players p = r) : s.set p r = s := by
  subst h
  simp [Session.set]

end Records

section Registry

variable {P I : Type} [DecidableEq I]

@[simp] theorem eraseItem_players (s : Session P I) (item : Option I) :
    (s.eraseItem item).players = s.players := rfl

/-- The registry keeps every entry but the one that is erased. -/
theorem lookup_eraseItem (s : Session P I) (item : Option I) (i : I) (p : P) :
    (s.eraseItem item).tradeItems.lookup i = some p ↔ item ≠ some i ∧ s.tradeItems.lookup i = some p := by
  cases item with
  | none => simp [Session.eraseItem]
  | some j =>
    by_cases e : i = j
    · subst e
      simp [Session.eraseItem]
    · simp [Session.eraseItem, AList.lookup_erase_ne e, Ne.symm e]

/-- **The session invariant.** A trading player and his partner have each other as partners; the
registry maps exactly the offered items, each to the one player who offers it; an idle player has
neither item nor partner. Between operations nobody is in `TRADE_TRANSFER`, nobody is his own
partner, and a player who only acknowledged has no item yet. -/
structure SessionInv (s : Session P I) : Prop where
  partners : ∀ p, (s.players p).tradeState ≠ TRADE_NONE →
    ∃ q, (s.players p).tradePartner = some q ∧ (s.players q).tradePartner = some p
  registry : ∀ i p, s.tradeItems.lookup i = some p ↔ (s.players p).tradeItem = some i
  idle : ∀ p, (s.players p).tradeState = TRADE_NONE →
    (s.players p).tradeItem = none ∧ (s.players p).tradePartner = none
  not_transfer : ∀ p, (s.players p).tradeState ≠ TRADE_TRANSFER
  partner_ne : ∀ p, (s.players p).tradePartner ≠ some p
  acknowledge : ∀ p, (s.players p).tradeState = TRADE_ACKNOWLEDGE →
    (s.players p).tradeItem = none

theorem sessionInv_init : SessionInv (Session.init : Session P I) where
  partners := by simp [Session.init, PlayerTrade.idle]
  registry := by simp [Session.init, PlayerTrade.idle]
  idle := by simp [Session.init, PlayerTrade.idle]
  not_transfer := by simp [Session.init, PlayerTrade.idle]
  partner_ne := by simp [Session.init, PlayerTrade.idle]
  acknowledge := by simp [Session.init, PlayerTrade.idle]

variable {s : Session P I}

/-- A player with a partner is trading. -/
theorem SessionInv.trading_of_partner (hs : SessionInv s) {p q : P}
    (h : (s.players p).tradePartner = some q) : (s.players p).tradeState ≠ TRADE_NONE := by
  intro hn
  simp [(hs.idle p hn).2] at h

/-- A player with a partner is his partner's partner. -/
theorem SessionInv.partner_symm (hs : SessionInv s) {p q : P}
    (h : (s.players p).tradePartner = some q) : (s.players q).tradePartner = some p := by
  obtain ⟨q', hq', hsym⟩ := hs.partners p (hs.trading_of_partner h)
  obtain rfl : q = q' := by simpa [h] using hq'
  exact hsym

/-- Nobody but his partner has a player as partner. -/
theorem SessionInv.eq_of_partner (hs : SessionInv s) {p q r : P}
    (h : (s.players p).tradePartner = some q) (hr : (s.players r).tradePartner = some q) : r = p := by
  have := (hs.partner_symm h).symm.trans (hs.partner_symm hr)
  exact (Option.some.inj this).symm

/-- A player without a partner is idle. -/
theorem SessionInv.eq_idle (hs : SessionInv s) {p : P} (h : (s.players p).tradePartner = none) :
    s.players p = .idle := by
  have hn : (s.players p).tradeState = TRADE_NONE := by
    by_contra hne
    obtain ⟨q, hq, -⟩ := hs.partners p hne
    simp [h] at hq
  have hi := (hs.idle p hn).1
  rcases hp : s.players p with ⟨st, pa, it⟩
  rw [hp] at h hn hi
  subst h hn hi
  rfl

end Registry

section Steps

variable {P I : Type} [DecidableEq P] [DecidableEq I] {s : Session P I}

/-- The fields of the partner after `internalStartTrade`. -/
def startedPartner (s : Session P I) (player tradePartner : P) : PlayerTrade P I :=
  if (s.players tradePartner).tradeState = TRADE_NONE then
    { s.players tradePartner with
      tradeState := TRADE_ACKNOWLEDGE
      tradePartner := some player }
  else s.players tradePartner

/-- The session in which `player` offers an item to `tradePartner`. -/
def started (s : Session P I) (player tradePartner : P) (tradeItem : I) : Session P I where
  players := Function.update
    (Function.update s.players player ⟨TRADE_INITIATED, some tradePartner, some tradeItem⟩)
    tradePartner (startedPartner s player tradePartner)
  tradeItems := s.tradeItems.insert tradeItem player

/-- The four things that an operation can do to a session: nothing, an offer, an accept that waits
for the partner's, and the end of a trade. -/
inductive Change (s : Session P I) (op : Op P I) : Session P I → Prop
  | same : Change s op s
  | start {p q : P} {i : I} (hne : q ≠ p) (hi : i ∉ s.tradeItems)
      (hp : (s.players p).tradeState = TRADE_NONE ∨
        (s.players p).tradeState = TRADE_ACKNOWLEDGE ∧ (s.players p).tradePartner = some q)
      (hq : (s.players q).tradeState = TRADE_NONE ∨ (s.players q).tradePartner = some p) :
      Change s op (started s p q i)
  | accept {p q : P} (c : AcceptChecks) (hop : op = .accept p c)
      (hp : (s.players p).tradeState = TRADE_ACKNOWLEDGE ∨
        (s.players p).tradeState = TRADE_INITIATED)
      (hq : (s.players p).tradePartner = some q) : Change s op (acceptState s p)
  | finish {p q : P} (hq : (s.players p).tradePartner = some q) : Change s op (finishTrade s p q)

/-- `internalStartTrade` does nothing or offers the item, where the player was idle or had
acknowledged this partner and the partner was idle or has this player. -/
theorem change_internalStartTrade (op : Op P I) {player tradePartner : P}
    (hne : tradePartner ≠ player) {i : I} (hi : i ∉ s.tradeItems) (u : Bool) :
    Change s op (internalStartTrade s player tradePartner i u) := by
  unfold internalStartTrade
  by_cases h1 : (s.players player).tradeState ≠ TRADE_NONE ∧
      ¬ ((s.players player).tradeState = TRADE_ACKNOWLEDGE ∧
        (s.players player).tradePartner = some tradePartner)
  · simpa only [if_pos h1] using .same
  by_cases h2 : (s.players tradePartner).tradeState ≠ TRADE_NONE ∧
      (s.players tradePartner).tradePartner ≠ some player
  · simpa only [if_neg h1, if_pos h2] using .same
  cases u with
  | true => simpa only [if_neg h1, if_neg h2, if_true] using .same
  | false =>
    have hstart : Change s op (started s player tradePartner i) :=
      .start hne hi (by tauto) (by tauto)
    convert hstart using 1
    simp only [if_neg h1, if_neg h2, Bool.false_eq_true, if_false, Session.set,
      Function.update_of_ne hne, started, startedPartner]
    by_cases h3 : (s.players tradePartner).tradeState = TRADE_NONE
    · simp only [if_pos h3]
    · simp only [if_neg h3, Session.mk.injEq, and_true]
      rw [← Function.update_of_ne hne (⟨TRADE_INITIATED, some tradePartner, some i⟩ :
        PlayerTrade P I) s.players, Function.update_eq_self]

/-- **An offer keeps the invariant**, to a partner who is not the player and of an item that nobody
offers. -/
theorem sessionInv_started (hs : SessionInv s) {p q : P} (hne : q ≠ p) {i : I} (hi : i ∉ s.tradeItems)
    (hp : (s.players p).tradeState = TRADE_NONE ∨
      (s.players p).tradeState = TRADE_ACKNOWLEDGE ∧ (s.players p).tradePartner = some q)
    (hq : (s.players q).tradeState = TRADE_NONE ∨ (s.players q).tradePartner = some p) :
    SessionInv (started s p q i) := by
  unfold started
  have hpi : (s.players p).tradeItem = none :=
    hp.elim (fun h => (hs.idle p h).1) (fun h => hs.acknowledge p h.1)
  have hpp : ∀ r, (s.players p).tradePartner = some r → r = q := by
    intro r hr
    rcases hp with hn | ⟨-, hpq⟩
    · exact absurd hn (hs.trading_of_partner hr)
    · exact (Option.some.inj (hpq.symm.trans hr)).symm
  have hqp : ∀ r, (s.players q).tradePartner = some r → r = p := by
    intro r hr
    rcases hq with hn | hq
    · exact absurd hn (hs.trading_of_partner hr)
    · exact (Option.some.inj (hq.symm.trans hr)).symm
  have hnoi : ∀ r, (s.players r).tradeItem ≠ some i := by
    intro r hr
    exact hi (AList.lookup_isSome.1 (by simp [(hs.registry i r).2 hr]))
  have hsp : (startedPartner s p q).tradePartner = some p ∧
      (startedPartner s p q).tradeItem = (s.players q).tradeItem ∧
      (startedPartner s p q).tradeState ≠ TRADE_NONE ∧
      (startedPartner s p q).tradeState ≠ TRADE_TRANSFER ∧
      ((startedPartner s p q).tradeState = TRADE_ACKNOWLEDGE →
        (s.players q).tradeItem = none) := by
    unfold startedPartner
    split_ifs with hn
    · exact ⟨rfl, rfl, nofun, nofun, fun _ => (hs.idle q hn).1⟩
    · exact ⟨hq.resolve_left hn, rfl, hn, hs.not_transfer q, hs.acknowledge q⟩
  obtain ⟨hsp1, hsp2, hsp3, hsp4, hsp5⟩ := hsp
  refine ⟨fun r hr => ?_, fun j r => ?_, fun r hr => ?_, fun r => ?_, fun r => ?_, fun r hr => ?_⟩
  · by_cases hrq : r = q
    · subst hrq
      exact ⟨p, by simp [hsp1], by simp [Function.update_of_ne hne.symm]⟩
    by_cases hrp : r = p
    · subst hrp
      exact ⟨q, by simp [Function.update_of_ne hrq], by simp [hsp1]⟩
    simp only [Function.update_of_ne hrq, Function.update_of_ne hrp] at hr ⊢
    obtain ⟨t, ht, hsym⟩ := hs.partners r hr
    have htq : t ≠ q := fun e => hrp (hqp r (e ▸ hsym))
    have htp : t ≠ p := fun e => hrq (hpp r (e ▸ hsym))
    exact ⟨t, ht, by simpa [Function.update_of_ne htq, Function.update_of_ne htp] using hsym⟩
  · have hitem : (Function.update (Function.update s.players p
        ⟨TRADE_INITIATED, some q, some i⟩) q (startedPartner s p q) r).tradeItem =
        if r = p then some i else (s.players r).tradeItem := by
      by_cases hrq : r = q
      · subst hrq
        simp [hsp2, hne]
      · by_cases hrp : r = p
        · subst hrp
          simp [Function.update_of_ne hrq]
        · simp [Function.update_of_ne hrq, hrp]
    rw [hitem]
    by_cases hj : j = i
    · subst hj
      rw [AList.lookup_insert]
      by_cases hrp : r = p
      · simp [hrp]
      · simp [hrp, Ne.symm hrp, hnoi r]
    · rw [AList.lookup_insert_ne hj, hs.registry j r]
      by_cases hrp : r = p
      · simp [hrp, hpi, Ne.symm hj]
      · simp [hrp]
  · by_cases hrq : r = q
    · subst hrq
      exact absurd (by simpa using hr) hsp3
    by_cases hrp : r = p
    · subst hrp
      simp [Function.update_of_ne hrq] at hr
    simp only [Function.update_of_ne hrq, Function.update_of_ne hrp] at hr ⊢
    exact hs.idle r hr
  · by_cases hrq : r = q
    · subst hrq
      simpa using hsp4
    by_cases hrp : r = p
    · subst hrp
      simp [Function.update_of_ne hrq]
    simpa [Function.update_of_ne hrq, Function.update_of_ne hrp] using hs.not_transfer r
  · by_cases hrq : r = q
    · subst hrq
      simpa [hsp1] using hne.symm
    by_cases hrp : r = p
    · subst hrp
      simpa [Function.update_of_ne hrq] using hne
    simpa [Function.update_of_ne hrq, Function.update_of_ne hrp] using hs.partner_ne r
  · by_cases hrq : r = q
    · subst hrq
      simpa [hsp2] using hsp5 (by simpa using hr)
    by_cases hrp : r = p
    · subst hrp
      simp [Function.update_of_ne hrq] at hr
    simp only [Function.update_of_ne hrq, Function.update_of_ne hrp] at hr ⊢
    exact hs.acknowledge r hr

/-- Setting a trading player's state to `TRADE_ACCEPT` keeps the invariant. -/
theorem sessionInv_acceptState (hs : SessionInv s) {p q : P}
    (hq : (s.players p).tradePartner = some q) : SessionInv (acceptState s p) := by
  have hrec : ∀ r, ((acceptState s p).players r).tradePartner = (s.players r).tradePartner ∧
      ((acceptState s p).players r).tradeItem = (s.players r).tradeItem ∧
      (r ≠ p → (acceptState s p).players r = s.players r) := by
    intro r
    by_cases hrp : r = p
    · subst hrp
      simp [acceptState]
    · simp [acceptState, set_players_of_ne s hrp]
  have hst : ((acceptState s p).players p).tradeState = TRADE_ACCEPT := by simp [acceptState]
  refine ⟨fun r hr => ?_, fun i r => ?_, fun r hr => ?_, fun r hr => ?_, fun r => ?_,
    fun r hr => ?_⟩
  · obtain ⟨t, ht, hsym⟩ : ∃ t, (s.players r).tradePartner = some t ∧
        (s.players t).tradePartner = some r := by
      by_cases hrp : r = p
      · subst hrp
        exact ⟨q, hq, hs.partner_symm hq⟩
      · exact hs.partners r (by rwa [(hrec r).2.2 hrp] at hr)
    exact ⟨t, by rw [(hrec r).1, ht], by rw [(hrec t).1, hsym]⟩
  · rw [(hrec r).2.1]
    exact hs.registry i r
  · have hrp : r ≠ p := by
      rintro rfl
      simp [hst] at hr
    rw [(hrec r).2.2 hrp] at hr ⊢
    exact hs.idle r hr
  · have hrp : r ≠ p := by
      rintro rfl
      simp [hst] at hr
    rw [(hrec r).2.2 hrp] at hr
    exact hs.not_transfer r hr
  · rw [(hrec r).1]
    exact hs.partner_ne r
  · have hrp : r ≠ p := by
      rintro rfl
      simp [hst] at hr
    rw [(hrec r).2.2 hrp] at hr ⊢
    exact hs.acknowledge r hr

/-- The players who do not end their trade keep their fields. -/
theorem finishTrade_players (s : Session P I) (a b r : P) :
    (finishTrade s a b).players r = if r = a ∨ r = b then .idle else s.players r := by
  by_cases hb : r = b
  · subst hb
    simp [finishTrade]
  · by_cases ha : r = a
    · subst ha
      simp [finishTrade, set_players_of_ne _ hb]
    · simp [finishTrade, set_players_of_ne _ hb, set_players_of_ne _ ha, ha, hb]

/-- **Ending a trade keeps the invariant**: both partners become idle and their items leave the
registry. -/
theorem sessionInv_finishTrade (hs : SessionInv s) {p q : P}
    (hq : (s.players p).tradePartner = some q) : SessionInv (finishTrade s p q) := by
  have hne : q ≠ p := fun e => hs.partner_ne p (e ▸ hq)
  have hother : ∀ r t, ¬ (r = p ∨ r = q) → (s.players r).tradePartner = some t →
      ¬ (t = p ∨ t = q) := by
    rintro r t hr ht (rfl | rfl)
    · exact hr (Or.inr (Option.some.inj ((hs.partner_symm ht).symm.trans hq)))
    · exact hr (Or.inl (hs.eq_of_partner hq ht))
  refine ⟨fun r hr => ?_, fun i r => ?_, fun r hr => ?_, fun r => ?_, fun r => ?_, fun r hr => ?_⟩
  · rw [finishTrade_players s p q r] at hr ⊢
    split_ifs at hr ⊢ with hpq
    · simp [PlayerTrade.idle] at hr
    · obtain ⟨t, ht, hsym⟩ := hs.partners r hr
      exact ⟨t, ht, by rw [finishTrade_players s p q t, if_neg (hother r t hpq ht), hsym]⟩
  · have hreg : (finishTrade s p q).tradeItems.lookup i = some r ↔
        (s.players q).tradeItem ≠ some i ∧ (s.players p).tradeItem ≠ some i ∧
          (s.players r).tradeItem = some i := by
      simp only [finishTrade, set_tradeItems, lookup_eraseItem, hs.registry i r]
    rw [hreg, finishTrade_players s p q r]
    split_ifs with hpq
    · refine ⟨fun h => ?_, fun h => by simp [PlayerTrade.idle] at h⟩
      rcases hpq with rfl | rfl
      · exact absurd h.2.2 h.2.1
      · exact absurd h.2.2 h.1
    · refine ⟨fun h => h.2.2, fun h => ⟨fun hqi => hpq (Or.inr ?_), fun hpi => hpq (Or.inl ?_), h⟩⟩
      · exact Option.some.inj (((hs.registry i r).2 h).symm.trans ((hs.registry i q).2 hqi))
      · exact Option.some.inj (((hs.registry i r).2 h).symm.trans ((hs.registry i p).2 hpi))
  · rw [finishTrade_players s p q r] at hr ⊢
    split_ifs at hr ⊢
    · exact ⟨rfl, rfl⟩
    · exact hs.idle r hr
  · rw [finishTrade_players s p q r]
    split_ifs
    · simp [PlayerTrade.idle]
    · exact hs.not_transfer r
  · rw [finishTrade_players s p q r]
    split_ifs
    · simp [PlayerTrade.idle]
    · exact hs.partner_ne r
  · rw [finishTrade_players s p q r] at hr ⊢
    split_ifs at hr ⊢
    · simp [PlayerTrade.idle] at hr
    · exact hs.acknowledge r hr

/-- Closing the trade of a player with a partner ends it for both. -/
theorem internalCloseTrade_eq_finishTrade (hs : SessionInv s) {p q : P}
    (hq : (s.players p).tradePartner = some q) : internalCloseTrade s p = finishTrade s p q := by
  have hne : q ≠ p := fun e => hs.partner_ne p (e ▸ hq)
  have hguard : ¬ ((∃ q ∈ (s.players p).tradePartner,
      (s.players q).tradeState = TRADE_TRANSFER) ∨
      (s.players p).tradeState = TRADE_TRANSFER) := by
    rintro (⟨t, -, ht⟩ | h)
    · exact hs.not_transfer t ht
    · exact hs.not_transfer p h
  simp only [internalCloseTrade, if_neg hguard]
  simp only [hq, Option.elim_some, clearTrade, finishTrade, set_players_of_ne _ hne,
    eraseItem_players]
  rfl

/-- Closing the trade of an idle player changes nothing. -/
theorem internalCloseTrade_of_idle (hs : SessionInv s) {p : P}
    (hq : (s.players p).tradePartner = none) : internalCloseTrade s p = s := by
  have hidle := hs.eq_idle hq
  have hclear : clearTrade s p = s := by
    simp only [clearTrade, hidle]
    exact set_eq_self hidle
  simp [internalCloseTrade, hidle, PlayerTrade.idle, hclear]

/-- A player who waits for the partner's accept leaves the trade as he would have before. -/
theorem finishTrade_acceptState (s : Session P I) {p q : P} (hne : q ≠ p) :
    finishTrade (acceptState s p) p q = finishTrade s p q := by
  simp only [finishTrade, acceptState, set_players_self, set_players_of_ne _ hne]
  simp [Session.set, Session.eraseItem]

omit [DecidableEq P] [DecidableEq I] in
/-- A player whose accept passes its guards has the partner that the guards give, and he has
acknowledged or made an offer. -/
theorem of_acceptPartner {p q : P} {c : AcceptChecks} (h : acceptPartner s p c = some q) :
    ((s.players p).tradeState = TRADE_ACKNOWLEDGE ∨ (s.players p).tradeState = TRADE_INITIATED) ∧
      (s.players p).tradePartner = some q := by
  unfold acceptPartner at h
  split_ifs at h with hc
  exact ⟨hc.1, h⟩

omit [DecidableEq P] in
/-- An item that passes the loop of `playerRequestTrade` is not registered. -/
theorem notMem_of_not_alreadyTraded {c : RequestChecks I} {i : I}
    (h : ¬ alreadyTraded s c i = true) : i ∉ s.tradeItems := by
  intro hi
  refine h (List.any_eq_true.2 ⟨i, AList.mem_keys.1 hi, ?_⟩)
  simp

/-- Closing a trade does nothing or ends it. -/
theorem change_internalCloseTrade (hs : SessionInv s) (op : Op P I) (p : P) :
    Change s op (internalCloseTrade s p) := by
  cases hq : (s.players p).tradePartner with
  | none => simpa only [internalCloseTrade_of_idle hs hq] using .same
  | some q => simpa only [internalCloseTrade_eq_finishTrade hs hq] using .finish hq

/-- **What an operation can do.** From a state with the invariant, every operation makes one of the
four changes. -/
theorem change_step (hs : SessionInv s) (op : Op P I) : Change s op (step s op) := by
  cases op with
  | request p q i c =>
    simp only [step, playerRequestTrade]
    by_cases hpq : q = p
    · simpa only [if_pos hpq] using .same
    by_cases hreg : alreadyTraded s c i = true
    · simpa only [if_neg hpq, if_pos hreg, ite_self] using .same
    have hstart := change_internalStartTrade (.request p q i c) hpq
      (notMem_of_not_alreadyTraded hreg) c.untradeable
    split_ifs
    · exact hstart
    · exact .same
    · exact .same
  | houseStart p q i =>
    simp only [step, houseStartTrade]
    split_ifs with h
    · exact .same
    · obtain ⟨hpq, hi⟩ := not_or.1 h
      exact change_internalStartTrade _ hpq hi _
  | accept p c =>
    simp only [step, playerAcceptTrade]
    cases ha : acceptPartner s p c with
    | none => exact .same
    | some q =>
      obtain ⟨hp, hq⟩ := of_acceptPartner ha
      have hne : q ≠ p := fun e => hs.partner_ne p (e ▸ hq)
      have hq' : ((acceptState s p).players p).tradePartner = some q := by simp [acceptState, hq]
      have hclose := internalCloseTrade_eq_finishTrade (sessionInv_acceptState hs hq) hq'
      dsimp only
      rw [hclose, ite_self, finishTrade_acceptState s hne]
      split_ifs
      · exact .finish hq
      · exact .accept c rfl hp hq
  | close p => exact change_internalCloseTrade hs _ p

/-- **Every operation keeps the session invariant.** -/
theorem sessionInv_step (hs : SessionInv s) (op : Op P I) : SessionInv (step s op) := by
  have h := change_step hs op
  generalize step s op = s' at h ⊢
  cases h with
  | same => exact hs
  | start hne hi hp hq => exact sessionInv_started hs hne hi hp hq
  | accept c hop hp hq => exact sessionInv_acceptState hs hq
  | finish hq => exact sessionInv_finishTrade hs hq

/-- The invariant holds in every reachable state. -/
theorem sessionInv_run (ops : List (Op P I)) : SessionInv (Runs.run step Session.init ops) :=
  Runs.invariant_of_step (P := SessionInv) step (fun _ op hs => sessionInv_step hs op)
    sessionInv_init ops

/-- **The trade session invariant.** Over any interleaving of requests, accepts and cancels by any
players: a player whose state is not `TRADE_NONE` has a partner whose partner he is; the registry
has as keys exactly the offered items, each mapped to a player who offers it, and no item is offered
by two players; and a player in `TRADE_NONE` has neither item nor partner. -/
theorem session_invariant (ops : List (Op P I)) :
    let s := Runs.run step (Session.init : Session P I) ops
    (∀ p, (s.players p).tradeState ≠ TRADE_NONE →
      ∃ q, (s.players p).tradePartner = some q ∧ (s.players q).tradePartner = some p) ∧
    (∀ i, i ∈ s.tradeItems ↔ ∃ p, (s.players p).tradeItem = some i) ∧
    (∀ i p, s.tradeItems.lookup i = some p → (s.players p).tradeItem = some i) ∧
    (∀ i p q, (s.players p).tradeItem = some i → (s.players q).tradeItem = some i → p = q) ∧
    (∀ p, (s.players p).tradeState = TRADE_NONE →
      (s.players p).tradeItem = none ∧ (s.players p).tradePartner = none) := by
  intro s
  have hs : SessionInv s := sessionInv_run ops
  refine ⟨hs.partners, fun i => ?_, fun i p => (hs.registry i p).1, fun i p q hp hq => ?_, hs.idle⟩
  · rw [← AList.lookup_isSome, Option.isSome_iff_exists]
    exact exists_congr fun p => hs.registry i p
  · exact Option.some.inj (((hs.registry i p).2 hp).symm.trans ((hs.registry i q).2 hq))

end Steps

end TiabloServer.Trade
