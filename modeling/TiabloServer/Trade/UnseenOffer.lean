import TiabloServer.Trade.Session

/-!
# Unseen offers

Whether the two accepts behind a transfer were both made when both offers stood. A player may
accept as soon as he has made his own offer: `playerAcceptTrade` takes `TRADE_INITIATED` for an
answer, and the partner's later counter offer leaves him in `TRADE_ACCEPT`. The partner's accept
then transfers an item that the first player has never seen.

## Main definitions

* `Trade.SeenOffers` — a transfer at the end of a run rests on accepts of the items transferred.
* `Trade.AnswersOffer` — an accept is made to a partner who has made his offer.

## Main results

* `Trade.seenOffers_of_answersOffer` — in a run of such accepts nobody trades on an unseen offer.
* `Trade.not_seenOffers_accept_first` — the run that does.
-/

namespace TiabloServer.Trade

open TradeState

variable {P I : Type} [DecidableEq P] [DecidableEq I] {s : Session P I}

/-- The session after the operations `ops`, from one in which nobody trades. -/
def after (ops : List (Op P I)) : Session P I := Runs.run step Session.init ops

/-- When an accept of `p` after the run `ops` transfers `p`'s item `i` for `q`'s item `j`, both
items were offered at that accept, and both were at the accept of `q` that it answers: the one that
took `q` to `TRADE_ACCEPT`, where he has been since. -/
def SeenOffers (ops : List (Op P I)) (p : P) (c : AcceptChecks) : Prop :=
  ∀ q i j, transferred (after ops) p c = some (q, i, j) →
    (((after ops).players p).tradeItem = some i ∧ ((after ops).players q).tradeItem = some j) ∧
    ∃ ops₁ c' ops₂, ops = ops₁ ++ .accept q c' :: ops₂ ∧
      (∀ m, m <+: ops₂ → ((after (ops₁ ++ .accept q c' :: m)).players q).tradeState = TRADE_ACCEPT) ∧
      ((after ops₁).players p).tradeItem = some i ∧ ((after ops₁).players q).tradeItem = some j

/-- An accept is made to a partner, if to any, who has made his offer. -/
def AnswersOffer (s : Session P I) : Op P I → Prop
  | .accept p _ => ∀ q, (s.players p).tradePartner = some q → (s.players q).tradeItem ≠ none
  | _ => True

/-! ## A player who waits in `TRADE_ACCEPT` -/

/-- Only his own accept takes a player to `TRADE_ACCEPT`. -/
theorem accept_of_entered (hs : SessionInv s) {op : Op P I} {q : P}
    (hbefore : (s.players q).tradeState ≠ TRADE_ACCEPT)
    (hafter : ((step s op).players q).tradeState = TRADE_ACCEPT) :
    ∃ c r, op = .accept q c ∧ (s.players q).tradePartner = some r ∧ step s op = acceptState s q := by
  have h := change_step hs op
  generalize step s op = s' at h hafter ⊢
  cases h with
  | same => exact absurd hafter hbefore
  | @start a b i hne hi ha hb =>
    exfalso
    by_cases hqb : q = b
    · subst hqb
      simp only [started, Function.update_self, startedPartner] at hafter
      split_ifs at hafter
      exact hbefore hafter
    · by_cases hqa : q = a
      · subst hqa
        simp [started, Function.update_of_ne hqb] at hafter
      · simp only [started, Function.update_of_ne hqb, Function.update_of_ne hqa] at hafter
        exact hbefore hafter
  | @accept a b c hop ha hb =>
    by_cases hqa : q = a
    · subst hqa
      exact ⟨c, b, hop, hb, rfl⟩
    · rw [acceptState, set_players_of_ne _ hqa] at hafter
      exact absurd hafter hbefore
  | @finish a b hb =>
    rw [finishTrade_players] at hafter
    by_cases hq : q = a ∨ q = b
    · simp [PlayerTrade.idle, hq] at hafter
    · rw [if_neg hq] at hafter
      exact absurd hafter hbefore

/-- **Frame.** While a player stays in `TRADE_ACCEPT`, an operation changes neither his fields nor
the item that his partner has offered. -/
theorem frame_step (hs : SessionInv s) {op : Op P I} {p q : P} {i : I}
    (hbefore : (s.players q).tradeState = TRADE_ACCEPT) (hafter : ((step s op).players q).tradeState = TRADE_ACCEPT)
    (hp : (s.players q).tradePartner = some p) (hi : (s.players p).tradeItem = some i) :
    (step s op).players q = s.players q ∧ ((step s op).players p).tradeItem = some i := by
  have h := change_step hs op
  generalize step s op = s' at h hafter ⊢
  cases h with
  | same => exact ⟨rfl, hi⟩
  | @start a b j hne hj ha hb =>
    have hqa : q ≠ a := by
      rintro rfl
      simp [hbefore] at ha
    have hpa : p ≠ a := by
      rintro rfl
      have hnone := ha.elim (fun h => (hs.idle p h).1) (fun h => hs.acknowledge p h.1)
      simp [hi] at hnone
    have hitem : ∀ r, r ≠ a → ((started s a b j).players r).tradeItem = (s.players r).tradeItem := by
      intro r hr
      by_cases hrb : r = b
      · subst hrb
        simp only [started, Function.update_self, startedPartner]
        split_ifs <;> rfl
      · simp [started, Function.update_of_ne hrb, Function.update_of_ne hr]
    refine ⟨?_, by rw [hitem p hpa, hi]⟩
    by_cases hqb : q = b
    · subst hqb
      simp [started, startedPartner, hbefore]
    · simp [started, Function.update_of_ne hqb, Function.update_of_ne hqa]
  | @accept a b c hop ha hb =>
    have hqa : q ≠ a := by
      rintro rfl
      simp [hbefore] at ha
    refine ⟨set_players_of_ne _ hqa _, ?_⟩
    by_cases hpa : p = a
    · subst hpa
      simpa [acceptState] using hi
    · rwa [acceptState, set_players_of_ne _ hpa]
  | @finish a b hb =>
    have hq : ¬ (q = a ∨ q = b) := by
      intro hq
      rw [finishTrade_players, if_pos hq] at hafter
      simp [PlayerTrade.idle] at hafter
    have hpn : ¬ (p = a ∨ p = b) := by
      rintro (rfl | rfl)
      · exact hq (Or.inr (Option.some.inj ((hs.partner_symm hp).symm.trans hb)))
      · exact hq (Or.inl (hs.eq_of_partner hb hp))
    rw [finishTrade_players, finishTrade_players, if_neg hq, if_neg hpn]
    exact ⟨rfl, hi⟩

/-- The frame over a run throughout which the player stays in `TRADE_ACCEPT`. -/
theorem frame_run (hs : SessionInv s) (ops : List (Op P I)) {p q : P} {i : I}
    (hacc : ∀ m, m <+: ops → ((Runs.run step s m).players q).tradeState = TRADE_ACCEPT)
    (hp : (s.players q).tradePartner = some p) (hi : (s.players p).tradeItem = some i) :
    (Runs.run step s ops).players q = s.players q ∧ ((Runs.run step s ops).players p).tradeItem = some i := by
  induction ops generalizing s with
  | nil => exact ⟨rfl, hi⟩
  | cons op ops ih =>
    have h0 := hacc [] List.nil_prefix
    have h1 := hacc [op] (by simp)
    obtain ⟨hq, hitem⟩ := frame_step hs h0 h1 hp hi
    obtain ⟨hq', hitem'⟩ := ih (sessionInv_step hs op)
      (fun m hm => hacc (op :: m) (List.cons_prefix_cons.2 ⟨rfl, hm⟩)) (by rw [hq, hp]) hitem
    exact ⟨by rw [Runs.run_cons, hq', hq], hitem'⟩

/-! ## Transfers -/

/-- A transfer is between partners, of their items, and the partner was in `TRADE_ACCEPT`. -/
theorem of_transferred (hs : SessionInv s) {p q : P} {c : AcceptChecks} {i j : I}
    (h : transferred s p c = some (q, i, j)) :
    (s.players p).tradePartner = some q ∧ (s.players q).tradeState = TRADE_ACCEPT ∧
      (s.players p).tradeItem = some i ∧ (s.players q).tradeItem = some j := by
  unfold transferred at h
  cases ha : acceptPartner s p c with
  | none => simp [ha] at h
  | some t =>
    obtain ⟨-, ht⟩ := of_acceptPartner ha
    have hne : t ≠ p := fun e => hs.partner_ne p (e ▸ ht)
    rw [ha] at h
    dsimp only at h
    rw [acceptState, set_players_of_ne _ hne] at h
    split_ifs at h with hacc
    split at h
    · next i' j' hi hj =>
      obtain ⟨rfl, rfl, rfl⟩ : t = q ∧ i' = i ∧ j' = j := by simpa using h
      exact ⟨ht, hacc.1, hi, hj⟩
    · exact absurd h (by simp)

/-- **No trade on an unseen offer, when every accept answers an offer.** In every run whose accepts
are all made to partners who have made their offers, whenever an accept transfers two items, both it
and the partner's accept were made when both players offered these items.

**Proof sketch.** The partner `q` is in `TRADE_ACCEPT` at the end, so by `Runs.exists_onset` there
is a last step that took him there, and it is his own accept. His partner had offered an item then,
and by the frame neither `q`'s fields nor that item changed since; so these are the items
transferred. -/
theorem seenOffers_of_answersOffer (ops : List (Op P I))
    (h : Runs.Meets step AnswersOffer Session.init ops) (p : P) (c : AcceptChecks) :
    SeenOffers ops p c := by
  intro q i j htr
  obtain ⟨hpq, hacc, hi, hj⟩ := of_transferred (sessionInv_run ops) htr
  refine ⟨⟨hi, hj⟩, ?_⟩
  have h0 : ¬ ((Session.init : Session P I).players q).tradeState = TRADE_ACCEPT := nofun
  obtain ⟨ops₁, op, ops₂, rfl, hbefore, hsince⟩ :=
    Runs.exists_onset step (P := fun s => (s.players q).tradeState = TRADE_ACCEPT) h0 hacc
  have hs₁ : SessionInv (after ops₁) := sessionInv_run ops₁
  have hentered : ((step (after ops₁) op).players q).tradeState = TRADE_ACCEPT := by
    simpa [after] using hsince [] List.nil_prefix
  obtain ⟨c', r, rfl, hr, hstep⟩ := accept_of_entered hs₁ hbefore hentered
  refine ⟨ops₁, c', ops₂, rfl, hsince, ?_⟩
  -- the accept leaves both players' items as they were
  have hne : r ≠ q := fun e => hs₁.partner_ne q (e ▸ hr)
  obtain ⟨k, hk⟩ : ∃ k, ((after ops₁).players r).tradeItem = some k :=
    Option.ne_none_iff_exists'.1 (((Runs.meets_append step).1 h).2.1 r hr)
  have hq₂ : ((step (after ops₁) (.accept q c')).players q).tradePartner = some r ∧
      ((step (after ops₁) (.accept q c')).players q).tradeItem =
        ((after ops₁).players q).tradeItem := by
    rw [hstep]
    simp [acceptState, hr]
  have hk₂ : ((step (after ops₁) (.accept q c')).players r).tradeItem = some k := by
    rw [hstep, acceptState, set_players_of_ne _ hne, hk]
  -- and nothing has changed since
  obtain ⟨hq, hitem⟩ := frame_run (sessionInv_step hs₁ (.accept q c')) ops₂
    (fun m hm => by simpa [after] using hsince m hm) hq₂.1 hk₂
  have hend : after (ops₁ ++ .accept q c' :: ops₂) =
      Runs.run step (step (after ops₁) (.accept q c')) ops₂ := by simp [after]
  have hqp : ((after (ops₁ ++ .accept q c' :: ops₂)).players q).tradePartner = some p :=
    (sessionInv_run _).partner_symm hpq
  have hrp : r = p := by
    rw [hend, hq, hq₂.1] at hqp
    exact Option.some.inj hqp
  subst hrp
  refine ⟨?_, ?_⟩
  · have hi' : ((after (ops₁ ++ .accept q c' :: ops₂)).players r).tradeItem = some i := hi
    rw [hend, hitem] at hi'
    exact hk.trans hi'
  · have hj' : ((after (ops₁ ++ .accept q c' :: ops₂)).players q).tradeItem = some j := hj
    rwa [hend, hq, hq₂.2] at hj'

/-- The rule applied to a trade in which both players offer before they accept. -/
theorem seenOffers_offers_first :
    SeenOffers (P := ℕ) (I := ℕ) [.request 1 2 10 ⟨true, true, fun _ _ => false, false⟩,
      .request 2 1 20 ⟨true, true, fun _ _ => false, false⟩, .accept 1 ⟨true, true, true⟩]
      2 ⟨true, true, true⟩ := by
  apply seenOffers_of_answersOffer
  refine ⟨trivial, trivial, fun q hq => ?_, trivial⟩
  obtain rfl : 2 = q := Option.some.inj hq
  decide

/-- **A trade on an unseen offer.** Player 1 offers item 10 and accepts at once; player 2 then makes
his counter offer of item 20 and accepts it himself. His accept transfers both items, but when
player 1 accepted there was no counter offer. -/
theorem not_seenOffers_accept_first :
    ¬ SeenOffers (P := ℕ) (I := ℕ) [.request 1 2 10 ⟨true, true, fun _ _ => false, false⟩,
      .accept 1 ⟨true, true, true⟩, .request 2 1 20 ⟨true, true, fun _ _ => false, false⟩]
      2 ⟨true, true, true⟩ := by
  intro h
  obtain ⟨-, ops₁, c, ops₂, heq, -, hi, -⟩ := h 1 20 10 (by decide)
  -- the only accept of player 1 follows his own request
  have hops₁ : ops₁ = [.request 1 2 10 ⟨true, true, fun _ _ => false, false⟩] := by
    rcases ops₁ with _ | ⟨a, _ | ⟨b, _ | ⟨d, l⟩⟩⟩ <;> simp_all
  rw [hops₁] at hi
  exact absurd hi (by decide)

end TiabloServer.Trade
