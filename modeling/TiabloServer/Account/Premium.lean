import TiabloServer.Lib.Runs

/-!
# Premium days

`Account::addPremiumDays` (`account/account.cpp`) adds days to the days that are left, as they were
counted when the account was loaded or when days were last added, and to that the part of a day that
is left now. Times are seconds; a product of days and seconds that is no `int` has no defined value.

## Main definitions

* `Account.AddsExactly` — a call adds the time of its days, and nothing else.
* `Account.Counted` — the days that are counted as left are left.

## Main results

* `Account.run_addsExactly` — all calls of a run are exact whose days are counted right.
-/

namespace TiabloServer.Account

/-! ## The functions of the source -/

/-- What an account knows of its premium time. -/
structure Premium where
  premiumRemainingDays : ℕ
  premiumLastDay : ℤ
  premiumDaysPurchased : ℕ
  deriving DecidableEq

/-- `AccountRepositoryDB::load` with `setupLoyaltyInfo`, of a row with `lastday` and
`premdays_purchased`. -/
def load (now lastday : ℤ) (premiumDaysPurchased : ℕ) : Premium :=
  let premiumRemainingDays := if lastday > now then ((lastday - now) / 86400 % 2 ^ 32).toNat else 0
  { premiumRemainingDays := premiumRemainingDays
    premiumLastDay := lastday
    premiumDaysPurchased := max premiumDaysPurchased premiumRemainingDays }

/-- `Account::setPremiumDays`. -/
def setPremiumDays (now days : ℤ) (s : Premium) : Option Premium :=
  if days * 86400 < -2 ^ 31 ∨ 2 ^ 31 ≤ days * 86400 then none
  else if days ≤ 0 then some { s with premiumLastDay := 0, premiumRemainingDays := 0 }
  else some { s with premiumRemainingDays := days.toNat, premiumLastDay := now + days * 86400 }

/-- `Account::addPremiumDays`. The sum of the days is one of 32 bits. -/
def addPremiumDays (now days : ℤ) (s : Premium) : Option Premium :=
  let timeLeft := max 0 ((s.premiumLastDay - now).tmod 86400)
  (setPremiumDays now ((s.premiumRemainingDays + days).bmod (2 ^ 32)) s).map fun s =>
    { s with
      premiumDaysPurchased := ((s.premiumDaysPurchased + days) % 2 ^ 32).toNat
      premiumLastDay := if timeLeft > 0 then s.premiumLastDay + timeLeft else s.premiumLastDay }

/-- A call of `addPremiumDays`, with the time at which it comes. -/
structure DaysCall where
  now : ℤ
  days : ℤ

/-- An account goes through a call. -/
def addDays (s : Option Premium) (c : DaysCall) : Option Premium := s.bind (addPremiumDays c.now c.days)

/-! ## What a call adds -/

/-- The premium time is over after exactly the days that are added: after those that are left, or
from now on. -/
def AddsExactly (s : Premium) (c : DaysCall) : Prop :=
  ∃ s', addPremiumDays c.now c.days s = some s' ∧
    s'.premiumLastDay =
      if s.premiumLastDay > c.now then s.premiumLastDay + c.days * 86400
      else if c.days = 0 then 0
      else c.now + c.days * 86400

/-- The days of a call: none are taken away, and their time is an `int`. -/
def DaysCall.InRange (c : DaysCall) : Prop := 0 ≤ c.days ∧ c.days * 86400 < 2 ^ 31

/-- The whole days that are left. -/
def wholeDays (s : Premium) (now : ℤ) : ℤ :=
  if s.premiumLastDay > now then (s.premiumLastDay - now) / 86400 else 0

/-- The days that are counted as left are left at the time of the call, there are some with those
that are added, if any time is left, and their time is an `int`. -/
def Counted (s : Premium) (c : DaysCall) : Prop :=
  (s.premiumRemainingDays : ℤ) = wholeDays s c.now ∧
    (s.premiumLastDay > c.now → 0 < wholeDays s c.now + c.days) ∧
    (wholeDays s c.now + c.days) * 86400 < 2 ^ 31

theorem timeLeft_eq (s : Premium) (now : ℤ) :
    max 0 ((s.premiumLastDay - now).tmod 86400) =
      if s.premiumLastDay > now then s.premiumLastDay - now - wholeDays s now * 86400 else 0 := by
  unfold wholeDays
  split_ifs with h
  · rw [Int.tmod_eq_emod_of_nonneg (by omega)]
    omega
  · have hneg : (s.premiumLastDay - now).tmod 86400 ≤ 0 := by
      rw [← neg_neg (s.premiumLastDay - now), Int.neg_tmod, Int.tmod_eq_emod_of_nonneg (by omega)]
      omega
    exact max_eq_left hneg

/-- What a call makes of the last day. -/
theorem addPremiumDays_lastDay {s : Premium} (now : ℤ) {days sum : ℤ}
    (hsum : (s.premiumRemainingDays + days : ℤ).bmod (2 ^ 32) = sum)
    (hlow : -2 ^ 31 ≤ sum * 86400) (hhigh : sum * 86400 < 2 ^ 31) :
    ∃ s', addPremiumDays now days s = some s' ∧
      s'.premiumLastDay = (if sum ≤ 0 then 0 else now + sum * 86400) +
        if s.premiumLastDay > now then s.premiumLastDay - now - wholeDays s now * 86400 else 0 := by
  have hdefined : ¬ (sum * 86400 < -2 ^ 31 ∨ 2 ^ 31 ≤ sum * 86400) := by omega
  have htime := timeLeft_eq s now
  simp only [addPremiumDays, hsum, setPremiumDays, if_neg hdefined, htime]
  split_ifs <;> simp <;> omega

/-- **A call is exact** if the days that it starts from are counted right. -/
theorem Counted.addsExactly {s : Premium} {c : DaysCall} (hc : c.InRange) (h : Counted s c) : AddsExactly s c := by
  obtain ⟨hrem, hsome, hint⟩ := h
  have hnonneg : 0 ≤ wholeDays s c.now := hrem ▸ Int.natCast_nonneg _
  have hsum : (s.premiumRemainingDays + c.days : ℤ).bmod (2 ^ 32) = wholeDays s c.now + c.days := by
    rw [hrem, Int.bmod_eq_of_le] <;> have := hc.1 <;> omega
  obtain ⟨s', hs', hlast⟩ := addPremiumDays_lastDay c.now hsum (by have := hc.1; omega) hint
  refine ⟨s', hs', ?_⟩
  rw [hlast]
  by_cases hactive : s.premiumLastDay > c.now
  · have hpos := hsome hactive
    rw [if_neg (not_le.2 hpos), if_pos hactive, if_pos hactive]
    ring
  · have hzero : wholeDays s c.now = 0 := if_neg hactive
    rw [if_neg hactive, if_neg hactive, hzero]
    have := hc.1
    split_ifs <;> omega

/-! ## Runs -/

/-- **Premium days add exactly their time** in every run of calls whose days are counted right. -/
theorem run_addsExactly (now lastday : ℤ) (premiumDaysPurchased : ℕ) {l : List DaysCall}
    (hrange : ∀ c ∈ l, c.InRange)
    (hl : Runs.Meets addDays (fun s c => ∀ a ∈ s, Counted a c) (some (load now lastday premiumDaysPurchased)) l) :
    ∀ l₁ c l₂, l = l₁ ++ c :: l₂ →
      ∃ s, Runs.run addDays (some (load now lastday premiumDaysPurchased)) l₁ = some s ∧ AddsExactly s c := by
  have hmeets := hl.and _ (Runs.meets_of_mem addDays hrange _)
  refine (Runs.invariant_steps addDays (P := fun s => ∃ a, s = some a)
    (Q := fun s c => ∃ a, s = some a ∧ AddsExactly a c) (fun s c hs hc => ?_) ⟨_, rfl⟩ hmeets).2
  obtain ⟨a, rfl⟩ : ∃ a, s = some a := hs
  have hexact : AddsExactly a c := (hc.1 a rfl).addsExactly hc.2
  obtain ⟨a', ha', -⟩ := id hexact
  exact ⟨⟨a', ha'⟩, a, rfl, hexact⟩

/-- Thirty days are added to two and a half that are left, and ten more a little later. -/
theorem run_addsExactly_twice :
    ∃ s, Runs.run addDays (some (load 1000000 1216000 0)) [⟨1000010, 30⟩] = some s ∧
      AddsExactly s ⟨1000020, 10⟩ := by
  refine run_addsExactly 1000000 1216000 0 (l := [⟨1000010, 30⟩, ⟨1000020, 10⟩]) ?_ ⟨?_, ?_, trivial⟩
    [⟨1000010, 30⟩] ⟨1000020, 10⟩ [] rfl
  · simp [DaysCall.InRange]
  · rintro a ⟨⟩
    exact ⟨by decide +kernel, fun _ => by decide +kernel, by decide +kernel⟩
  · have hfirst : addDays (some (load 1000000 1216000 0)) ⟨1000010, 30⟩ = some ⟨32, 3808000, 32⟩ := by
      decide +kernel
    intro a ha
    rw [hfirst] at ha
    obtain rfl := Option.some.inj ha
    exact ⟨by decide +kernel, fun _ => by decide +kernel, by decide +kernel⟩

/-- An account with one day left gets a day too many a second later. -/
theorem not_addsExactly_secondLater :
    ¬ ∀ now lastday : ℤ, ∀ premiumDaysPurchased : ℕ, ∀ c : DaysCall, now ≤ c.now → c.InRange →
      AddsExactly (load now lastday premiumDaysPurchased) c := by
  intro h
  obtain ⟨s', hs', hlast⟩ := h 1000000 1086400 0 ⟨1000001, 1⟩ (by decide) ⟨by decide, by decide⟩
  have hcall : addPremiumDays 1000001 1 (load 1000000 1086400 0) = some ⟨2, 1259200, 2⟩ := by decide +kernel
  obtain rfl := Option.some.inj (hs'.symm.trans hcall)
  exact absurd hlast (by decide +kernel)

end TiabloServer.Account
