import TiabloServer.Lib.Runs

/-!
# Coins of an account

`Account::addCoins` and `Account::removeCoins` (`account/account.cpp`): the balance of a coin type
is read from the repository, changed and written back, and the change is registered if it has a
description. Each call of the repository may fail; a registration that fails is only logged. The
addition is one of 32 bits.

## Main definitions

* `Account.Exact` — a call changes the balance by its amount, or not at all when it fails.
* `Account.Fits` — an addition does not exceed 32 bits.

## Main results

* `Account.exact_iff` — a call is exact if and only if it does not add beyond 32 bits.
* `Account.run_ledger` — the balance after a run, from what has been registered and what has not.
-/

namespace TiabloServer.Account

/-- `AccountErrors_t`. -/
inductive AccountErrors where
  | ok
  | storage
  | removeCoins
  | notInitialized
  deriving DecidableEq

inductive CoinTransactionType where
  | add
  | remove
  deriving DecidableEq

/-- A row of the registered transactions. -/
structure CoinTransaction where
  type : CoinTransactionType
  coins : UInt32
  coinType : UInt8
  description : String
  deriving DecidableEq

/-- What the repository has of an account. -/
structure Repository where
  coins : UInt8 → UInt32
  transactions : List CoinTransaction

/-- Which calls of the repository succeed. -/
structure Answers where
  getCoins : Bool
  setCoins : Bool
  registerCoinsTransaction : Bool

/-- An account with its repository. -/
structure State where
  accLoaded : Bool
  repository : Repository

/-! ## The functions of the source -/

section Operations

variable (s : State) (answers : Answers)

/-- `Account::getCoins`. -/
def getCoins (type : UInt8) : UInt32 × AccountErrors :=
  if !s.accLoaded then (0, .notInitialized)
  else if !answers.getCoins then (0, .storage)
  else (s.repository.coins type, .ok)

/-- `AccountRepository::setCoins`, if it succeeds. -/
def setCoins (type : UInt8) (amount : UInt32) : Option State :=
  if answers.setCoins then
    some { s with
      repository := { s.repository with coins := Function.update s.repository.coins type amount } }
  else none

/-- `Account::registerCoinTransaction`. -/
def registerCoinTransaction (transactionType : CoinTransactionType) (type : UInt8) (amount : UInt32)
    (detail : String) : State :=
  if !s.accLoaded then s
  else if detail = "" then s
  else if answers.registerCoinsTransaction then
    { s with
      repository := { s.repository with
        transactions := s.repository.transactions ++ [⟨transactionType, amount, type, detail⟩] } }
  else s

/-- `Account::addCoins`. -/
def addCoins (type : UInt8) (amount : UInt32) (detail : String) : AccountErrors × State :=
  if !s.accLoaded then (.notInitialized, s)
  else if amount = 0 then (.ok, s)
  else
    let (coins, result) := getCoins s answers type
    if result ≠ .ok then (result, s)
    else
      match setCoins s answers type (coins + amount) with
      | none => (.storage, s)
      | some s => (.ok, registerCoinTransaction s answers .add type amount detail)

/-- `Account::removeCoins`. -/
def removeCoins (type : UInt8) (amount : UInt32) (detail : String) : AccountErrors × State :=
  if !s.accLoaded then (.notInitialized, s)
  else if amount = 0 then (.ok, s)
  else
    let (coins, result) := getCoins s answers type
    if result ≠ .ok then (result, s)
    else if coins < amount then (.removeCoins, s)
    else
      match setCoins s answers type (coins - amount) with
      | none => (.storage, s)
      | some s => (.ok, registerCoinTransaction s answers .remove type amount detail)

end Operations

/-! ## Calls -/

/-- A call of `addCoins` or `removeCoins`, with the answers of the repository. -/
structure Call where
  kind : CoinTransactionType
  type : UInt8
  amount : UInt32
  detail : String
  answers : Answers

/-- A call. -/
def Call.perform (s : State) (call : Call) : AccountErrors × State :=
  match call.kind with
  | .add => addCoins s call.answers call.type call.amount call.detail
  | .remove => removeCoins s call.answers call.type call.amount call.detail

/-- The state after a call. -/
def step (s : State) (call : Call) : State := (call.perform s).2

/-- An amount with the sign of its transaction. -/
def CoinTransactionType.signed (kind : CoinTransactionType) (amount : UInt32) : ℤ :=
  match kind with
  | .add => amount.toNat
  | .remove => -amount.toNat

/-- The stored balance of a coin type. -/
def State.balance (s : State) (type : UInt8) : ℤ := (s.repository.coins type).toNat

/-- What a call moves of a coin type. -/
def Call.net (call : Call) (type : UInt8) : ℤ :=
  if call.type = type then call.kind.signed call.amount else 0

/-- What a transaction has moved of a coin type. -/
def CoinTransaction.net (transaction : CoinTransaction) (type : UInt8) : ℤ :=
  if transaction.coinType = type then transaction.type.signed transaction.coins else 0

/-- The registered additions minus the registered removals. -/
def State.registered (s : State) (type : UInt8) : ℤ :=
  (s.repository.transactions.map fun transaction => transaction.net type).sum

/-- The net of the calls of a run that return `Ok` and are as `p` says. -/
def netOf (p : Call → Prop) [DecidablePred p] (type : UInt8) : State → List Call → ℤ
  | _, [] => 0
  | s, call :: calls =>
    (if (call.perform s).1 = .ok ∧ p call then call.net type else 0) +
      netOf p type (step s call) calls

/-- A call changes the balances by its amount if it returns `Ok`, and not at all otherwise. -/
def Exact (s : State) (call : Call) : Prop :=
  if (call.perform s).1 = .ok then
    ∀ type, (step s call).balance type = s.balance type + call.net type
  else ∀ type, (step s call).balance type = s.balance type

/-- A call that makes an addition does not add beyond 32 bits. -/
def Fits (s : State) (call : Call) : Prop :=
  call.kind = .add → s.accLoaded = true → call.answers.getCoins = true →
    call.answers.setCoins = true →
      (s.repository.coins call.type).toNat + call.amount.toNat < 2 ^ 32

/-- A call is registered when it returns `Ok`. -/
def Call.Registers (call : Call) : Prop :=
  call.amount ≠ 0 ∧ call.detail ≠ "" ∧ call.answers.registerCoinsTransaction = true

instance : DecidablePred Call.Registers := fun _ => inferInstanceAs (Decidable (_ ∧ _ ∧ _))

/-! ## What a call does -/

/-- The balance that a transaction writes. -/
def CoinTransactionType.apply (kind : CoinTransactionType) (coins amount : UInt32) : UInt32 :=
  match kind with
  | .add => coins + amount
  | .remove => coins - amount

/-- The state after a call that has written a balance. -/
def Call.written (s : State) (call : Call) : State :=
  { s with
    repository :=
      { coins := Function.update s.repository.coins call.type
          (call.kind.apply (s.repository.coins call.type) call.amount)
        transactions := s.repository.transactions ++
          if call.Registers then [⟨call.kind, call.amount, call.type, call.detail⟩] else [] } }

/-- A call that has gone through to the write of the balance. -/
structure Call.Written (s : State) (call : Call) : Prop where
  amount : call.amount ≠ 0
  getCoins : call.answers.getCoins = true
  setCoins : call.answers.setCoins = true
  enough : call.kind = .remove → call.amount ≤ s.repository.coins call.type
  result : call.perform s = (.ok, call.written s)

theorem registerCoinTransaction_eq {s : State} (hloaded : s.accLoaded = true) (answers : Answers)
    (kind : CoinTransactionType) (type : UInt8) (amount : UInt32) (detail : String) :
    registerCoinTransaction s answers kind type amount detail =
      { s with
        repository := { s.repository with
          transactions := s.repository.transactions ++
            if detail ≠ "" ∧ answers.registerCoinsTransaction = true then
              [⟨kind, amount, type, detail⟩] else [] } } := by
  obtain ⟨accLoaded, repository⟩ := s
  obtain rfl : accLoaded = true := hloaded
  rw [registerCoinTransaction]
  by_cases hdetail : detail = ""
  · simp [hdetail]
  · by_cases hregister : answers.registerCoinsTransaction = true
    · simp [hdetail, hregister]
    · simp [hdetail, hregister]

/-- All a call on a loaded account can do: fail, do nothing for an amount of zero, or write. -/
theorem perform_cases {s : State} (hloaded : s.accLoaded = true) (call : Call) :
    ((call.perform s).1 ≠ .ok ∧ (call.perform s).2 = s) ∨
      (call.amount = 0 ∧ call.perform s = (.ok, s)) ∨ call.Written s := by
  obtain ⟨kind, type, amount, detail, answers⟩ := call
  by_cases hamount : amount = 0
  · refine Or.inr (Or.inl ⟨hamount, ?_⟩)
    cases kind <;> simp [Call.perform, addCoins, removeCoins, hloaded, hamount]
  · by_cases hget : answers.getCoins = true
    · by_cases hset : answers.setCoins = true
      · cases kind with
        | add =>
          refine Or.inr (Or.inr ⟨hamount, hget, hset, fun h => (by cases h), ?_⟩)
          simp [Call.perform, addCoins, getCoins, setCoins, hloaded, hamount, hget, hset,
            registerCoinTransaction_eq, Call.written, Call.Registers, CoinTransactionType.apply]
        | remove =>
          by_cases henough : s.repository.coins type < amount
          · refine Or.inl ?_
            simp [Call.perform, removeCoins, getCoins, hloaded, hamount, hget, henough]
          · refine Or.inr (Or.inr ⟨hamount, hget, hset, fun _ => UInt32.not_lt.1 henough, ?_⟩)
            simp [Call.perform, removeCoins, getCoins, setCoins, hloaded, hamount, hget, hset, henough,
              registerCoinTransaction_eq, Call.written, Call.Registers, CoinTransactionType.apply]
      · refine Or.inl ?_
        cases kind with
        | add => simp [Call.perform, addCoins, getCoins, setCoins, hloaded, hamount, hget, hset]
        | remove =>
          simp only [Call.perform, removeCoins, getCoins, setCoins, hloaded, hamount, hget, hset]
          by_cases henough : s.repository.coins type < amount <;> simp [henough]
    · refine Or.inl ?_
      cases kind <;> simp [Call.perform, addCoins, removeCoins, getCoins, hloaded, hamount, hget]

@[simp]
theorem accLoaded_step {s : State} (hloaded : s.accLoaded = true) (call : Call) :
    (step s call).accLoaded = true := by
  rcases perform_cases hloaded call with ⟨-, hsame⟩ | ⟨-, hsame⟩ | hwritten
  · rw [step, hsame, hloaded]
  · rw [step, hsame, hloaded]
  · rw [step, hwritten.result]
    exact hloaded

/-! ## Exact calls -/

theorem balance_written (s : State) (call : Call) (type : UInt8) :
    (call.written s).balance type =
      if call.type = type then
        ((call.kind.apply (s.repository.coins call.type) call.amount).toNat : ℤ)
      else s.balance type := by
  by_cases htype : call.type = type
  · subst htype
    simp [State.balance, Call.written]
  · simp [State.balance, Call.written, htype, Function.update_of_ne (Ne.symm htype)]

/-- A written balance is the one before and the amount, unless an addition exceeds 32 bits. -/
theorem apply_eq_iff {s : State} {call : Call} (h : call.Written s) (hloaded : s.accLoaded = true) :
    ((call.kind.apply (s.repository.coins call.type) call.amount).toNat : ℤ) =
        s.balance call.type + call.kind.signed call.amount ↔ Fits s call := by
  have hlt : (s.repository.coins call.type).toNat < 2 ^ 32 := UInt32.toNat_lt _
  have hamount : call.amount.toNat < 2 ^ 32 := UInt32.toNat_lt _
  cases hkind : call.kind with
  | add =>
    simp only [CoinTransactionType.apply, CoinTransactionType.signed, State.balance, Fits, hkind,
      hloaded, h.getCoins, h.setCoins, forall_const, UInt32.toNat_add]
    omega
  | remove =>
    have hle := UInt32.le_iff_toNat_le.1 (h.enough hkind)
    have hfits : Fits s call := fun hadd => by
      rw [hkind] at hadd
      cases hadd
    refine iff_of_true ?_ hfits
    simp only [CoinTransactionType.apply, CoinTransactionType.signed, State.balance]
    rw [UInt32.toNat_sub_of_le _ _ (h.enough hkind)]
    omega

/-- **A call is exact** if and only if it does not add beyond 32 bits. -/
theorem exact_iff {s : State} (hloaded : s.accLoaded = true) (call : Call) : Exact s call ↔ Fits s call := by
  have hlt : (s.repository.coins call.type).toNat < 2 ^ 32 := UInt32.toNat_lt _
  rcases perform_cases hloaded call with ⟨hfail, hsame⟩ | ⟨hzero, hsame⟩ | hwritten
  · have hstep : step s call = s := hsame
    refine iff_of_true ?_ fun hkind _ hget hset => ?_
    · rw [Exact, if_neg hfail, hstep]
      exact fun _ => rfl
    · -- an addition whose calls of the repository succeed does not fail
      refine absurd ?_ hfail
      by_cases hamount : call.amount = 0
      · simp [Call.perform, hkind, addCoins, hloaded, hamount]
      · simp [Call.perform, hkind, addCoins, getCoins, setCoins, hloaded, hamount, hget, hset]
  · have hstep : step s call = s := by rw [step, hsame]
    refine iff_of_true ?_ fun _ _ _ _ => by simpa [hzero] using hlt
    rw [Exact, if_pos (by rw [hsame]), hstep]
    intro type
    have hnet : call.net type = 0 := by
      cases hkind : call.kind <;> simp [Call.net, CoinTransactionType.signed, hzero, hkind]
    rw [hnet, add_zero]
  · have hstep : step s call = call.written s := by rw [step, hwritten.result]
    rw [← apply_eq_iff hwritten hloaded, Exact, if_pos (by rw [hwritten.result]), hstep]
    constructor
    · intro hexact
      have htype := hexact call.type
      rwa [balance_written, if_pos rfl, Call.net, if_pos rfl] at htype
    · intro happly type
      rw [balance_written, Call.net]
      split_ifs with htype
      · rw [happly, htype]
      · rw [add_zero]

/-- What a call registers. -/
theorem registered_step {s : State} (hloaded : s.accLoaded = true) (call : Call) (type : UInt8) :
    (step s call).registered type = s.registered type +
      if (call.perform s).1 = .ok ∧ call.Registers then call.net type else 0 := by
  rcases perform_cases hloaded call with ⟨hfail, hsame⟩ | ⟨hzero, hsame⟩ | hwritten
  · rw [step, hsame, if_neg fun h => hfail h.1, add_zero]
  · rw [step, hsame, if_neg fun h => h.2.1 hzero, add_zero]
  · rw [step, hwritten.result]
    by_cases hregisters : call.Registers
    · simp [State.registered, Call.written, hregisters, CoinTransaction.net, Call.net]
    · simp [State.registered, Call.written, hregisters]

/-! ## Runs -/

/-- **The ledger.** After a run whose additions stay within 32 bits each call has been exact, and
the balance is the one at the start, what has been registered since, and the net of the calls that
were not registered. -/
theorem run_ledger {s : State} (hloaded : s.accLoaded = true) {calls : List Call}
    (hfits : Runs.Meets step Fits s calls) :
    Runs.Meets step Exact s calls ∧ ∀ type,
      (Runs.run step s calls).balance type =
        s.balance type + ((Runs.run step s calls).registered type - s.registered type) +
          netOf (fun call => ¬ call.Registers) type s calls := by
  induction calls generalizing s with
  | nil => exact ⟨trivial, fun type => by simp [netOf]⟩
  | cons call calls ih =>
    obtain ⟨hfit, hrest⟩ := hfits
    obtain ⟨hexacts, hledger⟩ := ih (accLoaded_step hloaded call) hrest
    have hexact := (exact_iff hloaded call).2 hfit
    refine ⟨⟨hexact, hexacts⟩, fun type => ?_⟩
    have hregistered := registered_step hloaded call type
    have hbalance : (step s call).balance type =
        s.balance type + if (call.perform s).1 = .ok then call.net type else 0 := by
      rw [Exact] at hexact
      split_ifs at hexact ⊢
      · exact hexact type
      · rw [hexact type, add_zero]
    rw [Runs.run_cons, hledger type, netOf, hbalance, hregistered]
    by_cases hok : (call.perform s).1 = .ok
    · by_cases hregisters : call.Registers
      · simp only [hok, hregisters, not_true_eq_false, and_false, and_self, if_true, if_false]
        ring
      · simp only [hok, hregisters, not_false_eq_true, and_false, and_self, if_true, if_false]
        ring
    · simp only [hok, false_and, if_false]
      ring

/-- An account with 100 coins of type 1. -/
def hundredCoins : State := ⟨true, ⟨fun type => if type = 1 then 100 else 0, []⟩⟩

/-- The repository does all it is asked to. -/
def noFault : Answers := ⟨true, true, true⟩

theorem run_ledger_samples :
    Runs.Meets step Exact hundredCoins
        [⟨.add, 1, 50, "ADD Coins", noFault⟩, ⟨.remove, 1, 120, "", noFault⟩,
          ⟨.remove, 1, 31, "REMOVE Coins", noFault⟩] ∧
      ∀ type, (Runs.run step hundredCoins
          [⟨.add, 1, 50, "ADD Coins", noFault⟩, ⟨.remove, 1, 120, "", noFault⟩,
            ⟨.remove, 1, 31, "REMOVE Coins", noFault⟩]).balance type =
        hundredCoins.balance type + ((Runs.run step hundredCoins
          [⟨.add, 1, 50, "ADD Coins", noFault⟩, ⟨.remove, 1, 120, "", noFault⟩,
            ⟨.remove, 1, 31, "REMOVE Coins", noFault⟩]).registered type -
            hundredCoins.registered type) +
          netOf (fun call => ¬ call.Registers) type hundredCoins
            [⟨.add, 1, 50, "ADD Coins", noFault⟩, ⟨.remove, 1, 120, "", noFault⟩,
              ⟨.remove, 1, 31, "REMOVE Coins", noFault⟩] :=
  run_ledger rfl ⟨fun _ _ _ _ => by decide, fun h => (by cases h), fun h => (by cases h), trivial⟩

/-- A registration that fails leaves the balance changed, and an addition may wrap. -/
theorem not_ledger :
    ¬ (∀ type, (Runs.run step hundredCoins
          [⟨.add, 1, 50, "ADD Coins", ⟨true, true, false⟩⟩]).balance type =
        hundredCoins.balance type + ((Runs.run step hundredCoins
          [⟨.add, 1, 50, "ADD Coins", ⟨true, true, false⟩⟩]).registered type -
            hundredCoins.registered type) +
          netOf (fun call => call.detail = "") type hundredCoins
            [⟨.add, 1, 50, "ADD Coins", ⟨true, true, false⟩⟩]) ∧
      ¬ Exact hundredCoins ⟨.add, 1, 4294967295, "ADD Coins", noFault⟩ := by
  refine ⟨fun h => absurd (h 1) (by decide), ?_⟩
  rw [exact_iff rfl]
  exact fun h => absurd (h rfl rfl rfl rfl) (by decide)

end TiabloServer.Account
