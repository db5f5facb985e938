import TiabloServer.Items.Money
import TiabloServer.Lib.Runs

/-!
# Bank accounts

`Bank` (`game/bank/bank.cpp`): the accounts of players and guilds, transfers between them, and
withdrawals and deposits of money that a player carries. A debit and a credit are separate steps. A
transfer has made both when it counts them for the names of the two players, which a guild does not
have.

## Main definitions

* `Bank.Keeps` — a call completes, moves the money that it is to, and loses none.
* `Bank.Call.Affords` — no guild takes part in a transfer, no balance overflows, and coins arrive.

## Main results

* `Bank.run_keeps` — in a run whose calls all afford what they are to do, every call keeps.
-/

namespace TiabloServer.Bank

open Items

/-- The bankable kinds. -/
inductive Account where
  | player (p : ℕ)
  | guild (g : ℕ)
deriving DecidableEq

/-- `Bankable::getPlayer`, which is null for a guild. -/
def Account.getPlayer : Account → Option ℕ
  | .player p => some p
  | .guild _ => none

/-- The balances of the accounts, and the world. -/
structure State where
  world : World
  balance : Account → UInt64

/-- What a transfer checks of the player who receives it. -/
structure Registry where
  name : ℕ → String
  town : ℕ → ℕ

/-! ## The functions of the source -/

section Operations

variable (cfg : Config) (reg : Registry) (s : State)

/-- Replaces a balance: `Bank::balance(amount)`. -/
def State.setBalance (a : Account) (amount : UInt64) : State :=
  { s with balance := Function.update s.balance a amount }

/-- `Bank::hasBalance`. -/
def hasBalance (a : Account) (amount : UInt64) : Bool := amount ≤ s.balance a

/-- `Bank::credit`, which answers true. -/
def credit (a : Account) (amount : UInt64) : State := s.setBalance a (s.balance a + amount)

/-- `Bank::debit`, which answers false, and changes nothing, where there is no state. -/
def debit (a : Account) (amount : UInt64) : Option State :=
  if hasBalance s a amount then some (s.setBalance a (s.balance a - amount)) else none

def deniedNames : List String :=
  ["accountmanager", "rooksample", "druidsample", "sorcerersample", "knightsample", "paladinsample"]

def minTownId : ℕ := 3

/-- The name of a player in lower case and without blanks. -/
def plainName (name : String) : List Char := (name.toList.map Char.toLower).filter (· ≠ ' ')

/-- Whether a transfer to an account is denied. -/
def isDenied (destination : Account) : Bool :=
  destination.getPlayer.any fun p =>
    decide (plainName (reg.name p) ∈ deniedNames.map String.toList) || decide (reg.town p < minTownId)

/-- `Bank::transferTo`. The counters ask both accounts for the name of their player. -/
def transferTo (source destination : Account) (amount : UInt64) : State × Option Bool :=
  if isDenied reg destination then (s, some false)
  else
    match debit s source amount with
    | none => (s, some false)
    | some s =>
      let s := credit s destination amount
      if destination.getPlayer.isSome ∧ source.getPlayer.isSome then (s, some true) else (s, none)

/-- `Bank::withdraw`. -/
def withdraw (source : Account) (p : ℕ) (amount : UInt64) : State × Option Bool :=
  match debit s source amount with
  | none => (s, some false)
  | some s => ({ s with world := addMoney cfg s.world p amount.toNat 0 }, some true)

/-- `Bank::deposit` of an amount. -/
def deposit (source destination : Account) (amount : UInt64) : State × Option Bool :=
  match source.getPlayer with
  | none => (s, some false)
  | some p =>
    let r := removeMoney cfg s.world p amount.toNat 0 false (s.balance (.player p)).toNat
    let s := { s with world := r.2.1 }
    if r.1 then (credit s destination amount, some true) else (s, some false)

/-- The amount that `Bank::deposit` deposits when it is given none: all that the player carries. -/
def allMoney (source : Account) : UInt64 :=
  UInt64.ofNat ((source.getPlayer.map (getMoney s.world)).getD 0)

end Operations

/-- A call of a function of `Bank`. -/
inductive Call where
  | transferTo (source destination : Account) (amount : UInt64)
  | withdraw (source : Account) (player : ℕ) (amount : UInt64)
  | deposit (source destination : Account) (amount : Option UInt64)
  | credit (account : Account) (amount : UInt64)
  | debit (account : Account) (amount : UInt64)

/-- The state after a call and what it answers; nothing when it reads through a null pointer. -/
def Call.perform (cfg : Config) (reg : Registry) (s : State) : Call → State × Option Bool
  | .transferTo source destination amount => Bank.transferTo reg s source destination amount
  | .withdraw source player amount => Bank.withdraw cfg s source player amount
  | .deposit source destination amount =>
    Bank.deposit cfg s source destination (amount.getD (allMoney s source))
  | .credit account amount => (Bank.credit s account amount, some true)
  | .debit account amount =>
    match Bank.debit s account amount with
    | none => (s, some false)
    | some s => (s, some true)

/-- The state after a call. -/
def step (cfg : Config) (reg : Registry) (s : State) (c : Call) : State := (c.perform cfg reg s).1

/-! ## What a call is to do -/

/-- The account that a call takes money from. -/
def Call.source : Call → Option Account
  | .transferTo source _ _ => some source
  | .withdraw source _ _ => some source
  | .deposit _ _ _ => none
  | .credit _ _ => none
  | .debit account _ => some account

/-- The account that a call puts money on. -/
def Call.destination : Call → Option Account
  | .transferTo _ destination _ => some destination
  | .withdraw _ _ _ => none
  | .deposit _ destination _ => some destination
  | .credit account _ => some account
  | .debit _ _ => none

/-- The amount of a call. -/
def Call.amount (s : State) : Call → UInt64
  | .transferTo _ _ amount => amount
  | .withdraw _ _ amount => amount
  | .deposit source _ amount => amount.getD (allMoney s source)
  | .credit _ amount => amount
  | .debit _ amount => amount

/-- Whether a call only moves money. -/
def Call.isMove : Call → Bool
  | .credit _ _ => false
  | .debit _ _ => false
  | _ => true

/-- The inventories. -/
def inventories : Set Cylinder := {c | ∃ p, c = .player p}

/-- All the money: what the accounts `accounts` have, and what is carried. -/
noncomputable def wealth (types : ItemTypes) (accounts : Finset Account) (s : State) : ℕ :=
  ∑ a ∈ accounts, (s.balance a).toNat + carriedMoney types s.world inventories

/-- What a call is to do. It completes. When it answers true, the balances change by its amount, as
numbers without overflow, and a call that only moves money keeps the sum of all. When it answers
false, nothing changes. -/
structure Keeps (cfg : Config) (reg : Registry) (accounts : Finset Account) (s : State) (c : Call) :
    Prop where
  completes : (c.perform cfg reg s).2 ≠ none
  exact_balance : (c.perform cfg reg s).2 = some true → ∀ a,
    ((step cfg reg s c).balance a).toNat + (if some a = c.source then (c.amount s).toNat else 0) =
      (s.balance a).toNat + if some a = c.destination then (c.amount s).toNat else 0
  conserves : (c.perform cfg reg s).2 = some true → c.isMove = true →
    wealth cfg.types accounts (step cfg reg s c) = wealth cfg.types accounts s
  unchanged : (c.perform cfg reg s).2 = some false → step cfg reg s c = s

/-- What a call needs to do what it is to. For a transfer that is neither denied nor too much: both
accounts are of players, and the balance of the destination does not overflow. For a withdrawal that
is not too much: the worth of its crystal coins is a 32-bit value, and the coins arrive in the
inventory. For a deposit that can be paid: the change arrives in the inventory, and the balance
does not overflow. -/
def Call.Affords (cfg : Config) (reg : Registry) (s : State) : Call → Prop
  | .transferTo source destination amount =>
    isDenied reg destination = false → amount ≤ s.balance source →
      source.getPlayer.isSome ∧ destination.getPlayer.isSome ∧
        (source ≠ destination → (s.balance destination).toNat + amount.toNat < 2 ^ 64)
  | .withdraw source p amount =>
    amount ≤ s.balance source →
      amount.toNat < MAX_COINED ∧ CoinsArrive cfg p 0 s.world (coinStacks amount.toNat)
  | .deposit source destination amount =>
    let money := (amount.getD (allMoney s source)).toNat
    ∀ p, source.getPlayer = some p → PaysExactly cfg s.world p money 0 ∧
      (money ≤ ((moneyMap s.world p).map Prod.fst).sum % 2 ^ 64 →
        (s.balance destination).toNat + money < 2 ^ 64)
  | .credit account amount => (s.balance account).toNat + amount.toNat < 2 ^ 64
  | .debit _ _ => True

/-! ## Debits and credits -/

section Proofs

variable {cfg : Config} {reg : Registry} {s s' : State} {accounts : Finset Account} {a b : Account}
  {amount : UInt64}

/-- A debit takes the amount from its account. -/
theorem debit_exact (h : debit s a amount = some s') :
    amount ≤ s.balance a ∧ s'.world = s.world ∧ ∀ b,
      (s'.balance b).toNat + (if b = a then amount.toNat else 0) = (s.balance b).toNat := by
  unfold debit hasBalance at h
  split_ifs at h with hle
  have hle : amount ≤ s.balance a := by simpa using hle
  obtain rfl := Option.some.inj h
  refine ⟨hle, rfl, fun b => ?_⟩
  rcases eq_or_ne b a with rfl | hb
  · have hnat := UInt64.le_iff_toNat_le.1 hle
    simp only [State.setBalance, Function.update_self, UInt64.toNat_sub_of_le _ _ hle, if_true]
    omega
  · simp [State.setBalance, hb]

/-- A credit that does not overflow puts the amount on its account. -/
theorem credit_exact (h : (s.balance a).toNat + amount.toNat < 2 ^ 64) (b : Account) :
    ((credit s a amount).balance b).toNat =
      (s.balance b).toNat + if b = a then amount.toNat else 0 := by
  rcases eq_or_ne b a with rfl | hb
  · simp only [credit, State.setBalance, Function.update_self, UInt64.toNat_add, if_true]
    exact Nat.mod_eq_of_lt h
  · simp [credit, State.setBalance, hb]

/-- The sum of the balances changes by what is taken and put. -/
theorem sum_balance {src dst : Option Account} {x : ℕ}
    (h : ∀ a, (s'.balance a).toNat + (if some a = src then x else 0) =
      (s.balance a).toNat + if some a = dst then x else 0)
    (hsrc : ∀ a ∈ src, a ∈ accounts) (hdst : ∀ a ∈ dst, a ∈ accounts) :
    ∑ a ∈ accounts, (s'.balance a).toNat + (if src.isSome then x else 0) =
      ∑ a ∈ accounts, (s.balance a).toNat + if dst.isSome then x else 0 := by
  have hone : ∀ o : Option Account, (∀ a ∈ o, a ∈ accounts) →
      ∑ a ∈ accounts, (if some a = o then x else 0) = if o.isSome then x else 0 := by
    intro o ho
    cases o with
    | none => simp
    | some c => simp [ho c rfl]
  have hsum := Finset.sum_congr rfl fun a (_ : a ∈ accounts) => h a
  rwa [Finset.sum_add_distrib, Finset.sum_add_distrib, hone src hsrc, hone dst hdst] at hsum

/-- A call that is refused keeps. -/
theorem Keeps.of_refused {c : Call} (h : c.perform cfg reg s = (s, some false)) : Keeps cfg reg accounts s c where
  completes := by simp [h]
  exact_balance := by simp [h]
  conserves := by simp [h]
  unchanged _ := by simp [step, h]

/-- A call that succeeds keeps when it moves its amount between balances and what is carried. -/
theorem Keeps.of_done {c : Call} (h : c.perform cfg reg s = (s', some true))
    (haccounts : ∀ a, c.source = some a ∨ c.destination = some a → a ∈ accounts)
    (hexact : ∀ a, (s'.balance a).toNat + (if some a = c.source then (c.amount s).toNat else 0) =
      (s.balance a).toNat + if some a = c.destination then (c.amount s).toNat else 0)
    (hcarried : c.isMove = true →
      carriedMoney cfg.types s'.world inventories +
          (if c.destination.isSome then (c.amount s).toNat else 0) =
        carriedMoney cfg.types s.world inventories +
          if c.source.isSome then (c.amount s).toNat else 0) :
    Keeps cfg reg accounts s c where
  completes := by simp [h]
  exact_balance _ := by simpa [step, h] using hexact
  conserves _ hmove := by
    have hsum : ∑ a ∈ accounts, (s'.balance a).toNat + _ = ∑ a ∈ accounts, (s.balance a).toNat + _ :=
      sum_balance hexact (fun a ha => haccounts a (Or.inl ha)) fun a ha => haccounts a (Or.inr ha)
    have hworld := hcarried hmove
    simp only [wealth, step, h]
    omega
  unchanged := by simp [h]

/-! ## The calls -/

/-- A well-formed state: the one of the world. -/
structure State.WF (types : ItemTypes) (s : State) : Prop where
  wf : s.world.WF types
  linked : s.world.Linked

theorem tile_notMem_inventories (t : ℕ) : Cylinder.tile t ∉ inventories := fun ⟨_, h⟩ => nomatch h

/-- A transfer between players keeps. -/
theorem transferTo_keeps (haccounts : ∀ c, some a = some c ∨ some b = some c → c ∈ accounts) (hs : s.WF cfg.types)
    (hafford : (Call.transferTo a b amount).Affords cfg reg s) : Keeps cfg reg accounts s (.transferTo a b amount) ∧
      (step cfg reg s (.transferTo a b amount)).WF cfg.types := by
  by_cases hdenied : isDenied reg b = true
  · have hrefused : (Call.transferTo a b amount).perform cfg reg s = (s, some false) := by
      simp [Call.perform, transferTo, hdenied]
    exact ⟨.of_refused hrefused, by rwa [step, hrefused]⟩
  cases hdebit : debit s a amount with
  | none =>
    have hrefused : (Call.transferTo a b amount).perform cfg reg s = (s, some false) := by
      simp [Call.perform, transferTo, hdenied, hdebit]
    exact ⟨.of_refused hrefused, by rwa [step, hrefused]⟩
  | some s₁ =>
    obtain ⟨hle, hworld, hexact⟩ := debit_exact hdebit
    obtain ⟨hsource, hdestination, hfits⟩ := hafford (by simpa using hdenied) hle
    have hperform : (Call.transferTo a b amount).perform cfg reg s =
        (credit s₁ b amount, some true) := by
      simp [Call.perform, transferTo, hdenied, hdebit, hsource, hdestination]
    have hfits₁ : (s₁.balance b).toNat + amount.toNat < 2 ^ 64 := by
      have hb := hexact b
      have hlt := (s.balance b).toNat_lt
      rcases eq_or_ne a b with rfl | hne
      · rw [if_pos rfl] at hb
        omega
      · have := hfits hne
        omega
    refine ⟨.of_done hperform haccounts (fun c => ?_) fun _ => ?_, ?_⟩
    · rw [credit_exact hfits₁]
      have hc := hexact c
      simp only [Call.source, Call.destination, Call.amount, Option.some.injEq]
      omega
    · simp [credit, State.setBalance, hworld, Call.source, Call.destination]
    · rw [step, hperform]
      exact ⟨hworld ▸ hs.wf, hworld ▸ hs.linked⟩

/-- A withdrawal whose coins arrive keeps. -/
theorem withdraw_keeps (hcoins : CoinsStack cfg.types) {p : ℕ}
    (haccounts : ∀ c, some a = some c ∨ none = some c → c ∈ accounts) (hs : s.WF cfg.types)
    (hafford : (Call.withdraw a p amount).Affords cfg reg s) : Keeps cfg reg accounts s (.withdraw a p amount) ∧
      (step cfg reg s (.withdraw a p amount)).WF cfg.types := by
  cases hdebit : debit s a amount with
  | none =>
    have hrefused : (Call.withdraw a p amount).perform cfg reg s = (s, some false) := by
      simp [Call.perform, withdraw, hdebit]
    exact ⟨.of_refused hrefused, by rwa [step, hrefused]⟩
  | some s₁ =>
    obtain ⟨hle, hworld, hexact⟩ := debit_exact hdebit
    obtain ⟨hmax, harrive⟩ := hafford hle
    have hrich := addMoney_enriched (R := inventories) hcoins hs.wf hs.linked ⟨p, rfl⟩ hmax harrive
    have hperform : (Call.withdraw a p amount).perform cfg reg s =
        ({ s₁ with world := addMoney cfg s.world p amount.toNat 0 }, some true) := by
      simp [Call.perform, withdraw, hdebit, hworld]
    refine ⟨.of_done hperform haccounts (fun c => ?_) fun _ => ?_, ?_⟩
    · have hc := hexact c
      simpa [Call.source, Call.destination, Call.amount] using hc
    · simpa [Call.source, Call.destination, Call.amount] using hrich.money
    · rw [step, hperform]
      exact ⟨hrich.wf, hrich.linked⟩

/-- A payment that succeeds can be paid. -/
theorem le_of_removeMoney {w : World} {p money balance : ℕ}
    (h : (removeMoney cfg w p money 0 false balance).1 = true) :
    money ≤ ((moneyMap w p).map Prod.fst).sum % 2 ^ 64 := by
  by_contra hlt
  have hne : money ≠ 0 := by omega
  have hpoor : ((moneyMap w p).map Prod.fst).sum % 2 ^ 64 < money := not_le.1 hlt
  unfold removeMoney at h
  rw [if_neg hne] at h
  simp only [Bool.false_eq_true, if_false, Nat.add_zero, Nat.mod_mod] at h
  rw [if_pos hpoor] at h
  exact nomatch h

/-- A deposit whose change arrives keeps. -/
theorem deposit_keeps (hcoins : CoinsStack cfg.types) {money : Option UInt64}
    (haccounts : ∀ c, none = some c ∨ some b = some c → c ∈ accounts) (hs : s.WF cfg.types)
    (hafford : (Call.deposit a b money).Affords cfg reg s) : Keeps cfg reg accounts s (.deposit a b money) ∧
      (step cfg reg s (.deposit a b money)).WF cfg.types := by
  cases hplayer : a.getPlayer with
  | none =>
    have hrefused : (Call.deposit a b money).perform cfg reg s = (s, some false) := by
      simp [Call.perform, deposit, hplayer]
    exact ⟨.of_refused hrefused, by rwa [step, hrefused]⟩
  | some p =>
    obtain ⟨hpays, hfits⟩ := hafford p hplayer
    set amount := money.getD (allMoney s a) with hamount
    set r := removeMoney cfg s.world p amount.toNat 0 false (s.balance (.player p)).toNat with hr
    obtain ⟨hpaid, hrefuses⟩ : (r.1 = true → Spent cfg.types inventories amount.toNat s.world r.2.1) ∧
        (r.1 = false → r.2.1 = s.world) :=
      (removeMoney_spec hcoins tile_notMem_inventories ⟨p, rfl⟩ hs.wf hs.linked hpays).2
    cases hret : r.1 with
    | false =>
      have hrefused : (Call.deposit a b money).perform cfg reg s = (s, some false) := by
        simp only [Call.perform, deposit, hplayer, ← hamount, ← hr, hret, hrefuses hret]
        rfl
      exact ⟨.of_refused hrefused, by rwa [step, hrefused]⟩
    | true =>
      have hspent := hpaid hret
      have hbalance := hfits (le_of_removeMoney hret)
      have hperform : (Call.deposit a b money).perform cfg reg s =
          (credit { s with world := r.2.1 } b amount, some true) := by
        simp only [Call.perform, deposit, hplayer, ← hamount, ← hr, hret, if_true]
      refine ⟨.of_done hperform haccounts (fun c => ?_) fun _ => ?_, ?_⟩
      · rw [credit_exact (s := { s with world := r.2.1 }) hbalance]
        simp [Call.source, Call.destination, Call.amount, ← hamount]
      · simpa [credit, State.setBalance, Call.source, Call.destination, Call.amount, ← hamount]
          using hspent.money
      · rw [step, hperform]
        exact ⟨hspent.wf, hspent.linked⟩

/-- **A call that affords what it is to do keeps**, and leaves a well-formed state. -/
theorem keeps_of_affords (hcoins : CoinsStack cfg.types) (c : Call)
    (haccounts : ∀ a, c.source = some a ∨ c.destination = some a → a ∈ accounts)
    (hs : s.WF cfg.types) (hafford : c.Affords cfg reg s) :
    Keeps cfg reg accounts s c ∧ (step cfg reg s c).WF cfg.types := by
  cases c with
  | transferTo source destination amount => exact transferTo_keeps haccounts hs hafford
  | withdraw source p amount => exact withdraw_keeps hcoins haccounts hs hafford
  | deposit source destination amount => exact deposit_keeps hcoins haccounts hs hafford
  | credit account amount =>
    have hperform : (Call.credit account amount).perform cfg reg s =
        (credit s account amount, some true) := rfl
    refine ⟨.of_done hperform haccounts (fun a => ?_) nofun, ?_⟩
    · rw [credit_exact hafford]
      simp [Call.source, Call.destination, Call.amount]
    · exact ⟨hs.wf, hs.linked⟩
  | debit account amount =>
    cases hdebit : debit s account amount with
    | none =>
      have hrefused : (Call.debit account amount).perform cfg reg s = (s, some false) := by
        simp [Call.perform, hdebit]
      exact ⟨.of_refused hrefused, by rwa [step, hrefused]⟩
    | some s₁ =>
      obtain ⟨-, hworld, hexact⟩ := debit_exact hdebit
      have hperform : (Call.debit account amount).perform cfg reg s = (s₁, some true) := by
        simp [Call.perform, hdebit]
      refine ⟨.of_done hperform haccounts (fun a => ?_) nofun, ?_⟩
      · have ha := hexact a
        simpa [Call.source, Call.destination, Call.amount] using ha
      · rw [step, hperform]
        exact ⟨hworld ▸ hs.wf, hworld ▸ hs.linked⟩

/-- **The bank conserves money.** In a run whose calls all afford what they are to do, every call
completes, moves the money that it is to without overflow, and keeps the sum of all balances and of
what is carried, or changes nothing. -/
theorem run_keeps (hcoins : CoinsStack cfg.types) (hs : s.WF cfg.types) {l : List Call}
    (haccounts : ∀ c ∈ l, ∀ a, c.source = some a ∨ c.destination = some a → a ∈ accounts)
    (hl : Runs.Meets (step cfg reg) (fun s c => c.Affords cfg reg s) s l) :
    ∀ l₁ c l₂, l = l₁ ++ c :: l₂ →
      Keeps cfg reg accounts (Runs.run (step cfg reg) s l₁) c := by
  refine (Runs.invariant_steps _ (fun s c hs hc => ?_) hs
    (hl.and _ (Runs.meets_of_mem _ haccounts s))).2
  exact (keeps_of_affords hcoins c hc.2 hs hc.1).symm

end Proofs

/-! ## A vault -/

/-- Item types of which the coins stack. -/
def vaultTypes : ItemTypes := fun id => if worthOf id ≠ 0 then stackType else plainType

/-- Players who carry nothing, of whom one has 100 gold on his account. -/
def vault : State where
  world := listWorld [] (fun _ => barePlayer) (fun _ => bareTile)
  balance a := if a = .player 0 then 100 else 0

/-- Players of the third town. -/
def vaultRegistry : Registry where
  name _ := "Player"
  town _ := 3

theorem coinsStack_vault : CoinsStack vaultTypes := by
  intro id hid
  simp only [vaultTypes, if_pos hid]
  rfl

theorem vault_contents (c : Cylinder) : vault.world.contents c = [] := by
  cases c with
  | item n => rfl
  | player p => rfl
  | tile t => rfl

theorem vault_wf : vault.WF vaultTypes where
  wf := by
    refine listWorld_wf [] (fun n hn => ?_) (fun p _ => vault_contents (.player p))
      (fun t _ => vault_contents (.tile t)) List.nodup_nil (fun x hx => ?_) (fun n hn => ?_)
      (fun t x hx => ?_) (fun t x hx => ?_)
    · exact absurd hn (Nat.not_lt_zero n)
    · exact absurd hx List.not_mem_nil
    · exact absurd hn (Nat.not_lt_zero n)
    · exact absurd hx List.not_mem_nil
    · exact absurd hx List.not_mem_nil
  linked c x hx := by
    rw [vault_contents] at hx
    exact absurd hx List.not_mem_nil

/-- Three gold pieces go on a slot. -/
theorem coinsArrive_vault : CoinsArrive (plainConfig vaultTypes) 0 0 vault.world (coinStacks 3) := by
  have hstacks : coinStacks 3 = [(ITEM_GOLD_COIN, 3)] := by decide +kernel
  rw [hstacks]
  refine ⟨arrives_of_accepts _ (by decide +kernel) (by decide +kernel) ?_, trivial⟩
  exact ⟨by decide +kernel, rfl⟩

/-- A withdrawal and a transfer between players. -/
theorem run_keeps_vault :
    let l : List Call := [.withdraw (.player 0) 0 3, .transferTo (.player 0) (.player 1) 5]
    (∀ l₁ c l₂, l = l₁ ++ c :: l₂ →
      Keeps (plainConfig vaultTypes) vaultRegistry {.player 0, .player 1}
        (Runs.run (step (plainConfig vaultTypes) vaultRegistry) vault l₁) c) ∧ l.length = 2 := by
  refine ⟨run_keeps coinsStack_vault vault_wf (fun c hc a ha => ?_) ⟨fun _ => ?_, fun _ _ => ?_,
    trivial⟩, rfl⟩
  · simp only [List.mem_cons, List.not_mem_nil, or_false] at hc
    rcases hc with rfl | rfl
    all_goals simp [Call.source, Call.destination] at ha
    · simp [← ha]
    · rcases ha with ha | ha <;> simp [← ha]
  · exact ⟨by decide, coinsArrive_vault⟩
  · exact ⟨rfl, rfl, fun _ => by decide +kernel⟩

/-- **A transfer to a guild does not complete**: the amount is on the balance of the guild when the
name of its player is asked for, and it has none. -/
theorem not_keeps_guild :
    vault.WF vaultTypes ∧
      ¬ Keeps (plainConfig vaultTypes) vaultRegistry {.player 0, .guild 0} vault
        (.transferTo (.player 0) (.guild 0) 10) ∧
      (step (plainConfig vaultTypes) vaultRegistry vault
        (.transferTo (.player 0) (.guild 0) 10)).balance (.guild 0) = 10 := by
  refine ⟨vault_wf, fun h => h.completes ?_, by decide +kernel⟩
  decide +kernel

end TiabloServer.Bank
