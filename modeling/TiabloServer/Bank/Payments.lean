import TiabloServer.Bank.Bank

/-!
# Exact payments

`Game::addMoney` and `Game::removeMoney` to the coin. `addMoney` multiplies its number of crystal
coins in 32 bits, so that large amounts are paid out as other ones. `removeMoney` adds the balance
to the money that is carried in 64 bits.

## Main definitions

* `Bank.createdCoins`, `Bank.PaysOut` — the coins that `addMoney` creates, and that they are worth
  it.
* `Bank.TakesPrice` — an answer of `removeMoney` takes the price, the coins first, or nothing.

## Main results

* `Bank.paysOut_iff` — which amounts are paid out exactly.
* `Bank.sum_moneyMap` — the stacks that `removeMoney` finds are all that the player carries.
* `Bank.takesPrice_iff` — which prices are taken exactly.
-/

namespace TiabloServer.Bank

open Items ReturnValue

/-! ## Paying out -/

/-- The coins that `addMoney` creates, in order. -/
def createdCoins (types : ItemTypes) (money : ℕ) : List Item :=
  (coinStacks money).map fun coins => createStack types coins.1 coins.2

theorem crystalStacks_le {fuel n : ℕ} : ∀ e ∈ crystalStacks fuel n, e.2 ≤ 100 := by
  induction fuel generalizing n with
  | zero => exact fun e he => absurd he List.not_mem_nil
  | succ fuel ih =>
    unfold crystalStacks
    split_ifs with hzero
    · exact fun e he => absurd he List.not_mem_nil
    · intro e he
      rcases List.mem_cons.1 he with rfl | he
      · exact Nat.min_le_left 100 n
      · exact ih e he

/-- A created stack of coins has the low eight bits of the count asked for. -/
theorem getItemCount_createStack (types : ItemTypes) (id : ℕ) {n : ℕ} (hn : n ≠ 0) :
    (createStack types id n).getItemCount = n % 256 := by
  rw [Item.getItemCount, createStack, if_neg hn, UInt8.toNat_ofNat']

theorem getWorth_createStack (types : ItemTypes) {id : ℕ} (hid : worthOf id ≠ 0) (n : ℕ) :
    (createStack types id n).getWorth = (createStack types id n).getItemCount * worthOf id := by
  rw [Item.getWorth, show (createStack types id n).id = id from createdId_coin types hid]

/-- The crystal coins of any amount are stacks of at most 100, and are all there. -/
theorem crystalCoins_paid (types : ItemTypes) (n : ℕ) :
    (∀ coin ∈ (crystalStacks n n).map fun e => createStack types e.1 e.2, coin.getItemCount ≤ 100) ∧
      (((crystalStacks n n).map fun e => createStack types e.1 e.2).map Item.getWorth).sum = 10000 * n := by
  obtain ⟨hall, hsum⟩ := crystalStacks_spec (le_refl n)
  have hcount : ∀ e ∈ crystalStacks n n, (createStack types e.1 e.2).getItemCount = e.2 := by
    intro e he
    obtain ⟨-, hpos, hlt, -⟩ := hall e he
    rw [getItemCount_createStack types e.1 hpos.ne', Nat.mod_eq_of_lt hlt]
  constructor
  · intro coin hcoin
    obtain ⟨e, he, rfl⟩ := List.mem_map.1 hcoin
    rw [hcount e he]
    exact crystalStacks_le e he
  · rw [← hsum, List.map_map]
    refine congrArg List.sum (List.map_congr_left fun e he => ?_)
    have hid : worthOf e.1 ≠ 0 := by
      rw [(hall e he).1, worthOf_coins.2.2]
      omega
    rw [Function.comp_apply, getWorth_createStack types hid, hcount e he, Nat.mul_comm]

/-- How many times the 32-bit worth of the crystal coins of an amount overflows. -/
def coinOverflow (money : ℕ) : ℕ := money / 10000 * 10000 / 2 ^ 32

/-- The coins that `addMoney` creates are stacks of at most 100 and worth the amount. -/
def PaysOut (types : ItemTypes) (money : ℕ) : Prop :=
  (∀ coin ∈ createdCoins types money, coin.getItemCount ≤ 100) ∧
    ((createdCoins types money).map Item.getWorth).sum = money

/-- What is left of an amount when the crystal coins have been made. -/
def looseChange (money : ℕ) : ℕ := money % 10000 + 2 ^ 32 * coinOverflow money

/-- The stacks of platinum and gold coins of what is left. -/
theorem coinStacks_eq {money : ℕ} (hmoney : money < 10000 * 2 ^ 32) :
    coinStacks money = crystalStacks (money / 10000) (money / 10000) ++
      ((if looseChange money / 100 % 2 ^ 16 ≠ 0 then
        [(ITEM_PLATINUM_COIN, looseChange money / 100 % 2 ^ 16)] else []) ++
      if looseChange money - looseChange money / 100 % 2 ^ 16 * 100 ≠ 0 then
        [(ITEM_GOLD_COIN, (looseChange money - looseChange money / 100 % 2 ^ 16 * 100) % 2 ^ 16)]
      else []) := by
  have hcrystal : money / 10000 % 2 ^ 32 = money / 10000 := Nat.mod_eq_of_lt (by omega)
  have hrest : money - money / 10000 * 10000 % 2 ^ 32 = looseChange money := by
    unfold looseChange coinOverflow
    omega
  simp only [coinStacks, hcrystal, hrest, List.append_assoc]

/-- Coins of one id of any count, or none. -/
theorem someCoins_paid (types : ItemTypes) (id : ℕ) (hid : worthOf id ≠ 0) (n : ℕ) :
    let coins := (if n ≠ 0 then [(id, n)] else []).map fun e => createStack types e.1 e.2
    ((∀ coin ∈ coins, coin.getItemCount ≤ 100) ↔ n % 256 ≤ 100) ∧
      (coins.map Item.getWorth).sum = n % 256 * worthOf id := by
  intro coins
  by_cases hn : n = 0
  · simp [coins, hn]
  · simp [coins, hn, getWorth_createStack types hid, getItemCount_createStack types id hn]

/-- The gold coins that `addMoney` makes of what it has left. -/
def goldCoins (money : ℕ) : ℕ :=
  if money = 0 then 0 else if money % 2 ^ 16 = 0 then 1 else money % 256

/-- The gold coins of what is left last. -/
theorem goldCoins_paid (types : ItemTypes) (money : ℕ) :
    let coins := (if money ≠ 0 then [(ITEM_GOLD_COIN, money % 2 ^ 16)] else []).map
      fun e => createStack types e.1 e.2
    ((∀ coin ∈ coins, coin.getItemCount ≤ 100) ↔ goldCoins money ≤ 100) ∧
      (coins.map Item.getWorth).sum = goldCoins money := by
  intro coins
  have hid : worthOf ITEM_GOLD_COIN ≠ 0 := by decide
  have hone : worthOf ITEM_GOLD_COIN = 1 := worthOf_coins.1
  by_cases hzero : money = 0
  · simp [coins, goldCoins, hzero]
  have hcount : (createStack types ITEM_GOLD_COIN (money % 2 ^ 16)).getItemCount =
      goldCoins money := by
    by_cases hlow : money % 2 ^ 16 = 0
    · simp only [goldCoins, if_neg hzero, if_pos hlow, Item.getItemCount, createStack]
      rfl
    · rw [getItemCount_createStack types _ hlow]
      simp only [goldCoins, if_neg hzero, if_neg hlow]
      omega
  simp only [coins, if_pos hzero, List.map_cons, List.map_nil, List.mem_singleton, forall_eq,
    List.sum_cons, List.sum_nil, getWorth_createStack types hid, hcount, hone, Nat.mul_one,
    Nat.add_zero, and_self]

/-- What is left when the crystal coins have been made is paid out exactly. -/
theorem change_paid_iff {r j a b : ℕ} (hr : r < 10000) (hj : j < 10000) (hb : b < 100)
    (h : 100 * a + b = r + 2 ^ 32 * j) :
    ((a % 2 ^ 16 % 256 ≤ 100 ∧ goldCoins (100 * a + b - a % 2 ^ 16 * 100) ≤ 100) ∧
        a % 2 ^ 16 % 256 * 100 + goldCoins (100 * a + b - a % 2 ^ 16 * 100) = r) ↔ j = 0 ∨ 25 ∣ j ∧ ¬ 100 ∣ r := by
  obtain rfl | hpos := Nat.eq_zero_or_pos j
  · have ha : a % 2 ^ 16 = a := by omega
    have ha' : a % 256 = a := by omega
    have hleft : 100 * a + b - a * 100 = b := by omega
    have hgold : goldCoins b = b := by
      unfold goldCoins
      split_ifs <;> omega
    rw [ha, ha', hleft, hgold]
    omega
  · have hleft : 100 * a + b - a % 2 ^ 16 * 100 = 6553600 * (a / 2 ^ 16) + b := by omega
    have hbig : 0 < a / 2 ^ 16 := by omega
    have hgold : goldCoins (6553600 * (a / 2 ^ 16) + b) = if b = 0 then 1 else b := by
      unfold goldCoins
      split_ifs <;> omega
    rw [hleft, hgold, show a % 2 ^ 16 % 256 = a % 256 by omega]
    by_cases hdvd : 25 ∣ j
    · -- the errors are a multiple of 256 platinum coins
      obtain ⟨k, rfl⟩ := hdvd
      have hrest : b = r % 100 := by omega
      have hcoins : a = r / 100 + 2 ^ 30 * k := by omega
      have hplat : a % 256 = r / 100 := by omega
      rw [hplat]
      clear h hleft hbig hgold hcoins hplat
      split_ifs <;> omega
    · have hrest : (r + 96 * j) % 100 = b := by omega
      clear h hleft hbig hgold
      split_ifs <;> omega

/-- **`addMoney` pays out exactly** just the amounts whose crystal coins are worth less than 32 bits
hold, and of the others those for which the errors of the wrapped worth cancel. -/
theorem paysOut_iff (types : ItemTypes) {money : ℕ} (hmoney : money < 10000 * 2 ^ 32) :
    PaysOut types money ↔
      coinOverflow money = 0 ∨ 25 ∣ coinOverflow money ∧ ¬ 100 ∣ money := by
  have hcoins := coinStacks_eq hmoney
  have hlt : coinOverflow money < 10000 := by
    unfold coinOverflow
    omega
  have hloose : looseChange money = money % 10000 + 2 ^ 32 * coinOverflow money := rfl
  generalize looseChange money = rest at hcoins hloose
  obtain ⟨hcrystal, hcrystals⟩ := crystalCoins_paid types (money / 10000)
  obtain ⟨hplat, hplats⟩ := someCoins_paid types ITEM_PLATINUM_COIN (by decide)
    (rest / 100 % 2 ^ 16)
  obtain ⟨hgold, hgolds⟩ := goldCoins_paid types (rest - rest / 100 % 2 ^ 16 * 100)
  have hexact := change_paid_iff (Nat.mod_lt money (by omega : 10000 > 0)) hlt
    (Nat.mod_lt rest (by omega : 100 > 0)) ((Nat.div_add_mod rest 100).trans hloose)
  rw [Nat.div_add_mod] at hexact
  rw [worthOf_coins.2.1] at hplats
  have hdvd : 100 ∣ money % 10000 ↔ 100 ∣ money := by omega
  rw [PaysOut, createdCoins, hcoins, ← hdvd, ← hexact]
  simp only [List.map_append, List.sum_append, List.forall_mem_append, hplat, hgold, hplats, hgolds,
    hcrystals, and_iff_right hcrystal]
  omega

/-- 123456 is paid out as 12 crystal coins, 34 platinum coins and 56 gold coins. -/
theorem paysOut_iff_small : coinOverflow 123456 = 0 ∧ PaysOut vaultTypes 123456 :=
  ⟨by decide, (paysOut_iff vaultTypes (by decide)).2 (.inl (by decide))⟩

/-- The least amount that is not paid out exactly: 4096 more is. -/
theorem not_paysOut_wrapped : ¬ PaysOut vaultTypes 4294970000 := by
  rintro ⟨-, hsum⟩
  have hcrystals := (crystalCoins_paid vaultTypes 429497).2
  rw [createdCoins, coinStacks_eq (by decide), show (4294970000 : ℕ) / 10000 = 429497 from rfl,
    List.map_append, List.map_append, List.sum_append, hcrystals] at hsum
  revert hsum
  decide

/-! ## The coins that are found -/

variable {types : ItemTypes} {w w' : World} {R : Set Cylinder} {p x c : ℕ}

/-- What is held lies in one of the cylinders, or is held by an item that lies in one of them. -/
theorem exists_outer (h : Holds w R x) : ∃ d ∈ R, x ∈ w.contents d ∨ ∃ y ∈ w.contents d, Holds w {.item y} x := by
  induction h with
  | direct hd hx => exact ⟨_, hd, Or.inl hx⟩
  | @nested y x _ hx ih =>
    obtain ⟨d, hd, hy | ⟨z, hz, hzy⟩⟩ := ih
    · exact ⟨d, hd, Or.inr ⟨y, hy, holds_of_mem (Set.mem_singleton _) hx⟩⟩
    · exact ⟨d, hd, Or.inr ⟨z, hz, .nested hzy hx⟩⟩

/-- What holds something is a container. -/
theorem container_of_holds (h : Holds w {.item c} x) : (w.items c).container.isSome := by
  obtain ⟨d, hd, hin⟩ := exists_outer h
  obtain rfl : d = .item c := hd
  have hmem : ∃ y, y ∈ w.itemlist c := hin.elim (fun h => ⟨x, h⟩) fun ⟨y, hy, _⟩ => ⟨y, hy⟩
  obtain ⟨y, hy⟩ := hmem
  cases hc : (w.items c).container with
  | none => simp [World.itemlist, hc] at hy
  | some _ => rfl

/-- **The walk through the containers finds all that they hold**, but for containers.

The walk visits a container in each round, so that its fuel need not be more than the number of
items that it has not visited. -/
theorem mem_itemsWithin (hw : w.WF types) {fuel : ℕ} {visited : Finset ℕ} {containers : List ℕ}
    (h : Walk w p visited containers) (hlive : ∀ v ∈ visited, v < w.size)
    (hfuel : w.size ≤ fuel + visited.card) (hc : c ∈ containers) (hx : Holds w {.item c} x)
    (hnone : (w.items x).container = none) : x ∈ itemsWithin w fuel containers := by
  induction fuel generalizing visited containers c with
  | zero =>
    -- all items have been visited, also `c`, which is to be visited yet
    have hall : visited = Finset.range w.size := by
      refine Finset.eq_of_subset_of_card_le (fun v hv => Finset.mem_range.2 (hlive v hv)) ?_
      simpa using hfuel
    obtain ⟨d, hd, -⟩ := h.found c (Or.inr hc)
    refine absurd ?_ (h.fresh c hc)
    rw [hall]
    exact Finset.mem_coe.2 (Finset.mem_range.2 (hw.live d c hd))
  | succ fuel ih =>
    cases containers with
    | nil => exact absurd hc List.not_mem_nil
    | cons e containers =>
      obtain ⟨d, hd, -⟩ := h.found e (Or.inr List.mem_cons_self)
      have hfresh : e ∉ visited := fun hin => h.fresh e List.mem_cons_self hin
      have hwalk := h.step hw fun x => (w.items x).container.isSome
      rw [← Finset.coe_insert] at hwalk
      have hlive' : ∀ v ∈ insert e visited, v < w.size := by
        intro v hv
        rcases Finset.mem_insert.1 hv with rfl | hv
        · exact hw.live d v hd
        · exact hlive v hv
      have hfuel' : w.size ≤ fuel + (insert e visited).card := by
        rw [Finset.card_insert_of_notMem hfresh]
        omega
      unfold itemsWithin
      rcases List.mem_cons.1 hc with rfl | hc
      · obtain ⟨d, hd, hin⟩ := exists_outer hx
        obtain rfl : d = .item c := hd
        rcases hin with hin | ⟨y, hy, hyx⟩
        · refine List.mem_append_left _ (List.mem_filter.2 ⟨hin, ?_⟩)
          simp [hnone]
        · refine List.mem_append_right _ (ih hwalk hlive' hfuel' ?_ hyx)
          exact List.mem_append_right _ (List.mem_filter.2 ⟨hy, container_of_holds hyx⟩)
      · exact List.mem_append_right _ (ih hwalk hlive' hfuel' (List.mem_append_left _ hc) hx)

/-- **Every item that the player holds is looked at**, but for containers. -/
theorem mem_looseItems_iff (hw : w.WF types) (hnone : (w.items x).container = none) :
    x ∈ looseItems w p ↔ Holds w {.player p} x := by
  refine ⟨fun h => (looseItems_nodup hw (Set.mem_singleton _)).2 x h, fun h => ?_⟩
  obtain ⟨d, hd, hin⟩ := exists_outer h
  obtain rfl : d = .player p := hd
  rcases hin with hin | ⟨y, hy, hyx⟩
  · refine List.mem_append_left _ (List.mem_filter.2 ⟨hin, ?_⟩)
    simp [hnone]
  · have hwalk : Walk w p (∅ : Finset ℕ)
        ((w.contents (.player p)).filter fun x => (w.items x).container.isSome) := by
      refine ⟨(hw.nodup (.player p)).filter _, fun _ _ hin => Finset.notMem_empty _ hin, ?_⟩
      rintro z (hz | hz)
      · exact absurd (Finset.mem_coe.1 hz) (Finset.notMem_empty z)
      · exact ⟨.player p, List.mem_of_mem_filter hz, Or.inl rfl⟩
    refine List.mem_append_right _ (mem_itemsWithin hw hwalk (fun v hv => ?_) ?_
      (List.mem_filter.2 ⟨hy, container_of_holds hyx⟩) hyx hnone)
    · exact absurd hv (Finset.notMem_empty v)
    · simp

/-- Coins count by their worth. -/
theorem worth_units (hcoins : CoinsStack types) (w : World) (x : ℕ) :
    unitsOf types w ITEM_GOLD_COIN x + 100 * unitsOf types w ITEM_PLATINUM_COIN x +
      10000 * unitsOf types w ITEM_CRYSTAL_COIN x = (w.items x).getWorth := by
  obtain ⟨hgp, hgc, hpc⟩ := coins_ne
  by_cases hid : worthOf (w.items x).id = 0
  · have hne : ∀ k, worthOf k ≠ 0 → unitsOf types w k x = 0 := by
      intro k hk
      refine if_neg fun e => hk ?_
      rw [← e, hid]
    rw [hne _ (by decide), hne _ (by decide), hne _ (by decide), Item.getWorth, hid]
    omega
  · rw [unitsOf_stack (hcoins _ hid), unitsOf_stack (hcoins _ hid), unitsOf_stack (hcoins _ hid),
      Item.getWorth]
    unfold worthOf at hid ⊢
    split_ifs at hid ⊢ <;> omega

/-- **The money map is worth what the player carries.** -/
theorem sum_moneyMap (hcoins : CoinsStack types) (hw : w.WF types) (p : ℕ) :
    ((moneyMap w p).map Prod.fst).sum = carriedMoney types w {.player p} := by
  classical
  have hstacks := (looseItems_nodup hw (Set.mem_singleton (Cylinder.player p))).1.filter
    fun x => (w.items x).getWorth ≠ 0
  have hcarried : carriedMoney types w {.player p} =
      ∑ x ∈ (Finset.range w.size).filter (Holds w {.player p}), (w.items x).getWorth := by
    simp only [carriedMoney, units, ← worth_units hcoins w, Containment.total, Finset.sum_filter]
    rw [Finset.mul_sum, Finset.mul_sum, ← Finset.sum_add_distrib, ← Finset.sum_add_distrib]
    refine Finset.sum_congr rfl fun x _ => ?_
    split_ifs <;> rfl
  rw [((moneyMap_perm w p).map Prod.fst).sum_eq, hcarried, List.map_map,
    ← List.sum_toFinset _ hstacks]
  refine Finset.sum_subset (fun x hx => ?_) fun x hx hnot => ?_
  · have hloose := List.mem_of_mem_filter (List.mem_toFinset.1 hx)
    have hheld : Holds w {.player p} x := (looseItems_nodup hw (Set.mem_singleton _)).2 x hloose
    exact Finset.mem_filter.2 ⟨Finset.mem_range.2 (hw.lt_size hheld), hheld⟩
  · have hheld := (Finset.mem_filter.1 hx).2
    by_contra hworth
    have hid : worthOf (w.items x).id ≠ 0 := right_ne_zero_of_mul hworth
    have hnone : (w.items x).container = none := hw.stack x (hcoins _ hid)
    refine hnot (List.mem_toFinset.2 (List.mem_filter.2 ⟨(mem_looseItems_iff hw hnone).2 hheld, ?_⟩))
    simpa using hworth

/-! ## Payments -/

variable {cfg : Config} {flags money balance : ℕ}

/-- **The loop takes all that is carried** when that is not enough. -/
theorem removeCoins_all (p flags : ℕ) (hcoins : CoinsStack cfg.types) (hR : ∀ t, Cylinder.tile t ∉ R)
    {map : List (ℕ × ℕ)} (hmap : Payable w R map) (hw : w.WF cfg.types) (hlinked : w.Linked)
    (hsum : (map.map Prod.fst).sum < money) :
    (removeCoins cfg p flags w money map).2 = some (money - (map.map Prod.fst).sum) ∧
      Spent cfg.types R (map.map Prod.fst).sum w (removeCoins cfg p flags w money map).1 := by
  induction map generalizing w money with
  | nil => exact ⟨rfl, hw, hlinked, rfl⟩
  | cons e map ih =>
    obtain ⟨total, x⟩ := e
    obtain ⟨hmap', hall⟩ := hmap.next hcoins hR hw hlinked
    rw [List.map_cons, List.sum_cons] at hsum ⊢
    dsimp only at hsum
    unfold removeCoins
    rw [if_pos (by omega : total < money)]
    obtain ⟨hleft, hrest⟩ := ih hmap' hall.wf hall.linked
      (by omega : (map.map Prod.fst).sum < money - total)
    refine ⟨?_, hrest.wf, hrest.linked, ?_⟩
    · rw [hleft, Nat.sub_sub]
    · have h₁ := hall.money
      have h₂ := hrest.money
      dsimp only
      omega

/-- What a player can pay: the money that he carries and, when it may be used, his balance. -/
noncomputable def affordable (types : ItemTypes) (w : World) (p : ℕ) (useBalance : Bool)
    (balance : ℕ) : ℕ :=
  carriedMoney types w {.player p} + if useBalance then balance else 0

/-- An answer `r` of `removeMoney` takes exactly the price `money`, the coins before the balance, or
takes nothing. -/
structure TakesPrice (types : ItemTypes) (w : World) (p money : ℕ) (useBalance : Bool) (balance : ℕ)
    (r : Bool × World × ℕ) : Prop where
  succeeds : r.1 = true ↔ money ≤ affordable types w p useBalance balance
  price : r.1 = true → carriedMoney types r.2.1 {.player p} + r.2.2 + money =
    carriedMoney types w {.player p} + balance
  coinsFirst : r.1 = true → r.2.2 ≠ balance → carriedMoney types r.2.1 {.player p} = 0
  unchanged : r.1 = false → r.2 = (w, balance)

/-- **`removeMoney` takes exactly the price** but for a player who can pay it and whose money is, in
64 bits, less. -/
theorem takesPrice_iff (hcoins : CoinsStack cfg.types) (hw : w.WF cfg.types) (hlinked : w.Linked)
    {useBalance : Bool} (hchange : money ≠ 0 →
      money ≤ affordable cfg.types w p useBalance balance % 2 ^ 64 →
        GivesChange cfg p flags w money (moneyMap w p)) :
    TakesPrice cfg.types w p money useBalance balance
        (removeMoney cfg w p money flags useBalance balance) ↔
      (money ≤ affordable cfg.types w p useBalance balance →
        money ≤ affordable cfg.types w p useBalance balance % 2 ^ 64) := by
  have hR : ∀ t, Cylinder.tile t ∉ ({.player p} : Set Cylinder) := fun t h => nomatch h
  have hmap : Payable w {.player p} (moneyMap w p) := moneyMap_payable hw (Set.mem_singleton _)
  have hsum := sum_moneyMap hcoins hw p
  unfold removeMoney
  by_cases hzero : money = 0
  · subst hzero
    rw [if_pos rfl]
    exact iff_of_true ⟨by simp, fun _ => rfl, fun _ h => absurd rfl h, nofun⟩ fun _ => Nat.zero_le _
  rw [if_neg hzero]
  dsimp only
  rw [hsum, Nat.mod_add_mod, ← affordable]
  by_cases hshort : affordable cfg.types w p useBalance balance % 2 ^ 64 < money
  · rw [if_pos hshort]
    refine ⟨fun h hle => absurd (h.succeeds.2 hle) (by simp), fun h => ⟨?_, nofun, nofun, fun _ => rfl⟩⟩
    exact ⟨nofun, fun hle => absurd (h hle) (not_le.2 hshort)⟩
  rw [if_neg hshort]
  have hle := (not_lt.1 hshort).trans (Nat.mod_le _ _)
  refine iff_of_true ?_ fun _ => not_lt.1 hshort
  by_cases hcarried : money ≤ carriedMoney cfg.types w {.player p}
  · obtain ⟨hnone, hspent⟩ := removeCoins_spent hcoins hR (Set.mem_singleton _) hmap hw hlinked
      (Nat.pos_of_ne_zero hzero) (hsum ▸ hcarried) (hchange hzero (not_lt.1 hshort))
    cases hr : removeCoins cfg p flags w money (moneyMap w p) with
    | mk w' rest =>
      rw [hr] at hnone hspent
      obtain rfl : rest = none := hnone
      refine ⟨by simpa using hle, fun _ => ?_, fun _ h => absurd rfl h, nofun⟩
      have h := hspent.money
      dsimp only at h ⊢
      omega
  · obtain ⟨hsome, hspent⟩ := removeCoins_all p flags hcoins hR hmap hw hlinked
      (hsum ▸ not_le.1 hcarried)
    rw [hsum] at hsome hspent
    cases hr : removeCoins cfg p flags w money (moneyMap w p) with
    | mk w' rest =>
      rw [hr] at hsome hspent
      obtain rfl : rest = some (money - carriedMoney cfg.types w {.player p}) := hsome
      have h := hspent.money
      cases useBalance with
      | false => exact absurd hle (by simpa [affordable] using hcarried)
      | true =>
        have hrest : money - carriedMoney cfg.types w {.player p} ≤ balance := by
          simp only [affordable, if_true] at hle
          omega
        dsimp only at h ⊢
        rw [if_pos ⟨rfl, hrest⟩]
        refine ⟨by simpa using hle, fun _ => ?_, fun _ _ => ?_, nofun⟩ <;> dsimp only <;> omega

/-- A player with one gold coin on a slot. -/
def purse : World :=
  listWorld [plainItem ITEM_GOLD_COIN 1 (some (.player 0))]
    (fun p => if p = 0 then
      { barePlayer with inventory := fun slot => if slot = CONST_SLOT_RIGHT then some 0 else none }
      else barePlayer) (fun _ => bareTile)

theorem purse_wf : purse.WF vaultTypes := by
  refine listWorld_wf [.player 0] (fun x hx hc => ?_) (fun p hp => ?_) (fun t _ => rfl)
    (by show [0].Nodup; decide) (by show ∀ x ∈ [0], x < 1; decide)
    (fun x hx hs => ?_) (fun t x hx => absurd hx List.not_mem_nil)
    (fun t x hx => absurd hx List.not_mem_nil)
  · obtain rfl : x = 0 := Nat.lt_one_iff.1 hx
    rfl
  · have hp0 : p ≠ 0 := by simpa using hp
    simp [listWorld, World.contents, hp0, barePlayer]
  · obtain rfl : x = 0 := Nat.lt_one_iff.1 hx
    rfl

theorem purse_linked : purse.Linked := by
  intro c x hx
  cases c with
  | item n =>
    match n with
    | 0 => exact absurd hx List.not_mem_nil
    | n + 1 => exact absurd hx List.not_mem_nil
  | player p =>
    match p with
    | 0 =>
      obtain rfl : x = 0 := List.mem_singleton.1 hx
      rfl
    | p + 1 => exact absurd hx List.not_mem_nil
  | tile t => exact absurd hx List.not_mem_nil

theorem moneyMap_purse : moneyMap purse 0 = [(1, 0)] := by decide +kernel

/-- The coin and 99 of the 500 on the account pay 100. -/
theorem takesPrice_iff_purse :
    TakesPrice vaultTypes purse 0 100 true 500
      (removeMoney (plainConfig vaultTypes) purse 0 100 0 true 500) := by
  have hpurse : affordable vaultTypes purse 0 true 500 = 501 := by
    rw [affordable, ← sum_moneyMap coinsStack_vault purse_wf, moneyMap_purse]
    rfl
  refine (takesPrice_iff (show CoinsStack (plainConfig vaultTypes).types from coinsStack_vault)
    purse_wf purse_linked fun _ _ => ?_).2 fun _ => ?_
  · rw [moneyMap_purse]
    exact trivial
  · rw [show (plainConfig vaultTypes).types = vaultTypes from rfl, hpurse]
    decide

/-- **A coin too many**: with the largest balance and a gold coin, 100 cannot be paid. -/
theorem not_takesPrice_richest :
    100 ≤ affordable vaultTypes purse 0 true (2 ^ 64 - 1) ∧
      ¬ TakesPrice vaultTypes purse 0 100 true (2 ^ 64 - 1)
        (removeMoney (plainConfig vaultTypes) purse 0 100 0 true (2 ^ 64 - 1)) := by
  have hrich : 100 ≤ affordable vaultTypes purse 0 true (2 ^ 64 - 1) :=
    (by decide : 100 ≤ 2 ^ 64 - 1).trans (Nat.le_add_left _ _)
  refine ⟨hrich, fun h => absurd (h.succeeds.2 hrich) ?_⟩
  decide +kernel

end TiabloServer.Bank
