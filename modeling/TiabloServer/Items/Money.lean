import TiabloServer.Items.Arrival
import TiabloServer.Items.Trees

/-!
# Carried money

`Game::addMoney`, `Game::removeMoney` and `Player::getMoney`: money is carried as stacks of coins in
the inventory and in the containers in it. A payment takes the stacks of least worth first, and of
the stack that is worth more than what is left to pay it gives change.

## Main definitions

* `Items.carriedMoney` — the worth of the coins that cylinders hold.
* `Items.CoinsArrive`, `Items.GivesChange` — the coins that are put in arrive in the inventory.

## Main results

* `Items.addMoney_enriched` — `addMoney` puts in what it is to, when the coins arrive.
* `Items.removeMoney_spec` — `removeMoney` takes what it is to or nothing, when its change arrives.
-/

namespace TiabloServer.Items

open ReturnValue

/-! ## Coins -/

def ITEM_GOLD_COIN : ℕ := 3031
def ITEM_PLATINUM_COIN : ℕ := 3035
def ITEM_CRYSTAL_COIN : ℕ := 3043

/-- The worth of one coin of an id. -/
def worthOf (id : ℕ) : ℕ :=
  if id = ITEM_GOLD_COIN then 1
  else if id = ITEM_PLATINUM_COIN then 100
  else if id = ITEM_CRYSTAL_COIN then 10000
  else 0

/-- `Item::getWorth`. -/
def Item.getWorth (x : Item) : ℕ := x.getItemCount * worthOf x.id

/-! ## The functions of the source -/

variable (cfg : Config)

/-- `Game::internalRemoveItem` for coins, which may always be removed and do not decay. Its callers
here do not look at what it answers. -/
def internalRemoveItem (w : World) (item count : ℕ) : World :=
  match (w.items item).parent with
  | none => w
  | some cylinder =>
    if queryRemove cfg w cylinder item count FLAG_IGNORENOTMOVABLE ≠ RETURNVALUE_NOERROR then w
    else removeThing cfg.types w cylinder item count

/-- A new stack of coins is added to the inventory or, when that refuses it, dropped on the tile. -/
def addCoins (w : World) (p : ℕ) (flags : ℕ) (coins : ℕ × ℕ) : World :=
  let remaindItem := w.size
  let r := internalAddItem cfg (w.create (createStack cfg.types coins.1 coins.2)) (.player p)
    remaindItem INDEX_WHEREEVER flags false
  if r.2.1 ≠ RETURNVALUE_NOERROR then
    match (r.1.players p).tile with
    | none => r.1
    | some t => (internalAddItem cfg r.1 (.tile t) remaindItem INDEX_WHEREEVER FLAG_NOLIMIT false).1
  else r.1

/-- The stacks of crystal coins that `addMoney` makes, one in each round of its loop. -/
def crystalStacks : ℕ → ℕ → List (ℕ × ℕ)
  | 0, _ => []
  | fuel + 1, crystalCoins =>
    if crystalCoins = 0 then []
    else (ITEM_CRYSTAL_COIN, min 100 crystalCoins) ::
      crystalStacks fuel (crystalCoins - min 100 crystalCoins)

/-- The ids and counts of the stacks that `addMoney` makes of the 64-bit value `money`. The number
of crystal coins and their worth are 32-bit values, the other counts are 16-bit values. -/
def coinStacks (money : ℕ) : List (ℕ × ℕ) :=
  let crystalCoins := money / 10000 % 2 ^ 32
  let money := money - crystalCoins * 10000 % 2 ^ 32
  let platinumCoins := money / 100 % 2 ^ 16
  let money := money - platinumCoins * 100
  crystalStacks crystalCoins crystalCoins ++
    (if platinumCoins ≠ 0 then [(ITEM_PLATINUM_COIN, platinumCoins)] else []) ++
    if money ≠ 0 then [(ITEM_GOLD_COIN, money % 2 ^ 16)] else []

/-- `Game::addMoney`. -/
def addMoney (w : World) (p money flags : ℕ) : World :=
  (coinStacks money).foldl (fun w coins => addCoins cfg w p flags coins) w

/-- The items in the containers `containers` and in those that are found in them, level by level,
but for the containers themselves. -/
def itemsWithin (w : World) : ℕ → List ℕ → List ℕ
  | 0, _ => []
  | _, [] => []
  | fuel + 1, c :: containers =>
    (w.itemlist c).filter (fun x => (w.items x).container.isNone) ++
      itemsWithin w fuel (containers ++ (w.itemlist c).filter fun x => (w.items x).container.isSome)

/-- The items that `removeMoney` and `getMoney` look at: those on the slots, then those in the
containers. -/
def looseItems (w : World) (p : ℕ) : List ℕ :=
  let inventory := w.contents (.player p)
  inventory.filter (fun x => (w.items x).container.isNone) ++
    itemsWithin w (w.size + 1) (inventory.filter fun x => (w.items x).container.isSome)

/-- `moneyMap.emplace`: an entry goes behind those of the same worth. -/
def emplace (entry : ℕ × ℕ) : List (ℕ × ℕ) → List (ℕ × ℕ)
  | [] => [entry]
  | e :: map => if e.1 ≤ entry.1 then e :: emplace entry map else entry :: e :: map

/-- `moneyMap`: the stacks of coins with their worth. -/
def moneyMap (w : World) (p : ℕ) : List (ℕ × ℕ) :=
  (looseItems w p).foldl
    (fun map x => if (w.items x).getWorth ≠ 0 then emplace ((w.items x).getWorth, x) map else map) []

/-- `Player::getMoney`. -/
def getMoney (w : World) (p : ℕ) : ℕ :=
  ((looseItems w p).map fun x => (w.items x).getWorth).sum % 2 ^ 64

/-- The number of coins of which `removeMoney` gives change: `std::ceil(money / worth)`. -/
def changedCount (money worth : ℕ) : ℕ := (money + worth - 1) / worth

/-- The loop of `removeMoney` over `moneyMap`: the world and, when it comes to its end, what is left
to pay. -/
def removeCoins (p flags : ℕ) : World → ℕ → List (ℕ × ℕ) → World × Option ℕ
  | w, money, [] => (w, some money)
  | w, money, (total, item) :: map =>
    if total < money then
      removeCoins p flags (internalRemoveItem cfg w item (w.items item).getItemCount) (money - total)
        map
    else if money < total then
      let worth := total / (w.items item).getItemCount
      let removeCount := changedCount money worth
      let w := addMoney cfg w p (worth * removeCount - money) flags
      (internalRemoveItem cfg w item removeCount, none)
    else (internalRemoveItem cfg w item (w.items item).getItemCount, none)

/-- `Game::removeMoney` from a player with `balance` on his bank account: whether it succeeds, the
world and the balance. -/
def removeMoney (w : World) (p money flags : ℕ) (useBalance : Bool) (balance : ℕ) :
    Bool × World × ℕ :=
  if money = 0 then (true, w, balance)
  else
    let map := moneyMap w p
    let moneyCount := (map.map Prod.fst).sum % 2 ^ 64
    if (moneyCount + if useBalance then balance else 0) % 2 ^ 64 < money then (false, w, balance)
    else
      match removeCoins cfg p flags w money map with
      | (w, none) => (true, w, balance)
      | (w, some rest) => (true, w, if useBalance ∧ rest ≤ balance then balance - rest else balance)

/-! ## The worth of what is held -/

/-- The worth of the coins that the cylinders `R` hold. -/
noncomputable def carriedMoney (types : ItemTypes) (w : World) (R : Set Cylinder) : ℕ :=
  units types w R ITEM_GOLD_COIN + 100 * units types w R ITEM_PLATINUM_COIN +
    10000 * units types w R ITEM_CRYSTAL_COIN

variable {types : ItemTypes} {w w' w'' : World} {R : Set Cylinder} {k m n x p flags v : ℕ}

theorem worthOf_coins : worthOf ITEM_GOLD_COIN = 1 ∧ worthOf ITEM_PLATINUM_COIN = 100 ∧
    worthOf ITEM_CRYSTAL_COIN = 10000 := by decide

theorem coins_ne : ITEM_GOLD_COIN ≠ ITEM_PLATINUM_COIN ∧ ITEM_GOLD_COIN ≠ ITEM_CRYSTAL_COIN ∧
    ITEM_PLATINUM_COIN ≠ ITEM_CRYSTAL_COIN := by decide

/-- Units of an id that come in bring their worth. -/
theorem carriedMoney_add (h : ∀ j, units types w' R j = units types w R j + if j = k then n else 0) :
    carriedMoney types w' R = carriedMoney types w R + worthOf k * n := by
  obtain ⟨hgp, hgc, hpc⟩ := coins_ne
  simp only [carriedMoney, h, worthOf]
  rcases eq_or_ne k ITEM_GOLD_COIN with rfl | hg
  · simp only [if_true, if_neg hgp.symm, if_neg hgc.symm]
    omega
  rcases eq_or_ne k ITEM_PLATINUM_COIN with rfl | hp
  · simp only [if_true, if_neg hgp, if_neg hgp.symm, if_neg hpc.symm]
    omega
  rcases eq_or_ne k ITEM_CRYSTAL_COIN with rfl | hc
  · simp only [if_true, if_neg hgc, if_neg hpc, if_neg hgc.symm, if_neg hpc.symm]
    omega
  · simp only [if_neg hg, if_neg hg.symm, if_neg hp, if_neg hp.symm, if_neg hc, if_neg hc.symm]
    omega

/-- Coins stack, whatever else the table of item types says. -/
def CoinsStack (types : ItemTypes) : Prop := ∀ id, worthOf id ≠ 0 → (types id).stackable = true

/-- Coins are created as they are. -/
theorem createdId_coin (types : ItemTypes) {id : ℕ} (h : worthOf id ≠ 0) : createdId types id = id := by
  have hnone : itemTransformationMap.lookup id = none := by
    unfold worthOf at h
    split_ifs at h with hg hp hc
    · subst hg
      decide
    · subst hp
      decide
    · subst hc
      decide
    · exact absurd rfl h
  simp [createdId, hnone]

/-! ## Putting coins in -/

/-- Coins worth `v` have been put in, and that is all: the items of the ids `ids` are as they
were. -/
structure Enriched (types : ItemTypes) (R : Set Cylinder) (ids : Set ℕ) (v : ℕ) (w w' : World) :
    Prop where
  wf : w'.WF types
  linked : w'.Linked
  size : w.size ≤ w'.size
  money : carriedMoney types w' R = carriedMoney types w R + v
  body : ∀ z < w.size, (w.items z).id ∈ ids → (w'.items z).body = (w.items z).body
  mem : ∀ d z, z ∈ w.contents d → z ∈ w'.contents d

theorem Grown.enriched (h : Grown types R k n w w') {ids : Set ℕ} (hk : k ∉ ids) :
    Enriched types R ids (worthOf k * n) w w' :=
  ⟨h.wf, h.linked, h.size, carriedMoney_add h.units,
    fun z hz hid => h.body z hz fun e => hk (e ▸ hid), h.mem⟩

theorem Enriched.refl (hw : w.WF types) (hlinked : w.Linked) (R : Set Cylinder) (ids : Set ℕ) :
    Enriched types R ids 0 w w :=
  ⟨hw, hlinked, le_rfl, rfl, fun _ _ _ => rfl, fun _ _ hz => hz⟩

theorem Enriched.trans {ids : Set ℕ} (h : Enriched types R ids m w w')
    (h' : Enriched types R ids n w' w'') : Enriched types R ids (m + n) w w'' where
  wf := h'.wf
  linked := h'.linked
  size := h.size.trans h'.size
  money := by rw [h'.money, h.money, Nat.add_assoc]
  body z hz hid := by
    have hbody := h.body z hz hid
    exact (h'.body z (hz.trans_le h.size) ((Item.body_eq hbody).1 ▸ hid)).trans hbody
  mem d z hz := h'.mem d z (h.mem d z hz)

/-- What was held is held. -/
theorem Enriched.holds {ids : Set ℕ} (h : Enriched types R ids v w w') {z : ℕ} (hz : Holds w R z) : Holds w' R z :=
  Containment.Held.mono (fun d y hy => Or.inl (h.mem d y hy)) hz

/-- Whether all the coins of `l` arrive in the inventory, one stack after the other. -/
def CoinsArrive (cfg : Config) (p flags : ℕ) : World → List (ℕ × ℕ) → Prop
  | _, [] => True
  | w, coins :: l =>
    let coin := createStack cfg.types coins.1 coins.2
    Arrives cfg (.player p) (coin.getItemCount + 1) (w.create coin) w.size flags ∧
      CoinsArrive cfg p flags (addCoins cfg w p flags coins) l

variable {cfg : Config}

/-- **A stack of coins that arrives** brings its worth. -/
theorem addCoins_enriched (hcoins : CoinsStack cfg.types) (hw : w.WF cfg.types)
    (hlinked : w.Linked) (hp : .player p ∈ R) {id : ℕ} (hid : worthOf id ≠ 0) (hpos : 0 < n) (hn : n < 256)
    (harrives : Arrives cfg (.player p) ((createStack cfg.types id n).getItemCount + 1)
      (w.create (createStack cfg.types id n)) w.size flags) {ids : Set ℕ} (hids : id ∉ ids) :
    Enriched cfg.types R ids (worthOf id * n) w (addCoins cfg w p flags (id, n)) := by
  set coin := createStack cfg.types id n with hcoin
  have hnone : coin.container = none := rfl
  have hcoinid : coin.id = id := createdId_coin cfg.types hid
  have hcount : coin.getItemCount = n := by
    rw [Item.getItemCount, hcoin, createStack, if_neg hpos.ne', UInt8.toNat_ofNat',
      Nat.mod_eq_of_lt hn]
  have hnew : (w.create coin).items w.size = coin := w.items_create_self coin
  have hstack : coin.isStackable cfg.types = true := by
    rw [Item.isStackable, Item.type, hcoinid]
    exact hcoins id hid
  have haddable : Addable cfg.types R (w.create coin) (.player p) w.size :=
    ⟨hw.create hnone, hw.size_nowhere hnone, Nat.lt_succ_self _, inner_create w R hnone, hp,
      fun _ htile => by cases htile⟩
  have hgrown := addRounds_grown haddable (hlinked.create hw hnone) (by rwa [hnew])
    (by rw [hnew, hcoinid]; exact createdId_coin cfg.types hid) harrives
  have hret : (internalAddItem cfg (w.create coin) (.player p) w.size INDEX_WHEREEVER flags
      false).2.1 = RETURNVALUE_NOERROR := by
    rw [internalAddItem, addRounds_ret]
    exact harrives.1
  have hadd : addCoins cfg w p flags (id, n) =
      (internalAddItem cfg (w.create coin) (.player p) w.size INDEX_WHEREEVER flags false).1 := by
    simp only [addCoins, ← hcoin, hret, ne_eq, not_true_eq_false, if_false]
  rw [hnew, hcoinid, hcount] at hgrown
  rw [hadd, internalAddItem, hnew, hcount]
  have hcreate := create_grown (k := id) hw hlinked hnone R
  simpa using (hcreate.trans hgrown).enriched hids

/-- Stacks of coins that arrive bring their worth. -/
theorem addAll_enriched (hcoins : CoinsStack cfg.types) (hp : .player p ∈ R) {ids : Set ℕ}
    {l : List (ℕ × ℕ)} (hl : ∀ e ∈ l, worthOf e.1 ≠ 0 ∧ 0 < e.2 ∧ e.2 < 256 ∧ e.1 ∉ ids)
    (hw : w.WF cfg.types) (hlinked : w.Linked) (harrive : CoinsArrive cfg p flags w l) :
    Enriched cfg.types R ids (l.map fun e => worthOf e.1 * e.2).sum w
      (l.foldl (fun w coins => addCoins cfg w p flags coins) w) := by
  induction l generalizing w with
  | nil => exact .refl hw hlinked R ids
  | cons e l ih =>
    obtain ⟨hid, hpos, hn, hids⟩ := hl e List.mem_cons_self
    have hfirst := addCoins_enriched hcoins hw hlinked hp hid hpos hn harrive.1 hids
    have hrest := ih (fun e he => hl e (List.mem_cons_of_mem _ he)) hfirst.wf hfirst.linked
      harrive.2
    rw [List.map_cons, List.sum_cons, List.foldl_cons]
    exact hfirst.trans hrest

/-! ## The stacks of an amount -/

/-- The amounts for which the worth of the crystal coins is a 32-bit value. -/
def MAX_COINED : ℕ := 4294970000

/-- The stacks of crystal coins are of 1 to 100 coins, and are as many coins as asked for. -/
theorem crystalStacks_spec {fuel : ℕ} (hn : n ≤ fuel) :
    (∀ e ∈ crystalStacks fuel n, e.1 = ITEM_CRYSTAL_COIN ∧ 0 < e.2 ∧ e.2 < 256 ∧ 0 < n) ∧
      ((crystalStacks fuel n).map fun e => worthOf e.1 * e.2).sum = 10000 * n := by
  induction fuel generalizing n with
  | zero =>
    obtain rfl : n = 0 := by omega
    simp [crystalStacks]
  | succ fuel ih =>
    unfold crystalStacks
    by_cases hzero : n = 0
    · simp [hzero]
    · obtain ⟨hall, hsum⟩ := ih (n := n - min 100 n) (by omega)
      rw [if_neg hzero]
      refine ⟨fun e he => ?_, ?_⟩
      · rcases List.mem_cons.1 he with rfl | he
        · exact ⟨rfl, by omega, by omega, by omega⟩
        · obtain ⟨hid, hpos, hlt, -⟩ := hall e he
          exact ⟨hid, hpos, hlt, by omega⟩
      · rw [List.map_cons, List.sum_cons, hsum, worthOf_coins.2.2]
        omega

/-- **The stacks of an amount** are coins of no more worth than it, and together they are worth
it. -/
theorem coinStacks_spec {money : ℕ} (hmoney : money < MAX_COINED) :
    (∀ e ∈ coinStacks money, worthOf e.1 ≠ 0 ∧ worthOf e.1 ≤ money ∧ 0 < e.2 ∧ e.2 < 256) ∧
      ((coinStacks money).map fun e => worthOf e.1 * e.2).sum = money := by
  unfold MAX_COINED at hmoney
  obtain ⟨hgold, hplatinum, hcrystal⟩ := worthOf_coins
  obtain ⟨hall, hsum⟩ := crystalStacks_spec (le_refl (money / 10000))
  have hcoins : money / 10000 % 2 ^ 32 = money / 10000 := Nat.mod_eq_of_lt (by omega)
  have hworth : money / 10000 * 10000 % 2 ^ 32 = money / 10000 * 10000 :=
    Nat.mod_eq_of_lt (by omega)
  have hplat : (money - money / 10000 * 10000) / 100 % 2 ^ 16 = money % 10000 / 100 := by omega
  have hrest : money - money / 10000 * 10000 - money % 10000 / 100 * 100 = money % 100 := by omega
  have hrest' : money % 100 % 2 ^ 16 = money % 100 := by omega
  simp only [coinStacks, hcoins, hworth, hplat, hrest, hrest']
  refine ⟨fun e he => ?_, ?_⟩
  · simp only [List.mem_append] at he
    rcases he with (he | he) | he
    · obtain ⟨hid, hpos, hlt, hn⟩ := hall e he
      rw [hid, hcrystal]
      exact ⟨by omega, by omega, hpos, hlt⟩
    · split_ifs at he with hzero
      · obtain rfl := List.mem_singleton.1 he
        rw [hplatinum]
        exact ⟨by omega, by omega, by omega, by omega⟩
      · simp at he
    · split_ifs at he with hzero
      · obtain rfl := List.mem_singleton.1 he
        rw [hgold]
        exact ⟨by omega, by omega, by omega, by omega⟩
      · simp at he
  · simp only [List.map_append, List.sum_append, hsum]
    split_ifs <;> simp only [List.map_cons, List.map_nil, List.sum_cons, List.sum_nil, hgold,
      hplatinum] <;> omega

/-- **`addMoney` brings what it is to** when its coins arrive, and changes no item that is worth
more than all of it. -/
theorem addMoney_enriched (hcoins : CoinsStack cfg.types) (hw : w.WF cfg.types)
    (hlinked : w.Linked) (hp : .player p ∈ R) {money : ℕ} (hmoney : money < MAX_COINED)
    (harrive : CoinsArrive cfg p flags w (coinStacks money)) :
    Enriched cfg.types R {id | money < worthOf id} money w (addMoney cfg w p money flags) := by
  obtain ⟨hall, hsum⟩ := coinStacks_spec hmoney
  have h : Enriched cfg.types R {id | money < worthOf id} _ w (addMoney cfg w p money flags) :=
    addAll_enriched hcoins hp (fun e he => ?_) hw hlinked harrive
  · rwa [hsum] at h
  · obtain ⟨hid, hle, hpos, hlt⟩ := hall e he
    exact ⟨hid, hpos, hlt, not_lt.2 hle⟩

/-! ## Taking coins out -/

/-- Coins worth `v` have been taken out. -/
structure Spent (types : ItemTypes) (R : Set Cylinder) (v : ℕ) (w w' : World) : Prop where
  wf : w'.WF types
  linked : w'.Linked
  money : carriedMoney types w' R + v = carriedMoney types w R

theorem worthOf_cases {id : ℕ} (h : worthOf id ≠ 0) : worthOf id = 1 ∨ worthOf id = 100 ∨ worthOf id = 10000 := by
  unfold worthOf at h ⊢
  split_ifs at h ⊢ <;> simp at h ⊢

/-- Items with one body are worth the same. -/
theorem Item.getWorth_eq {i j : Item} (h : i.body = j.body) : i.getWorth = j.getWorth := by
  simp [Item.getWorth, Item.getItemCount_eq h, (Item.body_eq h).1]

/-- **Taking coins out of a stack** that is held takes their worth. -/
theorem internalRemoveItem_spent (hw : w.WF cfg.types) (hlinked : w.Linked)
    (hR : ∀ t, Cylinder.tile t ∉ R) (hx : Holds w R x)
    (hstack : (w.items x).isStackable cfg.types = true) (hpos : 0 < m) (hm : m ≤ (w.items x).getItemCount) :
    Spent cfg.types R (worthOf (w.items x).id * m) w (internalRemoveItem cfg w x m) ∧
      ∀ y, y ≠ x → (Holds (internalRemoveItem cfg w x m) R y ↔ Holds w R y) ∧
        ((internalRemoveItem cfg w x m).items y).body = (w.items y).body := by
  obtain ⟨c, hmem⟩ := Containment.Held.exists_in hx
  have hindex := hw.getThingIndex_ne hmem
  have hwithin := hw.within_of_holds hx hmem
  have htile : ¬ TakesAll cfg.types w c x := by
    intro hall
    cases c with
    | item _ => exact hall
    | player _ => exact hall
    | tile t => exact hwithin.elim (hR t) fun ⟨_, _, h⟩ => nomatch h
  have hquery : queryRemove cfg w c x m FLAG_IGNORENOTMOVABLE = RETURNVALUE_NOERROR := by
    have hcount : ¬ (m = 0 ∨ (w.items x).isStackable cfg.types = true ∧
        m > (w.items x).getItemCount) := by
      rintro (h | ⟨-, h⟩) <;> omega
    have hflag : hasBitSet FLAG_IGNORENOTMOVABLE FLAG_IGNORENOTMOVABLE = true := by decide
    simp [queryRemove, hindex, hcount, hflag]
  have hremove : internalRemoveItem cfg w x m = removeThing cfg.types w c x m := by
    simp [internalRemoveItem, hlinked c x hmem, hquery]
  have hless := removeThing_lessened hw hwithin hindex hstack hm
  rw [hremove]
  refine ⟨⟨hless.wf, hlinked.removeThing hw c x m, ?_⟩,
    fun y hy => ⟨hless.holds y hy, hless.body y hy⟩⟩
  have hself := hless.balanced.eq_iff.2 fun h => absurd h htile
  refine (carriedMoney_add fun j => ?_).symm
  split_ifs with hj
  · subst hj
    omega
  · exact (hless.balanced.other j hj).symm

/-- The entries of a money map: stacks that are held, none of them twice, with their worth. -/
structure Payable (w : World) (R : Set Cylinder) (map : List (ℕ × ℕ)) : Prop where
  nodup : (map.map Prod.snd).Nodup
  holds : ∀ e ∈ map, Holds w R e.2
  worth : ∀ e ∈ map, (w.items e.2).getWorth = e.1 ∧ e.1 ≠ 0

/-- The first stack of a money map taken out: the others are as they were. -/
theorem Payable.next (hcoins : CoinsStack cfg.types) (hR : ∀ t, Cylinder.tile t ∉ R)
    (hw : w.WF cfg.types) (hlinked : w.Linked) {total : ℕ} {map : List (ℕ × ℕ)}
    (h : Payable w R ((total, x) :: map)) : Payable (internalRemoveItem cfg w x (w.items x).getItemCount) R map ∧
      Spent cfg.types R total w (internalRemoveItem cfg w x (w.items x).getItemCount) := by
  have hx : Holds w R x := h.holds _ List.mem_cons_self
  obtain ⟨hworth, hne⟩ := h.worth _ List.mem_cons_self
  dsimp only [Item.getWorth] at hworth hne
  have hid : worthOf (w.items x).id ≠ 0 := right_ne_zero_of_mul (hworth ▸ hne)
  have hcount : (w.items x).getItemCount ≠ 0 := left_ne_zero_of_mul (hworth ▸ hne)
  obtain ⟨hall, hothers⟩ := internalRemoveItem_spent hw hlinked hR hx (hcoins _ hid)
    (Nat.pos_of_ne_zero hcount) le_rfl
  rw [Nat.mul_comm, hworth] at hall
  have hfresh : ∀ e ∈ map, e.2 ≠ x := fun e he heq =>
    (List.nodup_cons.1 h.nodup).1 (List.mem_map.2 ⟨e, he, heq⟩)
  refine ⟨⟨(List.nodup_cons.1 h.nodup).2, fun e he => ?_, fun e he => ?_⟩, hall⟩
  · exact (hothers e.2 (hfresh e he)).1.2 (h.holds e (List.mem_cons_of_mem _ he))
  · rw [Item.getWorth_eq (hothers e.2 (hfresh e he)).2]
    exact h.worth e (List.mem_cons_of_mem _ he)

/-- Whether the change that the loop of `removeMoney` gives arrives in the inventory. -/
def GivesChange (cfg : Config) (p flags : ℕ) : World → ℕ → List (ℕ × ℕ) → Prop
  | _, _, [] => True
  | w, money, (total, item) :: map =>
    if total < money then
      GivesChange cfg p flags (internalRemoveItem cfg w item (w.items item).getItemCount)
        (money - total) map
    else
      let worth := total / (w.items item).getItemCount
      money < total →
        CoinsArrive cfg p flags w (coinStacks (worth * changedCount money worth - money))

/-- **The loop takes what it is to**, when the stacks are worth enough and the change arrives.

**Proof sketch.** Induction on the stacks. One that is worth less than what is to be paid is taken
away, and the others are as they were; of the first that is worth more, the change is put in, which
leaves the stack as it is, and as many coins are taken out as pay for both. -/
theorem removeCoins_spent (hcoins : CoinsStack cfg.types) (hR : ∀ t, Cylinder.tile t ∉ R)
    (hp : .player p ∈ R) {map : List (ℕ × ℕ)} (hmap : Payable w R map) (hw : w.WF cfg.types)
    (hlinked : w.Linked) {money : ℕ} (hpos : 0 < money) (hsum : money ≤ (map.map Prod.fst).sum)
    (hchange : GivesChange cfg p flags w money map) : (removeCoins cfg p flags w money map).2 = none ∧
      Spent cfg.types R money w (removeCoins cfg p flags w money map).1 := by
  induction map generalizing w money with
  | nil =>
    simp only [List.map_nil, List.sum_nil] at hsum
    omega
  | cons e map ih =>
    obtain ⟨total, x⟩ := e
    have hx : Holds w R x := hmap.holds _ List.mem_cons_self
    obtain ⟨hworth, hne⟩ := hmap.worth _ List.mem_cons_self
    dsimp only [Item.getWorth] at hworth hne
    have hid : worthOf (w.items x).id ≠ 0 := right_ne_zero_of_mul (hworth ▸ hne)
    have hcount : (w.items x).getItemCount ≠ 0 := left_ne_zero_of_mul (hworth ▸ hne)
    have hstack : (w.items x).isStackable cfg.types = true := hcoins _ hid
    obtain ⟨hmap', hall⟩ := hmap.next hcoins hR hw hlinked
    unfold GivesChange at hchange
    unfold removeCoins
    by_cases hless : total < money
    · rw [if_pos hless] at hchange ⊢
      rw [List.map_cons, List.sum_cons] at hsum
      obtain ⟨hnone, hrest⟩ := ih hmap' hall.wf hall.linked (by omega) (by omega) hchange
      refine ⟨hnone, hrest.wf, hrest.linked, ?_⟩
      have h₁ := hall.money
      have h₂ := hrest.money
      omega
    rw [if_neg hless] at hchange ⊢
    by_cases hmore : money < total
    · have hchange := hchange hmore
      rw [if_pos hmore]
      dsimp only at hchange ⊢
      have hunit : total / (w.items x).getItemCount = worthOf (w.items x).id := by
        rw [← hworth, Nat.mul_div_cancel_left _ (Nat.pos_of_ne_zero hcount)]
      rw [hunit] at hchange ⊢
      set worth := worthOf (w.items x).id with hw₀
      set r := changedCount money worth with hr
      have hbounds : 0 < r ∧ r ≤ (w.items x).getItemCount ∧ money ≤ worth * r ∧
          worth * r - money < worth ∧ worth * r - money < MAX_COINED := by
        unfold MAX_COINED
        unfold changedCount at hr
        rcases worthOf_cases hid with h | h | h <;> rw [← hw₀] at h <;>
          rw [h] at hworth hr ⊢ <;> omega
      obtain ⟨hr₀, hrle, hpaid, hlt, hmax⟩ := hbounds
      have hrich := addMoney_enriched (R := R) hcoins hw hlinked hp hmax hchange
      have hbody := hrich.body x (hw.lt_size hx) hlt
      obtain ⟨hspent, -⟩ := internalRemoveItem_spent (m := r) hrich.wf hrich.linked hR
        (hrich.holds hx) ((Item.isStackable_eq hbody cfg.types).trans hstack) hr₀
        ((Item.getItemCount_eq hbody).symm ▸ hrle)
      rw [(Item.body_eq hbody).1, ← hw₀] at hspent
      refine ⟨rfl, hspent.wf, hspent.linked, ?_⟩
      have h₁ := hspent.money
      have h₂ := hrich.money
      omega
    · rw [if_neg hmore]
      obtain rfl : total = money := by omega
      exact ⟨rfl, hall⟩

/-! ## The stacks that are found -/

/-- Where the walk through the containers comes from: the containers still to visit are different,
not visited yet, and each of those visited or to visit lies on a slot or in a visited one. -/
structure Walk (w : World) (p : ℕ) (visited : Set ℕ) (containers : List ℕ) : Prop where
  nodup : containers.Nodup
  fresh : ∀ c ∈ containers, c ∉ visited
  found : ∀ c, c ∈ visited ∨ c ∈ containers →
    ∃ d, c ∈ w.contents d ∧ (d = .player p ∨ ∃ v ∈ visited, d = .item v)

/-- What lies in a container to visit is not in the walk. -/
theorem Walk.outside (hw : w.WF types) {visited : Set ℕ} {c : ℕ} {containers : List ℕ}
    (h : Walk w p visited (c :: containers)) (hx : x ∈ w.itemlist c) : x ∉ visited ∧ x ∉ c :: containers := by
  have hnot : ¬ (x ∈ visited ∨ x ∈ c :: containers) := by
    intro hin
    obtain ⟨d, hd, hfrom⟩ := h.found x hin
    obtain rfl : Cylinder.item c = d := hw.unique (.item c) d x hx hd
    rcases hfrom with hfrom | ⟨v, hv, hfrom⟩
    · exact nomatch hfrom
    · obtain rfl := Cylinder.item.inj hfrom
      exact h.fresh c List.mem_cons_self hv
  exact not_or.1 hnot

/-- A step of the walk. -/
theorem Walk.step (hw : w.WF types) {visited : Set ℕ} {c : ℕ} {containers : List ℕ}
    (h : Walk w p visited (c :: containers)) (q : ℕ → Bool) :
    Walk w p (insert c visited) (containers ++ (w.itemlist c).filter q) := by
  obtain ⟨hc, hnodup⟩ := List.nodup_cons.1 h.nodup
  have hout : ∀ z ∈ (w.itemlist c).filter q, z ∉ visited ∧ z ∉ c :: containers := fun z hz =>
    h.outside hw (List.mem_of_mem_filter hz)
  refine ⟨List.nodup_append.2 ⟨hnodup, (hw.nodup (.item c)).filter q, fun z hz u hu e => ?_⟩,
    fun z hz hin => ?_, fun z hz => ?_⟩
  · exact (hout u hu).2 (e ▸ List.mem_cons_of_mem c hz)
  · rcases List.mem_append.1 hz with hold | hnew
    · rcases hin with rfl | hin
      · exact hc hold
      · exact h.fresh z (List.mem_cons_of_mem c hold) hin
    · rcases hin with rfl | hin
      · exact (hout z hnew).2 List.mem_cons_self
      · exact (hout z hnew).1 hin
  · have hold : z ∈ visited ∨ z ∈ c :: containers →
        ∃ d, z ∈ w.contents d ∧ (d = .player p ∨ ∃ v ∈ insert c visited, d = .item v) := by
      intro hin
      obtain ⟨d, hd, hfrom⟩ := h.found z hin
      exact ⟨d, hd, hfrom.imp_right fun ⟨v, hv, e⟩ => ⟨v, Set.mem_insert_of_mem c hv, e⟩⟩
    rcases hz with (rfl | hz) | hz
    · exact hold (Or.inr List.mem_cons_self)
    · exact hold (Or.inl hz)
    · rcases List.mem_append.1 hz with hz | hz
      · exact hold (Or.inr (List.mem_cons_of_mem c hz))
      · exact ⟨.item c, List.mem_of_mem_filter hz, Or.inr ⟨c, Set.mem_insert c visited, rfl⟩⟩

/-- **The walk finds no item twice**, and none that lies in a visited container. -/
theorem itemsWithin_nodup (hw : w.WF types) {fuel : ℕ} {visited : Set ℕ} {containers : List ℕ}
    (h : Walk w p visited containers) : (itemsWithin w fuel containers).Nodup ∧
      ∀ x ∈ itemsWithin w fuel containers, ∃ c, c ∉ visited ∧ x ∈ w.itemlist c := by
  induction fuel generalizing visited containers with
  | zero => exact ⟨List.nodup_nil, fun x hx => nomatch hx⟩
  | succ fuel ih =>
    cases containers with
    | nil => exact ⟨List.nodup_nil, fun x hx => nomatch hx⟩
    | cons c containers =>
      obtain ⟨hnodup, hfrom⟩ := ih (h.step hw fun x => (w.items x).container.isSome)
      unfold itemsWithin
      refine ⟨List.nodup_append.2 ⟨(hw.nodup (.item c)).filter _, hnodup, fun x hx y hy e => ?_⟩,
        fun x hx => ?_⟩
      · obtain ⟨d, hd, hyd⟩ := hfrom y hy
        have hxc : x ∈ w.contents (.item c) := List.mem_of_mem_filter hx
        obtain rfl : c = d := Cylinder.item.inj (hw.unique _ _ x hxc (e ▸ hyd))
        exact hd (Set.mem_insert c visited)
      · rcases List.mem_append.1 hx with hx | hx
        · exact ⟨c, h.fresh c List.mem_cons_self, List.mem_of_mem_filter hx⟩
        · obtain ⟨d, hd, hxd⟩ := hfrom x hx
          exact ⟨d, fun hin => hd (Set.mem_insert_of_mem c hin), hxd⟩

/-- What the walk finds is held. -/
theorem holds_of_itemsWithin {fuel : ℕ} {containers : List ℕ}
    (h : ∀ c ∈ containers, Holds w R c) : ∀ x ∈ itemsWithin w fuel containers, Holds w R x := by
  induction fuel generalizing containers with
  | zero => nofun
  | succ fuel ih =>
    cases containers with
    | nil => nofun
    | cons c containers =>
      have hin : ∀ y ∈ w.itemlist c, Holds w R y := fun y hy => .nested (h c List.mem_cons_self) hy
      intro x hx
      unfold itemsWithin at hx
      rcases List.mem_append.1 hx with hx | hx
      · exact hin x (List.mem_of_mem_filter hx)
      · refine ih (fun y hy => ?_) x hx
        rcases List.mem_append.1 hy with hy | hy
        · exact h y (List.mem_cons_of_mem c hy)
        · exact hin y (List.mem_of_mem_filter hy)

/-- **No item is looked at twice**, and each is held by the player. -/
theorem looseItems_nodup (hw : w.WF types) (hp : .player p ∈ R) :
    (looseItems w p).Nodup ∧ ∀ x ∈ looseItems w p, Holds w R x := by
  have hslots := hw.nodup (.player p)
  have hwalk : Walk w p ∅
      ((w.contents (.player p)).filter fun x => (w.items x).container.isSome) := by
    refine ⟨hslots.filter _, fun _ _ h => h, fun c hc => ⟨.player p, ?_, Or.inl rfl⟩⟩
    exact hc.elim False.elim List.mem_of_mem_filter
  set containers := (w.contents (.player p)).filter fun x => (w.items x).container.isSome
  have hwithin : (itemsWithin w (w.size + 1) containers).Nodup ∧
      ∀ x ∈ itemsWithin w (w.size + 1) containers, ∃ c, c ∉ (∅ : Set ℕ) ∧ x ∈ w.itemlist c :=
    itemsWithin_nodup hw hwalk
  obtain ⟨hnodup, hfrom⟩ := hwithin
  refine ⟨List.nodup_append.2 ⟨hslots.filter _, hnodup, fun x hx y hy e => ?_⟩, fun x hx => ?_⟩
  · obtain ⟨c, -, hyc⟩ := hfrom y hy
    exact nomatch hw.unique (.player p) (.item c) x (List.mem_of_mem_filter hx) (e ▸ hyc)
  · rcases List.mem_append.1 hx with hx | hx
    · exact holds_of_mem hp (List.mem_of_mem_filter hx)
    · exact holds_of_itemsWithin (fun c hc => holds_of_mem hp (List.mem_of_mem_filter hc)) x hx

theorem emplace_perm (entry : ℕ × ℕ) (map : List (ℕ × ℕ)) : (emplace entry map).Perm (entry :: map) := by
  induction map with
  | nil => exact .refl _
  | cons e map ih =>
    unfold emplace
    split_ifs
    · exact (ih.cons e).trans (.swap entry e map)
    · exact .refl _

/-- The money map has the stacks that are worth something. -/
theorem moneyMap_perm (w : World) (p : ℕ) :
    (moneyMap w p).Perm (((looseItems w p).filter fun x => (w.items x).getWorth ≠ 0).map fun x =>
      ((w.items x).getWorth, x)) := by
  have hfold : ∀ (l : List ℕ) (map : List (ℕ × ℕ)),
      (l.foldl (fun map x => if (w.items x).getWorth ≠ 0 then emplace ((w.items x).getWorth, x) map
        else map) map).Perm
        ((l.filter fun x => (w.items x).getWorth ≠ 0).map (fun x => ((w.items x).getWorth, x)) ++
          map) := by
    intro l
    induction l with
    | nil => exact fun map => .refl _
    | cons x l ih =>
      intro map
      rw [List.foldl_cons]
      by_cases hx : (w.items x).getWorth ≠ 0
      · rw [if_pos hx, List.filter_cons_of_pos (by simpa using hx), List.map_cons,
          List.cons_append]
        exact (ih _).trans (((emplace_perm _ _).append_left _).trans List.perm_middle)
      · rw [if_neg hx, List.filter_cons_of_neg (by simpa using hx)]
        exact ih map
  simpa [moneyMap] using hfold (looseItems w p) []

theorem moneyMap_payable (hw : w.WF types) (hp : .player p ∈ R) : Payable w R (moneyMap w p) := by
  obtain ⟨hnodup, hholds⟩ := looseItems_nodup hw hp
  have hperm := moneyMap_perm w p
  refine ⟨(hperm.map Prod.snd).nodup_iff.2 ?_, fun e he => ?_, fun e he => ?_⟩
  · simpa [Function.comp_def] using hnodup.filter _
  · obtain ⟨x, hx, rfl⟩ := List.mem_map.1 (hperm.mem_iff.1 he)
    exact hholds x (List.mem_of_mem_filter hx)
  · obtain ⟨x, hx, rfl⟩ := List.mem_map.1 (hperm.mem_iff.1 he)
    exact ⟨rfl, by simpa using (List.mem_filter.1 hx).2⟩

/-! ## Paying -/

/-- Whether a payment without the bank account leaves the change in the inventory. -/
def PaysExactly (cfg : Config) (w : World) (p money flags : ℕ) : Prop :=
  money ≠ 0 → money ≤ ((moneyMap w p).map Prod.fst).sum % 2 ^ 64 →
    GivesChange cfg p flags w money (moneyMap w p)

/-- **`removeMoney` takes what it is to, or nothing**: when it succeeds, the player carries that
much less; when it fails, the world is as it was. -/
theorem removeMoney_spec (hcoins : CoinsStack cfg.types) (hR : ∀ t, Cylinder.tile t ∉ R)
    (hp : .player p ∈ R) (hw : w.WF cfg.types) (hlinked : w.Linked) {money balance : ℕ}
    (hpays : PaysExactly cfg w p money flags) :
    let r := removeMoney cfg w p money flags false balance
    r.2.2 = balance ∧ (r.1 = true → Spent cfg.types R money w r.2.1) ∧
      (r.1 = false → r.2.1 = w) := by
  dsimp only
  unfold removeMoney
  by_cases hzero : money = 0
  · subst hzero
    exact ⟨rfl, fun _ => ⟨hw, hlinked, rfl⟩, fun _ => rfl⟩
  rw [if_neg hzero]
  dsimp only
  simp only [Bool.false_eq_true, if_false, Nat.add_zero, Nat.mod_mod]
  by_cases hpoor : ((moneyMap w p).map Prod.fst).sum % 2 ^ 64 < money
  · rw [if_pos hpoor]
    exact ⟨rfl, nofun, fun _ => rfl⟩
  · rw [if_neg hpoor]
    have hsum : money ≤ ((moneyMap w p).map Prod.fst).sum :=
      (not_lt.1 hpoor).trans (Nat.mod_le _ _)
    obtain ⟨hnone, hspent⟩ := removeCoins_spent hcoins hR hp (moneyMap_payable hw hp) hw hlinked
      (Nat.pos_of_ne_zero hzero) hsum (hpays hzero (not_lt.1 hpoor))
    cases hr : removeCoins cfg p flags w money (moneyMap w p) with
    | mk w' rest =>
      rw [hr] at hnone hspent
      obtain rfl : rest = none := hnone
      exact ⟨rfl, fun _ => hspent, nofun⟩

end TiabloServer.Items
