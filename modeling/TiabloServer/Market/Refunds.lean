import TiabloServer.Items.Types

/-!
# Refunds of market offers

An offer of the market that ends without being accepted goes back to its owner: by
`Game::playerCancelMarketOffer` (`game/game.cpp`) when the owner cancels it, and by
`IOMarket::processExpiredOffers` (`io/iomarket.cpp`) when it expires. The items of a sell offer are
put into the inbox. The inbox is a locked container, in which nothing is stacked on what is there
already.

## Main definitions

* `Market.SameRefund` — the same gold, coins and units of each item and tier.
* `Market.RefundsAgree` — the offers that both refund alike.

## Main results

* `Market.units_addStacks` — the units that a loop of stacks puts into the inbox.
* `Market.sameRefund_iff` — the offers for which expiry refunds what cancelling would have refunded.
-/

namespace TiabloServer.Market

open TiabloServer.Items (Item ItemType ItemTypes createStack createdId)

def ITEM_STORE_COIN : ℕ := 22118

/-- What the refunds read outside the owner: the types, whether there is a type of an id, and what
`Item::CreateItem` makes of a type that does not stack, by id and subtype. -/
structure Server where
  types : ItemTypes
  registered : ℕ → Bool
  createSingle : ℕ → ℕ → Item

/-- `MarketAction_t`. -/
inductive MarketAction where
  | MARKETACTION_BUY
  | MARKETACTION_SELL
deriving DecidableEq

/-- A row of `market_offers`. The tier is what `getTierFromDatabaseTable` reads. -/
structure Offer where
  type : MarketAction
  itemId : ℕ
  amount : UInt16
  price : UInt64
  tier : UInt8

/-- The gold, the coins and the inbox of the owner; `room` says how many more items the inbox
takes. -/
structure Owner where
  bankBalance : UInt64
  coins : UInt32
  inbox : List Item
  room : ℕ

section Refunds

variable (server : Server)

/-- The items that `Inbox::queryAdd` lets in one after the other: none that cannot be picked up. -/
def Owner.roomFor (owner : Owner) (item : Item) : ℕ :=
  if (item.type server.types).pickupable then owner.room else 0

/-- `setAttribute` of the tier, if there is one. -/
def withTier (tier : UInt8) (item : Item) : Item :=
  if tier ≠ 0 then item.setAttribute .TIER (.integer tier.toNat) else item

/-- The loop over stacks of at most `stackSize`, until `internalAddItem` fails as there is no more
room. -/
def addStacks (it : ℕ) (tier : UInt8) (stackSize : ℕ) : ℕ → ℕ → List Item → List Item
  | 0, _, inbox => inbox
  | room + 1, tmpAmount, inbox =>
    if tmpAmount > 0 then
      let stackCount := min stackSize tmpAmount
      addStacks it tier stackSize room (tmpAmount - stackCount)
        (withTier tier (createStack server.types it stackCount) :: inbox)
    else inbox

/-- The loop over single items. -/
def addSingles (item : Item) : ℕ → ℕ → List Item → List Item
  | 0, _, inbox => inbox
  | _ + 1, 0, inbox => inbox
  | room + 1, amount + 1, inbox => addSingles item room amount (item :: inbox)

/-- The subtype of single items: their charges, or -1 as an `uint16_t`. -/
def subType (it : ItemType) : ℕ := if it.charges ≠ 0 then it.charges else 0xFFFF

/-- The items of a sell offer go into the inbox, those that stack in stacks of at most
`stackSize`. -/
def addItems (offer : Offer) (stackSize : ℕ) (owner : Owner) : Owner :=
  if (server.types offer.itemId).stackable then
    let room := owner.roomFor server (createStack server.types offer.itemId 1)
    { owner with
      inbox := addStacks server offer.itemId offer.tier stackSize room offer.amount.toNat owner.inbox }
  else
    let item := server.createSingle offer.itemId (subType (server.types offer.itemId))
    { owner with
      inbox := addSingles (withTier offer.tier item) (owner.roomFor server item) offer.amount.toNat
        owner.inbox }

/-- `IOMarket::processExpiredOffers`, of a row that is still there and whose owner can be loaded.
Gold of an owner who is not online is added in the database. -/
def processExpiredOffer (offer : Offer) (owner : Owner) : Owner :=
  match offer.type with
  | .MARKETACTION_SELL =>
    if !server.registered offer.itemId then owner else addItems server offer 100 owner
  | .MARKETACTION_BUY =>
    { owner with bankBalance := owner.bankBalance + offer.price * offer.amount.toUInt64 }

/-- `Game::playerCancelMarketOffer`, of an owner who is in the market and may cancel. -/
def playerCancelMarketOffer (offer : Offer) (owner : Owner) : Owner :=
  match offer.type with
  | .MARKETACTION_BUY =>
    { owner with bankBalance := owner.bankBalance + offer.price * offer.amount.toUInt64 }
  | .MARKETACTION_SELL =>
    if !server.registered offer.itemId then owner
    else if offer.itemId = ITEM_STORE_COIN then
      { owner with coins := owner.coins + offer.amount.toUInt32 }
    else addItems server offer (server.types offer.itemId).stackSize.toNat owner

end Refunds

/-! ## What the refunds have in common -/

section Units

variable {server : Server}

/-- The units of an item and a tier, however they are grouped into stacks. -/
def units (inbox : List Item) (id : ℕ) (tier : ℤ) : ℕ :=
  (inbox.map fun item => if item.id = id ∧ item.getAttribute .TIER = tier then item.getItemCount else 0).sum

/-- **The same refund**: the same gold, the same coins, and the same units of each item and tier. -/
def SameRefund (owner owner' : Owner) : Prop :=
  owner.bankBalance = owner'.bankBalance ∧ owner.coins = owner'.coins ∧
    ∀ id tier, units owner.inbox id tier = units owner'.inbox id tier

theorem units_cons (item : Item) (inbox : List Item) (id : ℕ) (tier : ℤ) :
    units (item :: inbox) id tier =
      (if item.id = id ∧ item.getAttribute .TIER = tier then item.getItemCount else 0) +
        units inbox id tier := by
  rw [units, List.map_cons, List.sum_cons, ← units]

theorem id_withTier (tier : UInt8) (item : Item) : (withTier tier item).id = item.id := by
  rw [withTier]
  split_ifs <;> rfl

theorem getItemCount_withTier (tier : UInt8) (item : Item) :
    (withTier tier item).getItemCount = item.getItemCount := by
  rw [withTier]
  split_ifs <;> rfl

/-- The tier of a new stack is the one that it was given. -/
theorem getAttribute_withTier (types : ItemTypes) (it count : ℕ) (tier : UInt8) :
    (withTier tier (createStack types it count)).getAttribute .TIER = tier.toNat := by
  rw [withTier]
  split_ifs with htier
  · simp [Item.setAttribute, Item.getAttribute, Items.AttributeValue.toInt]
  · rw [not_not] at htier
    rw [htier, Item.getAttribute, createStack, Items.defaultAttributes]
    split_ifs <;> rfl

/-- The units of a stack: one where nothing was asked for. -/
def stackUnits (count : ℕ) : ℕ := if count = 0 then 1 else count

theorem getItemCount_createStack (types : ItemTypes) (it : ℕ) {count : ℕ} (hcount : count < 256) :
    (createStack types it count).getItemCount = stackUnits count := by
  rw [Item.getItemCount, createStack, stackUnits, UInt8.toNat_ofNat']
  split_ifs <;> omega

/-- The units that the loop over stacks puts into the inbox. -/
def stacksUnits (stackSize : ℕ) : ℕ → ℕ → ℕ
  | 0, _ => 0
  | room + 1, tmpAmount =>
    if tmpAmount > 0 then
      stackUnits (min stackSize tmpAmount) +
        stacksUnits stackSize room (tmpAmount - min stackSize tmpAmount)
    else 0

/-- **The loop over stacks** adds units of its item and tier, and no others. -/
theorem units_addStacks (it : ℕ) (tier : UInt8) {stackSize : ℕ} (hsize : stackSize < 256)
    (room tmpAmount : ℕ) (inbox : List Item) (id : ℕ) (tier' : ℤ) :
    units (addStacks server it tier stackSize room tmpAmount inbox) id tier' =
      (if createdId server.types it = id ∧ (tier.toNat : ℤ) = tier' then
        stacksUnits stackSize room tmpAmount else 0) + units inbox id tier' := by
  induction room generalizing tmpAmount inbox with
  | zero => rw [addStacks, stacksUnits, ite_self, zero_add]
  | succ room ih =>
    rw [addStacks, stacksUnits]
    by_cases hleft : tmpAmount > 0
    · have hcount : min stackSize tmpAmount < 256 := lt_of_le_of_lt (min_le_left _ _) hsize
      have hid : (createStack server.types it (min stackSize tmpAmount)).id =
          createdId server.types it := rfl
      rw [if_pos hleft, if_pos hleft]
      dsimp only
      rw [ih, units_cons, id_withTier, getItemCount_withTier, getAttribute_withTier,
        getItemCount_createStack _ _ hcount, hid]
      split_ifs <;> omega
    · rw [if_neg hleft, if_neg hleft, ite_self, zero_add]

/-- Stacks of some size take all units, or as many as there is room for. -/
theorem stacksUnits_eq {stackSize : ℕ} (hsize : stackSize ≠ 0) (room tmpAmount : ℕ) :
    stacksUnits stackSize room tmpAmount = min tmpAmount (stackSize * room) := by
  induction room generalizing tmpAmount with
  | zero => rw [stacksUnits, Nat.mul_zero, Nat.min_zero]
  | succ room ih =>
    rw [stacksUnits, ih, stackUnits, Nat.mul_succ]
    split_ifs with hleft hzero
    · omega
    · omega
    · omega

/-- Stacks of size 0 are made as long as there is room: each has one unit, and nothing is
counted. -/
theorem stacksUnits_zero (room tmpAmount : ℕ) :
    stacksUnits 0 room tmpAmount = if tmpAmount = 0 then 0 else room := by
  induction room with
  | zero => rw [stacksUnits, ite_self]
  | succ room ih =>
    rw [stacksUnits, Nat.zero_min, Nat.sub_zero, ih, stackUnits]
    split_ifs <;> omega

/-- Stacks of 100 and of another size take the same. -/
def StacksAgree (stackSize room amount : ℕ) : Prop :=
  stackSize = 100 ∨ room = 0 ∨ amount = 0 ∨
    (stackSize ≠ 0 ∧ amount ≤ 100 * room ∧ amount ≤ stackSize * room) ∨ stackSize = 0 ∧ amount = room

theorem stacksAgree_iff (stackSize room amount : ℕ) : StacksAgree stackSize room amount ↔
      stacksUnits 100 room amount = stacksUnits stackSize room amount := by
  rw [StacksAgree, stacksUnits_eq (by decide)]
  by_cases hzero : stackSize = 0
  · subst hzero
    rw [stacksUnits_zero]
    split_ifs with hamount
    · rw [hamount, Nat.zero_min]
      exact iff_of_true (by simp) rfl
    · constructor
      · rintro (h | h | h | ⟨h, -⟩ | ⟨-, h⟩)
        · cases h
        · omega
        · exact absurd h hamount
        · exact absurd rfl h
        · omega
      · intro h
        by_cases hroom : room = 0
        · exact Or.inr (Or.inl hroom)
        · exact Or.inr (Or.inr (Or.inr (Or.inr ⟨rfl, by omega⟩)))
  · rw [stacksUnits_eq hzero]
    by_cases hroom : room = 0
    · subst hroom
      simp
    · by_cases hsize : stackSize = 100
      · subst hsize
        simp
      · have hne : 100 * room ≠ stackSize * room :=
          fun heq => hsize (Nat.eq_of_mul_eq_mul_right (Nat.pos_of_ne_zero hroom) heq).symm
        generalize stackSize * room = product at *
        omega

end Units

/-! ## The two refunds -/

section Comparison

variable (server : Server)

/-- The offers that both refund alike: all offers to buy, and to sell those of ids without a type;
else the coins of the store only if there are none, items that stack as far as stacks of 100 and of
their own size take the same, and all other items. -/
def RefundsAgree (offer : Offer) (owner : Owner) : Prop :=
  offer.type = .MARKETACTION_SELL → server.registered offer.itemId = true →
    if offer.itemId = ITEM_STORE_COIN then offer.amount = 0
    else (server.types offer.itemId).stackable = true →
      StacksAgree (server.types offer.itemId).stackSize.toNat
        (owner.roomFor server (createStack server.types offer.itemId 1)) offer.amount.toNat

/-- Stacks of two sizes refund alike exactly if they take the same number of units. -/
theorem sameRefund_addItems (offer : Offer) (owner : Owner) {stackSize : ℕ} (hsize : stackSize < 256) :
    SameRefund (addItems server offer 100 owner) (addItems server offer stackSize owner) ↔
      ((server.types offer.itemId).stackable = true →
        StacksAgree stackSize (owner.roomFor server (createStack server.types offer.itemId 1))
          offer.amount.toNat) := by
  rw [addItems, addItems]
  split_ifs with hstackable
  · rw [stacksAgree_iff]
    dsimp only
    constructor
    · rintro ⟨-, -, hunits⟩ -
      have hsame := hunits (createdId server.types offer.itemId) offer.tier.toNat
      dsimp only at hsame
      rw [units_addStacks _ _ (by decide), units_addStacks _ _ hsize, if_pos ⟨rfl, rfl⟩,
        if_pos ⟨rfl, rfl⟩] at hsame
      exact Nat.add_right_cancel hsame
    · intro hsame
      refine ⟨rfl, rfl, fun id tier => ?_⟩
      rw [units_addStacks _ _ (by decide), units_addStacks _ _ hsize, hsame hstackable]
  · exact iff_of_true ⟨rfl, rfl, fun _ _ => rfl⟩ fun h => absurd h hstackable

/-- Nothing is added where nothing was offered. -/
theorem addItems_zero {offer : Offer} (hamount : offer.amount = 0) (stackSize : ℕ) (owner : Owner) :
    addItems server offer stackSize owner = owner := by
  have hstacks : ∀ room, addStacks server offer.itemId offer.tier stackSize room 0 owner.inbox =
      owner.inbox := by
    intro room
    cases room <;> rfl
  have hsingles : ∀ item room, addSingles item room 0 owner.inbox = owner.inbox := by
    intro item room
    cases room <;> rfl
  rw [addItems, hamount]
  dsimp only [UInt16.toNat_zero]
  split_ifs
  · rw [UInt16.toNat_zero, hstacks]
  · rw [UInt16.toNat_zero, hsingles]

/-- **Expiry and cancelling.** An offer that expires refunds what cancelling it would have refunded
exactly if it is one of those that both refund alike. -/
theorem sameRefund_iff (offer : Offer) (owner : Owner) :
    SameRefund (processExpiredOffer server offer owner) (playerCancelMarketOffer server offer owner) ↔
      RefundsAgree server offer owner := by
  rw [RefundsAgree, processExpiredOffer, playerCancelMarketOffer]
  cases htype : offer.type with
  | MARKETACTION_BUY => exact iff_of_true ⟨rfl, rfl, fun _ _ => rfl⟩ fun h => by cases h
  | MARKETACTION_SELL =>
    dsimp only
    cases hregistered : server.registered offer.itemId with
    | false => exact iff_of_true ⟨rfl, rfl, fun _ _ => rfl⟩ fun _ h => by cases h
    | true =>
      rw [Bool.not_true, if_neg Bool.false_ne_true, if_neg Bool.false_ne_true]
      rw [imp_iff_right rfl, imp_iff_right rfl]
      split_ifs with hcoin
      · constructor
        · rintro ⟨-, hcoins, -⟩
          have hkept : (addItems server offer 100 owner).coins = owner.coins := by
            rw [addItems]
            split_ifs <;> rfl
          dsimp only at hcoins
          rw [hkept] at hcoins
          exact UInt16.toUInt32_inj.1 (UInt32.left_eq_add.1 hcoins)
        · intro hamount
          rw [addItems_zero server hamount, hamount]
          exact ⟨rfl, (UInt32.add_zero _).symm, fun _ _ => rfl⟩
      · exact sameRefund_addItems server offer owner (UInt8.toNat_lt _)

/-- A type of stacks of up to 100 that can be picked up. -/
def coinType : ItemType where
  group := .ITEM_GROUP_NONE
  type := .other
  weaponType := .WEAPON_NONE
  slotPosition := 0
  stackable := true
  stackSize := 100
  charges := 0
  decayTime := 0
  weight := 0
  maxItems := 0
  pickupable := true
  movable := true
  blockSolid := false
  hasHeight := false
  alwaysOnTopOrder := 0
  isHangable := false
  supportHangable := false
  replaceable := false
  wareId := 0
  stackable_group := fun _ => rfl
  stackable_type := by decide

/-- All types are such. -/
def coinServer : Server := ⟨fun _ => coinType, fun _ => true, createStack fun _ => coinType⟩

/-- Ten coins of the store are offered. -/
def coinOffer : Offer := ⟨.MARKETACTION_SELL, ITEM_STORE_COIN, 10, 50000, 0⟩

/-- Coins of the store that expire come back as a stack in the inbox, and not to the account. -/
theorem not_sameRefund_coins :
    ¬ SameRefund (processExpiredOffer coinServer coinOffer ⟨0, 0, [], 10⟩)
      (playerCancelMarketOffer coinServer coinOffer ⟨0, 0, [], 10⟩) := by
  rintro ⟨-, hcoins, -⟩
  revert hcoins
  decide

end Comparison

end TiabloServer.Market
