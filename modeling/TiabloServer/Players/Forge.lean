import TiabloServer.Lib.Attempt
import TiabloServer.Lib.Runs
import TiabloServer.Players.Belongings

/-!
# The forge

`Player::forgeFuseItems`, `Player::forgeTransferItemTier` and `Player::forgeResourceConversion`. The
first two take two items, then dust, cores and gold, and put what they forge into an exaltation
chest that they give to the player; every one of their failures returns on the spot, with what has
been taken by then gone. The functions here return `Except`, with the player as he is left when they
fail.

The source checks the dust before it takes some when a fusion fails and for a transfer, but not when
a fusion succeeds, and only a fusion that succeeds records the dust in the history.

## Main definitions

* `Forge.Charged` — a completed call took what it is to.
* `Forge.Fair` — the dust and the tier that the call relies on are there.

## Main results

* `Forge.run_charged` — in a run of completed fair calls the dust is what has been recorded, and
  every call takes what it is to.
-/

namespace TiabloServer.Forge

open Attempt
open Items (worthOf)

/-! ## The server and the player -/

/-- `ForgeAction_t`. -/
inductive ForgeAction where
  | FUSION
  | TRANSFER
  | DUSTTOSLIVERS
  | SLIVERSTOCORES
  | INCREASELIMIT
deriving DecidableEq

/-- `TierInfo`: the prices of a tier. -/
structure TierInfo where
  corePrice : UInt8
  regularPrice : ℕ
  convergenceFusionPrice : ℕ
  convergenceTransferPrice : ℕ

structure ItemClassification where
  id : UInt8
  tiers : List (UInt8 × TierInfo)

/-- What the forge reads outside the player: the item types, the classifications, the configuration,
and how the inventory, the exaltation chest and the tile under the player answer to new items. -/
structure Server where
  types : Items.ItemTypes
  currency_stackable : ∀ id, isCurrency id → (types id).stackable = true
  known : ℕ → Bool
  canRemove : ℕ → Bool
  isContainer : ℕ → Bool
  upgradeClassification : ℕ → UInt8
  itemsClassifications : List ItemClassification
  FORGE_MAX_ITEM_TIER : ℕ
  FORGE_FUSION_DUST_COST : UInt64
  FORGE_CONVERGENCE_FUSION_DUST_COST : UInt64
  FORGE_TRANSFER_DUST_COST : UInt64
  FORGE_CONVERGENCE_TRANSFER_DUST_COST : UInt64
  FORGE_TIER_LOSS_REDUCTION : ℕ
  FORGE_COST_ONE_SLIVER : ℕ
  FORGE_SLIVER_AMOUNT : ℕ
  FORGE_CORE_COST : ℕ
  FORGE_MAX_DUST : UInt64
  getFreeBackpackSlots : Inventory → ℕ
  chestTakes : Body → Bool
  tileTakes : Body → Bool
  placing : Placing

/-- `ForgeHistory`, with the ids of the items for their names. -/
structure ForgeHistory where
  actionType : ForgeAction
  tier : UInt8
  bonus : ℕ
  cost : ℕ
  dustCost : UInt64
  coresCost : ℕ
  gained : ℕ
  success : Bool
  tierLoss : Bool
  convergence : Bool
  firstItem : ℕ
  secondItem : ℕ

/-- A `Player`, as far as the forge changes him. -/
structure Player extends Purse where
  forgeDusts : UInt64
  forgeDustLevel : UInt64
  forgeHistory : List ForgeHistory

variable (server : Server)

/-! ## Items and their tiers -/

/-- `Item::CreateItem`; nothing for a type that does not exist. -/
def createItem (type count : ℕ) : Option Body :=
  if server.known type then some {
    id := Items.createdId server.types type
    count := if (server.types type).stackable ∧ count ≠ 0 then count % 256 else 1
    tier := none
    hasImbuements := false
    removable := server.canRemove type }
  else none

/-- `Item::getTier`. -/
def Body.getTier (x : Body) : UInt8 :=
  match x.tier with
  | none => 0
  | some tier => if server.FORGE_MAX_ITEM_TIER < tier.toNat then 0 else tier

/-- `Item::setTier`. -/
def Body.setTier (x : Body) (tier : UInt8) : Body :=
  if server.FORGE_MAX_ITEM_TIER < tier.toNat then x
  else if server.upgradeClassification x.id ≠ 0 then { x with tier := some tier }
  else x

/-- `Player::getForgeItemFromId`: the first such item that lies in a container. -/
def getForgeItemFromId (s : Player) (itemId : ℕ) (tier : UInt8) : Option Item :=
  (s.inventory.items.filter fun x => x.holders ≠ []).find? fun x =>
    ¬ x.hasImbuements ∧ x.id = itemId ∧ x.getTier server = tier

/-- The prices of a tier of a classification, if they are configured. -/
def tierInfo (classification tier : UInt8) : Option TierInfo :=
  (server.itemsClassifications.find? (·.id = classification)).bind fun c => c.tiers.lookup tier

/-- What a tier of a classification costs; 0 when its prices are not configured. -/
def price (f : TierInfo → ℕ) (classification tier : UInt8) : ℕ :=
  (tierInfo server classification tier).elim 0 f

/-! ## The steps of a call -/

/-- Fails, with the player as he is, unless `c` holds. -/
def ensure (s : Player) (c : Bool) : Except Player Unit := if c then .ok () else .error s

/-- Takes an item for the forge: the item, and the player without it. -/
def takeForgeItem (s : Player) (itemId : ℕ) (tier : UInt8) : Except Player (Body × Player) :=
  match getForgeItemFromId server s itemId tier with
  | none => .error s
  | some x =>
    match s.inventory.internalRemoveItem server.types x 1 with
    | none => .error s
    | some inventory => .ok (x.toBody, { s with inventory := inventory })

/-- Takes both items; the second one is looked up when the first one is gone. -/
def takeForgeItems (s : Player) (firstItemId : ℕ) (firstTier : UInt8) (secondItemId : ℕ)
    (secondTier : UInt8) : Except Player (Body × Player) := do
  let (first, s) ← takeForgeItem server s firstItemId firstTier
  let (_, s) ← takeForgeItem server s secondItemId secondTier
  return (first, s)

/-- Creates an item that is forged. -/
def createForged (s : Player) (itemId : ℕ) : Except Player Body :=
  match createItem server itemId 1 with
  | none => .error s
  | some forged => .ok forged

/-- `Game::internalAddItem` to the chest. -/
def putInChest (s : Player) (forged : Body) : Except Player Unit := ensure s (server.chestTakes forged)

/-- Takes items of an id with `removeItemCountById`. -/
def takeCounted (s : Player) (itemId itemAmount : ℕ) : Except Player Player :=
  match removeItemCountById server.types s.toPurse itemId itemAmount with
  | (true, purse) => .ok { s with toPurse := purse }
  | (false, purse) => .error { s with toPurse := purse }

/-- Takes gold with `removeMoney`. -/
def takeMoney (s : Player) (cost : ℕ) : Except Player Player :=
  match removeMoney server.types server.placing s.toPurse cost with
  | (true, purse) => .ok { s with toPurse := purse }
  | (false, purse) => .error { s with toPurse := purse }

/-- Takes dust without a look at how much there is. -/
def takeDust (s : Player) (dustCost : UInt64) : Player :=
  { s with forgeDusts := s.forgeDusts - dustCost }

/-- What a fusion or a transfer has made: the player, the items in the chest and the history. -/
structure Forged where
  player : Player
  contents : List Body
  history : ForgeHistory

/-- The exaltation chest. -/
def exaltationChest : Body where
  id := ITEM_EXALTATION_CHEST
  count := 1
  tier := none
  hasImbuements := false
  removable := server.canRemove ITEM_EXALTATION_CHEST

/-- Gives the chest to the player and registers the history. -/
def deliver (forged : Forged) : Except Player Player :=
  match server.placing.place forged.player.inventory (exaltationChest server :: forged.contents) with
  | none => .error forged.player
  | some inventory => .ok { forged.player with
      inventory := inventory
      forgeHistory := forged.player.forgeHistory ++ [forged.history] }

/-! ## Fusion -/

/-- The arguments of `forgeFuseItems`, with the roll that decides on the loss of a tier. -/
structure Fusion where
  firstItemId : ℕ
  tier : UInt8
  secondItemId : ℕ
  success : Bool
  reduceTierLoss : Bool
  convergence : Bool
  bonus : ℕ
  coreCount : ℕ
  roll : ℕ

/-- The dust that the configuration asks for a fusion. -/
def Fusion.dustCost (a : Fusion) : UInt64 :=
  if a.convergence then server.FORGE_CONVERGENCE_FUSION_DUST_COST else server.FORGE_FUSION_DUST_COST

/-- The history at the start of a fusion. -/
def Fusion.history (a : Fusion) : ForgeHistory where
  actionType := .FUSION
  tier := a.tier
  bonus := a.bonus
  cost := 0
  dustCost := 0
  coresCost := 0
  gained := 0
  success := a.success
  tierLoss := a.reduceTierLoss
  convergence := a.convergence
  firstItem := a.firstItemId
  secondItem := a.secondItemId

/-- The price of a convergence: that of the tier that the first item had. -/
def convergencePrice (original : Body) : ℕ :=
  price server (·.convergenceFusionPrice) (server.upgradeClassification original.id)
    (original.getTier server)

/-- The branch for a convergence. -/
def fuseConvergence (a : Fusion) (s : Player) (original forged : Body) : Except Player Forged := do
  let cost := convergencePrice server original
  let s ← takeMoney server (takeDust s (a.dustCost server)) cost
  return ⟨s, [forged.setTier server (a.tier + 1)], { a.history with
    dustCost := a.dustCost server
    cost := cost }⟩

/-- The second item falls together with the first one in the chest: they are stacked. -/
def merges (first second : Body) : Bool :=
  (server.types first.id).stackable ∧ first.id = second.id ∧ 1 < (server.types first.id).stackSize.toNat

/-- The items of the chest with the second item. -/
def both (merged : Bool) (first second : Body) : List Body :=
  if merged then [{ first with count := first.count + 1 }] else [first, second]

/-- The items of the chest when a fusion is done. -/
def chestItems (dropped merged : Bool) (first second : Body) : List Body :=
  if dropped then [first] else both merged first second

/-- `internalRemoveItem` of a second item that is `dropped` from the chest, where it is not when it
was stacked. -/
def dropSecond (s : Player) (dropped merged : Bool) (second : Body) : Except Player Unit :=
  ensure s (!dropped || (!merged && second.removable))

/-- Takes cores when there are some to take. -/
def takeSomeCores (s : Player) (coreCount : ℕ) : Except Player Player :=
  if coreCount ≠ 0 then takeCounted server s ITEM_FORGE_CORE coreCount else .ok s

/-- The dust of a success, which the bonus 1 spares. -/
def Fusion.dusted (a : Fusion) (s : Player) : Player :=
  if a.bonus ≠ 1 then takeDust s (a.dustCost server) else s

/-- The cores of a success, which the bonus 2 spares. -/
def Fusion.takeCores (a : Fusion) (s : Player) : Except Player Player :=
  if a.bonus ≠ 2 then takeSomeCores server s a.coreCount else .ok s

/-- The gold of a success, which the bonus 3 spares. -/
def Fusion.takeMoney (a : Fusion) (s : Player) (cost : ℕ) : Except Player Player :=
  if a.bonus ≠ 3 then Forge.takeMoney server s cost else .ok s

/-- A success leaves no second item, but for some of the bonuses. -/
def Fusion.dropsSecond (a : Fusion) : Bool := a.bonus ∉ [4, 5, 6, 8]

/-- The first item of a success, which the bonus 7 gives two tiers when its classification has
them. -/
def Fusion.raised (a : Fusion) (first : Body) : Body :=
  let first := first.setTier server (a.tier + 1)
  if a.bonus = 7 ∧ a.tier.toNat + 2 ≤ (server.upgradeClassification first.id).toNat then
    first.setTier server (a.tier + 2)
  else first

/-- The second item of a success, which the bonus 4 takes a tier from and the bonus 6 gives one. -/
def Fusion.spared (a : Fusion) (second : Body) : Body :=
  if a.bonus = 4 then if 0 < a.tier then second.setTier server (a.tier - 1) else second
  else if a.bonus = 6 then second.setTier server (a.tier + 1)
  else second

/-- The price of a success: that of the tier that the first item has now. -/
def Fusion.successPrice (a : Fusion) (first : Body) : ℕ :=
  let first := first.setTier server (a.tier + 1)
  price server (·.regularPrice) (server.upgradeClassification first.id) (first.getTier server)

/-- The branch for a success. -/
def fuseSuccess (a : Fusion) (s : Player) (first second : Body) : Except Player Forged := do
  let merged := merges server first second
  let s ← a.takeCores server (a.dusted server s)
  let cost := a.successPrice server first
  let s ← a.takeMoney server s cost
  dropSecond s a.dropsSecond merged second
  return ⟨s, chestItems a.dropsSecond merged (a.raised server first) (a.spared server second), { a.history with
    dustCost := if a.bonus ≠ 1 then a.dustCost server else 0
    coresCost := if a.bonus ≠ 2 then a.coreCount else 0
    cost := if a.bonus ≠ 3 then cost else 0 }⟩

/-- A tier is lost. -/
def Fusion.isTierLost (a : Fusion) : Bool :=
  a.roll ≤ if a.reduceTierLoss then server.FORGE_TIER_LOSS_REDUCTION else 100

/-- A failure leaves no second item when it has no tier to lose. -/
def Fusion.losesSecond (a : Fusion) (second : Body) : Bool :=
  a.isTierLost server && decide (second.getTier server < 1)

/-- The second item of a failure. -/
def Fusion.lowered (a : Fusion) (second : Body) : Body :=
  if a.isTierLost server ∧ 1 ≤ second.getTier server then second.setTier server (a.tier - 1) else second

/-- The price of a failure: that of the tier above the one that the first item had. -/
def failurePrice (original : Body) : ℕ :=
  price server (·.regularPrice) (server.upgradeClassification original.id) (original.getTier server + 1)

/-- The branch for a failure, with `original` the first item that was taken. -/
def fuseFailure (a : Fusion) (s : Player) (original first second : Body) : Except Player Forged := do
  let merged := merges server first second
  dropSecond s (a.losesSecond server second) merged second
  ensure s (a.dustCost server ≤ s.forgeDusts)
  let s ← takeSomeCores server (takeDust s (a.dustCost server)) a.coreCount
  let cost := failurePrice server original
  let s ← takeMoney server s cost
  return ⟨s, chestItems (a.losesSecond server second) merged first (a.lowered server second), { a.history with
    bonus := if a.isTierLost server then 0 else 8
    coresCost := a.coreCount
    cost := cost }⟩

/-- `Player::forgeFuseItems`. -/
def forgeFuseItems (s : Player) (a : Fusion) : Except Player Player := do
  ensure s (server.getFreeBackpackSlots s.inventory ≠ 0)
  let (original, s) ← takeForgeItems server s a.firstItemId a.tier a.secondItemId a.tier
  ensure s (server.known ITEM_EXALTATION_CHEST && server.isContainer ITEM_EXALTATION_CHEST)
  let first ← createForged server s a.firstItemId
  putInChest server s first
  if a.convergence then
    deliver server (← fuseConvergence server a s original first)
  else
    let first := first.setTier server a.tier
    let second ← createForged server s a.secondItemId
    let second := second.setTier server a.tier
    putInChest server s second
    if a.success then deliver server (← fuseSuccess server a s first second)
    else deliver server (← fuseFailure server a s original first second)

/-! ## Transfer -/

/-- The arguments of `forgeTransferItemTier`. -/
structure Transfer where
  donorItemId : ℕ
  tier : UInt8
  receiveItemId : ℕ
  convergence : Bool

/-- The dust that the configuration asks for a transfer. -/
def Transfer.dustCost (a : Transfer) : UInt64 :=
  if a.convergence then server.FORGE_CONVERGENCE_TRANSFER_DUST_COST else server.FORGE_TRANSFER_DUST_COST

/-- The history of a transfer. -/
def Transfer.history (a : Transfer) (cost : ℕ) : ForgeHistory where
  actionType := .TRANSFER
  tier := a.tier
  bonus := 0
  cost := cost
  dustCost := 0
  coresCost := 0
  gained := 0
  success := true
  tierLoss := false
  convergence := a.convergence
  firstItem := a.donorItemId
  secondItem := a.receiveItemId

/-- The tier that a transfer gives to the receiving item. -/
def Transfer.newTier (a : Transfer) : UInt8 := if a.convergence then a.tier else a.tier - 1

/-- The gold that a transfer from the donor takes. -/
def Transfer.cost (a : Transfer) (donor : Body) : ℕ :=
  price server (fun p => if a.convergence then p.convergenceTransferPrice else p.regularPrice)
    (server.upgradeClassification donor.id) (donor.getTier server)

/-- The cores that a transfer from the donor takes. -/
def coresAmount (donor : Body) : ℕ :=
  price server (·.corePrice.toNat) (server.upgradeClassification donor.id) (donor.getTier server)

/-- `Player::forgeTransferItemTier`. -/
def forgeTransferItemTier (s : Player) (a : Transfer) : Except Player Player := do
  ensure s (server.getFreeBackpackSlots s.inventory ≠ 0)
  let (donor, s) ← takeForgeItems server s a.donorItemId a.tier a.receiveItemId 0
  ensure s (server.known ITEM_EXALTATION_CHEST && server.isContainer ITEM_EXALTATION_CHEST)
  let newReceiveItem ← createForged server s a.receiveItemId
  ensure s (a.dustCost server ≤ s.forgeDusts)
  let s := takeDust s (a.dustCost server)
  let newReceiveItem := newReceiveItem.setTier server a.newTier
  putInChest server s newReceiveItem
  let cost := a.cost server donor
  let s ← takeCounted server s ITEM_FORGE_CORE (coresAmount server donor)
  let s ← takeMoney server s cost
  deliver server ⟨s, [newReceiveItem], a.history cost⟩

/-! ## Conversion -/

/-- The values of `ForgeAction_t` for which `parseForgeEnter` calls for a conversion. -/
inductive Conversion where
  | DUSTTOSLIVERS
  | SLIVERSTOCORES
  | INCREASELIMIT
deriving DecidableEq

/-- The action of a conversion. -/
def Conversion.actionType : Conversion → ForgeAction
  | DUSTTOSLIVERS => .DUSTTOSLIVERS
  | SLIVERSTOCORES => .SLIVERSTOCORES
  | INCREASELIMIT => .INCREASELIMIT

/-- `Game::internalPlayerAddItem`: what the inventory refuses goes to the tile. -/
def internalPlayerAddItem (s : Player) (x : Body) : Except Player Player :=
  match server.placing.place s.inventory [x] with
  | some inventory => .ok { s with inventory := inventory }
  | none => if server.tileTakes x then .ok { s with ground := x :: s.ground } else .error s

/-- The history of a conversion. -/
def Conversion.history (actionType : Conversion) (cost gained : ℕ) : ForgeHistory where
  actionType := actionType.actionType
  tier := 0
  bonus := 0
  cost := cost
  dustCost := 0
  coresCost := 0
  gained := gained
  success := true
  tierLoss := false
  convergence := false
  firstItem := 0
  secondItem := 0

/-- `Player::registerForgeHistoryDescription`, which keeps the entry. -/
def registerForgeHistory (s : Player) (history : ForgeHistory) : Player :=
  { s with forgeHistory := s.forgeHistory ++ [history] }

/-- `Player::getForgeSliversAndCores`, the slivers. -/
def getForgeSlivers (s : Player) : ℕ :=
  s.inventory.units ITEM_FORGE_SLIVER + s.stash ITEM_FORGE_SLIVER

/-- `Player::forgeResourceConversion`. -/
def forgeResourceConversion (s : Player) (actionType : Conversion) : Except Player Player :=
  match actionType with
  | .DUSTTOSLIVERS => do
    let cost := server.FORGE_COST_ONE_SLIVER * server.FORGE_SLIVER_AMOUNT % 2 ^ 16
    ensure s (cost ≤ s.forgeDusts.toNat)
    match createItem server ITEM_FORGE_SLIVER (server.FORGE_SLIVER_AMOUNT % 2 ^ 16) with
    | none => .error s
    | some item =>
      let s' ← internalPlayerAddItem server s item
      return registerForgeHistory { s' with forgeDusts := s.forgeDusts - UInt64.ofNat cost }
        (actionType.history cost 3)
  | .SLIVERSTOCORES => do
    let cost := server.FORGE_CORE_COST % 2 ^ 16
    ensure s (cost ≤ getForgeSlivers s)
    let s ← takeCounted server s ITEM_FORGE_SLIVER cost
    -- a core that is not created is not missed
    match createItem server ITEM_FORGE_CORE 1 with
    | none => return registerForgeHistory s (actionType.history cost 1)
    | some item =>
      let s ← internalPlayerAddItem server s item
      return registerForgeHistory s (actionType.history cost 1)
  | .INCREASELIMIT => do
    let dustLevel := s.forgeDustLevel
    ensure s (dustLevel < server.FORGE_MAX_DUST)
    let upgradeCost := dustLevel - 75
    ensure s (upgradeCost ≤ s.forgeDusts)
    return registerForgeHistory { s with
      forgeDusts := max 0 (s.forgeDusts - upgradeCost)
      forgeDustLevel := dustLevel + 1 } (actionType.history upgradeCost.toNat dustLevel.toNat)

/-! ## Runs -/

/-- The calls of a client. -/
inductive Call where
  | fuse (a : Fusion)
  | transfer (a : Transfer)
  | convert (actionType : Conversion)

/-- A call: the player when it completes, or as he is left when it fails. -/
def perform (s : Player) : Call → Except Player Player
  | .fuse a => forgeFuseItems server s a
  | .transfer a => forgeTransferItemTier server s a
  | .convert actionType => forgeResourceConversion server s actionType

/-- The player after a call. -/
def step (s : Player) (call : Call) : Player :=
  match perform server s call with
  | .ok s' => s'
  | .error s' => s'

/-- The call completes. -/
def Completes (s : Player) (call : Call) : Prop := ∃ s', perform server s call = .ok s'

/-! ## What a call takes -/

/-- Only what is in the purse has changed. -/
structure OnlyPurse (s s' : Player) : Prop where
  forgeDusts : s'.forgeDusts = s.forgeDusts
  forgeDustLevel : s'.forgeDustLevel = s.forgeDustLevel
  forgeHistory : s'.forgeHistory = s.forgeHistory

/-- Dust was taken, and there was as much. -/
structure TakesDust (dustCost : UInt64) (s s' : Player) : Prop where
  purse : s'.toPurse = s.toPurse
  forgeHistory : s'.forgeHistory = s.forgeHistory
  dusts : s'.forgeDusts.toNat + dustCost.toNat = s.forgeDusts.toNat

/-- Items of an id were taken. -/
structure TakesCounted (itemId itemAmount : ℕ) (s s' : Player) : Prop extends OnlyPurse s s' where
  units : TakesUnits itemId itemAmount s.toPurse s'.toPurse

/-- Gold was taken. -/
structure TakesGold (cost : ℕ) (s s' : Player) : Prop extends OnlyPurse s s' where
  onlyMoney : OnlyMoney s.toPurse s'.toPurse
  funds : s'.funds + cost = s.funds

/-- The chest with the items was given to the player. -/
structure Delivers (contents : List Body) (s s' : Player) : Prop where
  place : server.placing.place s.inventory (exaltationChest server :: contents) = some s'.inventory
  stash : s'.stash = s.stash
  ground : s'.ground = s.ground
  bankBalance : s'.bankBalance = s.bankBalance
  forgeDusts : s'.forgeDusts = s.forgeDusts

/-- The gold that the configuration asks for a fusion that succeeds. -/
def Fusion.gold (a : Fusion) (original : Body) : ℕ :=
  if a.convergence then convergencePrice server original
  else
    (createItem server a.firstItemId 1).elim 0 fun first =>
      a.successPrice server (first.setTier server a.tier)

/-- What a completed call took and made: a fusion with success dust, cores and gold, each unless the
bonus says otherwise, and a transfer an item of at most the tier of the donor, one less without
convergence. No tier comes from below zero. -/
def Charged (s : Player) (call : Call) (s' : Player) : Prop :=
  match call with
  | .fuse a => ∃ original s₁ s₂ s₃ s₄ contents,
      takeForgeItems server s a.firstItemId a.tier a.secondItemId a.tier = .ok (original, s₁) ∧
      (a.success = true →
        (if a.bonus = 1 ∧ a.convergence = false then s₂ = s₁ else TakesDust (a.dustCost server) s₁ s₂) ∧
        (if a.bonus = 2 then s₃ = s₂ else TakesCounted ITEM_FORGE_CORE a.coreCount s₂ s₃) ∧
        (if a.bonus = 3 ∧ a.convergence = false then s₄ = s₃
          else TakesGold (a.gold server original) s₃ s₄)) ∧
      Delivers server contents s₄ s' ∧
      ∀ x ∈ contents, (x.getTier server).toNat ≤ a.tier.toNat + 2
  | .transfer a => ∃ s₁ x, Delivers server [x] s₁ s' ∧
      ((x.getTier server).toNat : ℤ) ≤ a.tier.toNat - if a.convergence then 0 else 1
  | .convert _ => True

/-- The dust that an entry of the history has as charged. -/
def ForgeHistory.dust (h : ForgeHistory) : ℕ :=
  match h.actionType with
  | .FUSION | .TRANSFER => h.dustCost.toNat
  | .DUSTTOSLIVERS | .INCREASELIMIT => h.cost
  | .SLIVERSTOCORES => 0

/-- The dust that a history has as charged. -/
def dustCharged (l : List ForgeHistory) : ℕ := (l.map (·.dust)).sum

/-- The dust and the history agree: what has been recorded since `s₀` is what is gone since then. -/
def Accounted (s₀ s : Player) : Prop :=
  ∃ l, s.forgeHistory = s₀.forgeHistory ++ l ∧ s.forgeDusts.toNat + dustCharged l = s₀.forgeDusts.toNat

/-- What a call relies on: the dust of a success is there, a convergence is not asked for cores, no
dust is taken that is not recorded, and a transfer without convergence has a tier to take. -/
def Fair (s : Player) : Call → Prop
  | .fuse a =>
    if a.convergence then
      a.dustCost server ≤ s.forgeDusts ∧ (a.success = true → a.bonus ≠ 2 → a.coreCount = 0)
    else if a.success then a.bonus ≠ 1 → a.dustCost server ≤ s.forgeDusts
    else a.dustCost server = 0
  | .transfer a => a.dustCost server = 0 ∧ (a.convergence = true ∨ 0 < a.tier)
  | .convert _ => True

variable {server}

theorem OnlyPurse.refl (s : Player) : OnlyPurse s s := ⟨rfl, rfl, rfl⟩

theorem OnlyPurse.trans {s₁ s₂ s₃ : Player} (h : OnlyPurse s₁ s₂) (h' : OnlyPurse s₂ s₃) : OnlyPurse s₁ s₃ :=
  ⟨h'.forgeDusts.trans h.forgeDusts, h'.forgeDustLevel.trans h.forgeDustLevel,
    h'.forgeHistory.trans h.forgeHistory⟩

/-- Nothing was gained: of no id but the coins is there more, and there is no more money. -/
structure NotRicher (s s' : Player) : Prop where
  held : ∀ id, worthOf id = 0 →
    s'.inventory.units id + s'.stash id ≤ s.inventory.units id + s.stash id
  funds : s'.funds ≤ s.funds

theorem NotRicher.refl (s : Player) : NotRicher s s := ⟨fun _ _ => le_rfl, le_rfl⟩

theorem NotRicher.trans {s₁ s₂ s₃ : Player} (h : NotRicher s₁ s₂) (h' : NotRicher s₂ s₃) : NotRicher s₁ s₃ :=
  ⟨fun id hid => (h'.held id hid).trans (h.held id hid), h'.funds.trans h.funds⟩

theorem NotRicher.of_purse {s s' : Player} (h : s'.toPurse = s.toPurse) : NotRicher s s' := by
  constructor
  · intro id _
    rw [h]
  · rw [h]

/-- An item was taken. -/
structure TakesItem (itemId : ℕ) (s s' : Player) : Prop extends OnlyPurse s s' where
  total : ∀ f : ℕ → ℕ, s'.inventory.total f + f itemId ≤ s.inventory.total f
  stash : s'.stash = s.stash
  ground : s'.ground = s.ground
  bankBalance : s'.bankBalance = s.bankBalance

theorem TakesItem.notRicher {itemId : ℕ} {s s' : Player} (h : TakesItem itemId s s') : NotRicher s s' := by
  refine ⟨fun id _ => ?_, ?_⟩
  · have := h.total fun i => if i = id then 1 else 0
    rw [h.stash]
    exact Nat.add_le_add_right ((Nat.le_add_right _ _).trans this) _
  · have := h.total worthOf
    simp only [Purse.funds, h.ground, h.bankBalance]
    omega

theorem TakesCounted.notRicher {itemId itemAmount : ℕ} {s s' : Player}
    (h : TakesCounted itemId itemAmount s s') (hcoin : worthOf itemId = 0) : NotRicher s s' := by
  constructor
  · intro id _
    have htotal := h.units.total fun i => if i = id then 1 else 0
    by_cases hid : id = itemId
    · subst hid
      simp only [if_true, mul_one] at htotal
      unfold Inventory.units
      omega
    · simp only [Ne.symm hid, if_false, mul_zero, add_zero] at htotal
      rw [h.units.stash id hid]
      exact Nat.add_le_add_right htotal.le _
  · have htotal := h.units.total worthOf
    simp only [hcoin, mul_zero, add_zero] at htotal
    simp only [Purse.funds, h.units.ground, h.units.bankBalance, htotal]
    exact le_rfl

theorem TakesGold.notRicher {cost : ℕ} {s s' : Player} (h : TakesGold cost s s') : NotRicher s s' := by
  constructor
  · intro id hid
    have htotal := h.onlyMoney.total (fun i => if i = id then 1 else 0) fun i hi => by
      rw [if_neg]
      rintro rfl
      exact hi hid
    rw [h.onlyMoney.stash]
    exact Nat.add_le_add_right htotal.le _
  · have := h.funds
    omega

theorem TakesCounted.zero (s : Player) (itemId : ℕ) : TakesCounted itemId 0 s s :=
  ⟨OnlyPurse.refl s, fun f => by simp, fun _ _ => rfl, rfl, rfl⟩

/-! ## The steps, one by one -/

theorem ensure_ends (s : Player) (c : Bool) :
    Ends (fun e => e = s ∧ c = false) (fun _ => c = true) (ensure s c) := by
  cases c with
  | false => exact ⟨rfl, rfl⟩
  | true => rfl

theorem takeForgeItem_ends (s : Player) (itemId : ℕ) (tier : UInt8) : Ends (fun e => e = s)
      (fun r => TakesItem itemId s r.2 ∧ r.1.id = itemId ∧ r.1.getTier server = tier)
      (takeForgeItem server s itemId tier) := by
  unfold takeForgeItem
  cases hfind : getForgeItemFromId server s itemId tier with
  | none => rfl
  | some x =>
    obtain ⟨-, hid, htier⟩ : ¬ x.hasImbuements = true ∧ x.id = itemId ∧ x.getTier server = tier := by
      simpa using List.find?_some hfind
    dsimp only
    cases hremove : s.inventory.internalRemoveItem server.types x 1 with
    | none => rfl
    | some inventory =>
      refine ⟨⟨⟨rfl, rfl, rfl⟩, fun f => ?_, rfl, rfl, rfl⟩, hid, htier⟩
      rw [← hid]
      exact Inventory.total_internalRemoveItem_le hremove f

theorem createForged_ends (s : Player) (itemId : ℕ) :
    Ends (fun e => e = s) (fun x => createItem server itemId 1 = some x) (createForged server s itemId) := by
  unfold createForged
  cases h : createItem server itemId 1 with
  | none => rfl
  | some x => rfl

theorem takeCounted_ends (s : Player) {itemId : ℕ} (hcur : isCurrency itemId) (itemAmount : ℕ) :
    Ends (fun e => e = s) (TakesCounted itemId itemAmount s) (takeCounted server s itemId itemAmount) := by
  have hspec := removeItemCountById_spec server.currency_stackable hcur s.toPurse itemAmount
  unfold takeCounted
  split_ifs at hspec
  · obtain ⟨htrue, hunits⟩ := hspec
    cases hr : removeItemCountById server.types s.toPurse itemId itemAmount with
    | mk done purse =>
      rw [hr] at htrue hunits
      obtain rfl : done = true := htrue
      exact ⟨⟨rfl, rfl, rfl⟩, hunits⟩
  · rw [hspec]
    rfl

theorem isCurrency_core : isCurrency ITEM_FORGE_CORE := by decide

theorem isCurrency_sliver : isCurrency ITEM_FORGE_SLIVER := by decide

/-- Cores are no coins. -/
theorem TakesCounted.core {coreCount : ℕ} {s s' : Player}
    (h : TakesCounted ITEM_FORGE_CORE coreCount s s') : NotRicher s s' :=
  h.notRicher (by decide)

theorem takeMoney_ends (s : Player) (cost : ℕ) :
    Ends (fun e => e = s) (TakesGold cost s) (takeMoney server s cost) := by
  have hspec := removeMoney_spec (P := server.placing) server.currency_stackable s.toPurse cost
  unfold takeMoney
  split_ifs at hspec
  · obtain ⟨htrue, honly, hfunds⟩ := hspec
    cases hr : removeMoney server.types server.placing s.toPurse cost with
    | mk done purse =>
      rw [hr] at htrue honly hfunds
      obtain rfl : done = true := htrue
      exact ⟨⟨rfl, rfl, rfl⟩, honly, hfunds⟩
  · rw [hspec]
    rfl

theorem deliver_ends (forged : Forged) : Ends (fun e => e = forged.player)
      (fun s' => Delivers server forged.contents forged.player s' ∧
        s'.forgeHistory = forged.player.forgeHistory ++ [forged.history]) (deliver server forged) := by
  unfold deliver
  cases h : server.placing.place forged.player.inventory (exaltationChest server :: forged.contents) with
  | none => rfl
  | some inventory => exact ⟨⟨h, rfl, rfl, rfl, rfl⟩, rfl⟩

/-- An item was taken, and nothing was gained after that. -/
def Lost (itemId : ℕ) (s s' : Player) : Prop := ∃ s₁, TakesItem itemId s s₁ ∧ NotRicher s₁ s'

theorem Lost.trans {itemId : ℕ} {s s₁ s₂ : Player} (h : Lost itemId s s₁) (h' : NotRicher s₁ s₂) :
    Lost itemId s s₂ := by
  obtain ⟨s₀, htakes, hnot⟩ := h
  exact ⟨s₀, htakes, hnot.trans h'⟩

/-- What is lost does not come back: of a coin there is less money, of all else there are fewer. -/
theorem Lost.ne {itemId : ℕ} {s s' : Player} (h : Lost itemId s s') : s' ≠ s := by
  rintro rfl
  obtain ⟨s₁, htakes, hnot⟩ := h
  by_cases hcoin : worthOf itemId = 0
  · have htotal := htakes.total fun i => if i = itemId then 1 else 0
    have hheld := hnot.held itemId hcoin
    simp only [if_true] at htotal
    rw [htakes.stash] at hheld
    unfold Inventory.units at hheld
    omega
  · have htotal := htakes.total worthOf
    have hfunds := hnot.funds
    simp only [Purse.funds, htakes.ground, htakes.bankBalance] at hfunds
    omega

/-- The two items are taken one after the other; the first one has the tier that was asked for. -/
theorem takeForgeItems_ends (s : Player) (firstItemId : ℕ) (firstTier : UInt8) (secondItemId : ℕ)
    (secondTier : UInt8) : Ends (fun e => e = s ∧ (∃ e', takeForgeItem server s firstItemId firstTier = .error e') ∨
        Lost firstItemId s e) (fun r => OnlyPurse s r.2 ∧ Lost firstItemId s r.2 ∧ r.1.getTier server = firstTier)
      (takeForgeItems server s firstItemId firstTier secondItemId secondTier) := by
  unfold takeForgeItems
  have hspec : Ends _ _ (takeForgeItem server s firstItemId firstTier) := takeForgeItem_ends s _ _
  cases hfirst : takeForgeItem server s firstItemId firstTier with
  | error e =>
    rw [hfirst] at hspec
    exact Or.inl ⟨hspec, e, rfl⟩
  | ok r =>
    obtain ⟨first, s₁⟩ := r
    rw [hfirst] at hspec
    obtain ⟨htakes, -, htier⟩ := hspec
    have hlost : Lost firstItemId s s₁ := ⟨s₁, htakes, NotRicher.refl s₁⟩
    show Ends _ _ (takeForgeItem server s₁ secondItemId secondTier >>= _)
    refine ((takeForgeItem_ends s₁ secondItemId secondTier).mono (fun e he => Or.inr (he ▸ hlost))
      fun _ h => h).bind ?_
    rintro ⟨second, s₂⟩ ⟨hsecond, -, -⟩
    exact ⟨htakes.toOnlyPurse.trans hsecond.toOnlyPurse, hlost.trans hsecond.notRicher, htier⟩

/-! ## The tiers -/

theorem getTier_setTier_le (x : Body) (tier : UInt8) :
    ((x.setTier server tier).getTier server).toNat ≤ max (x.getTier server).toNat tier.toNat := by
  unfold Body.setTier
  split_ifs with hmax hclass
  · exact le_max_left _ _
  · simp [Body.getTier, hmax]
  · exact le_max_left _ _

theorem getTier_createItem {type count : ℕ} {x : Body} (h : createItem server type count = some x) :
    x.getTier server = 0 := by
  unfold createItem at h
  by_cases hknown : server.known type
  · rw [if_pos hknown] at h
    obtain rfl := Option.some.inj h
    rfl
  · rw [if_neg hknown] at h
    simp at h

/-- A tier that is set keeps to a bound. -/
theorem setTier_bounded {x : Body} {tier : UInt8} {n : ℕ} (hx : (x.getTier server).toNat ≤ n)
    (htier : tier.toNat ≤ n) : ((x.setTier server tier).getTier server).toNat ≤ n :=
  (getTier_setTier_le x tier).trans (max_le hx htier)

theorem toNat_succ_le (tier : UInt8) : (tier + 1).toNat ≤ tier.toNat + 2 := by
  have := Nat.mod_le (tier.toNat + 1) 256
  simp only [UInt8.toNat_add]
  exact this.trans (by omega)

theorem toNat_add_two_le (tier : UInt8) : (tier + 2).toNat ≤ tier.toNat + 2 := by
  simp only [UInt8.toNat_add]
  exact Nat.mod_le _ _

theorem toNat_pred {tier : UInt8} (h : 0 < tier) : (tier - 1).toNat + 1 = tier.toNat := by
  have hpos : 1 ≤ tier := by
    rw [UInt8.le_iff_toNat_le]
    exact h
  rw [UInt8.toNat_sub_of_le _ _ hpos]
  have : 0 < tier.toNat := h
  show tier.toNat - 1 + 1 = _
  omega

/-- The items of the chest keep to the bound of both items. -/
theorem bounded_both {merged : Bool} {first second : Body} {n : ℕ}
    (hfirst : (first.getTier server).toNat ≤ n) (hsecond : (second.getTier server).toNat ≤ n) :
    ∀ x ∈ both merged first second, (x.getTier server).toNat ≤ n := by
  intro x hx
  cases merged with
  | false =>
    rcases List.mem_pair.1 hx with rfl | rfl
    · exact hfirst
    · exact hsecond
  | true =>
    obtain rfl := List.mem_singleton.1 hx
    exact hfirst

/-! ## Fusion -/

theorem takeDust_notRicher (s : Player) (dustCost : UInt64) : NotRicher s (takeDust s dustCost) :=
  NotRicher.of_purse rfl

/-- Taking dust that is there. -/
theorem takesDust {s : Player} {dustCost : UInt64} (h : dustCost ≤ s.forgeDusts) :
    TakesDust dustCost s (takeDust s dustCost) := by
  refine ⟨rfl, rfl, ?_⟩
  have hle : dustCost.toNat ≤ s.forgeDusts.toNat := h
  have := UInt64.toNat_sub_of_le _ _ h
  simp only [takeDust, this]
  omega

theorem fuseConvergence_ends (a : Fusion) (s : Player) (original : Body) {forged : Body}
    (htier : (forged.getTier server).toNat ≤ a.tier.toNat + 2) : Ends (NotRicher s)
      (fun r => TakesGold (convergencePrice server original) (takeDust s (a.dustCost server)) r.player ∧
        r.history.dust = (a.dustCost server).toNat ∧ NotRicher s r.player ∧
        ∀ x ∈ r.contents, (x.getTier server).toNat ≤ a.tier.toNat + 2)
      (fuseConvergence server a s original forged) := by
  unfold fuseConvergence
  refine ((takeMoney_ends _ _).mono (fun e he => he ▸ takeDust_notRicher s _) fun _ h => h).bind ?_
  intro s₁ hs₁
  refine ⟨hs₁, rfl, (takeDust_notRicher s _).trans hs₁.notRicher, fun x hx => ?_⟩
  obtain rfl := List.mem_singleton.1 hx
  exact setTier_bounded htier (toNat_succ_le a.tier)

/-- A call for no cores takes none. -/
theorem takeSomeCores_ends (s : Player) (coreCount : ℕ) :
    Ends (fun e => e = s) (TakesCounted ITEM_FORGE_CORE coreCount s) (takeSomeCores server s coreCount) := by
  unfold takeSomeCores
  split_ifs with hcount
  · exact takeCounted_ends s isCurrency_core coreCount
  · obtain rfl : coreCount = 0 := not_not.1 hcount
    exact TakesCounted.zero s _

theorem Fusion.takeCores_ends (a : Fusion) (s : Player) :
    Ends (fun e => e = s) (fun s' => if a.bonus = 2 then s' = s else TakesCounted ITEM_FORGE_CORE a.coreCount s s')
      (a.takeCores server s) := by
  unfold Fusion.takeCores
  by_cases hbonus : a.bonus = 2
  · simp [hbonus]
  · simpa [hbonus] using takeSomeCores_ends s a.coreCount

theorem Fusion.takeMoney_ends (a : Fusion) (s : Player) (cost : ℕ) :
    Ends (fun e => e = s) (fun s' => if a.bonus = 3 then s' = s else TakesGold cost s s')
      (a.takeMoney server s cost) := by
  unfold Fusion.takeMoney
  by_cases hbonus : a.bonus = 3
  · simp [hbonus]
  · simpa [hbonus] using Forge.takeMoney_ends s cost

theorem dusted_notRicher (a : Fusion) (s : Player) : NotRicher s (a.dusted server s) := by
  unfold Fusion.dusted
  split_ifs
  · exact takeDust_notRicher s _
  · exact NotRicher.refl s

theorem bounded_chestItems {dropped merged : Bool} {first second : Body} {n : ℕ}
    (hfirst : (first.getTier server).toNat ≤ n) (hsecond : (second.getTier server).toNat ≤ n) :
    ∀ x ∈ chestItems dropped merged first second, (x.getTier server).toNat ≤ n := by
  cases dropped with
  | false => exact bounded_both hfirst hsecond
  | true =>
    intro x hx
    obtain rfl := List.mem_singleton.1 hx
    exact hfirst

theorem fuseSuccess_ends (a : Fusion) (s : Player) {first second : Body}
    (hfirst : (first.getTier server).toNat ≤ a.tier.toNat + 2)
    (hsecond : (second.getTier server).toNat ≤ a.tier.toNat + 2) :
    Ends (NotRicher s)
      (fun r => ∃ s₃, (if a.bonus = 2 then s₃ = a.dusted server s
          else TakesCounted ITEM_FORGE_CORE a.coreCount (a.dusted server s) s₃) ∧
        (if a.bonus = 3 then r.player = s₃ else TakesGold (a.successPrice server first) s₃ r.player) ∧
        r.history.dust = (if a.bonus ≠ 1 then a.dustCost server else 0).toNat ∧ NotRicher s r.player ∧
        ∀ x ∈ r.contents, (x.getTier server).toNat ≤ a.tier.toNat + 2)
      (fuseSuccess server a s first second) := by
  have hdusted : NotRicher s (a.dusted server s) := dusted_notRicher a s
  unfold fuseSuccess
  refine ((a.takeCores_ends (a.dusted server s)).mono (fun e he => he ▸ hdusted) fun _ h => h).bind ?_
  intro s₃ hs₃
  have hcores : NotRicher s s₃ := by
    split_ifs at hs₃
    · exact hs₃ ▸ hdusted
    · exact hdusted.trans hs₃.core
  refine ((a.takeMoney_ends s₃ _).mono (fun e he => he ▸ hcores) fun _ h => h).bind ?_
  intro s₄ hs₄
  have hgold : NotRicher s s₄ := by
    split_ifs at hs₄
    · exact hs₄ ▸ hcores
    · exact hcores.trans hs₄.notRicher
  refine ((ensure_ends s₄ _).mono (fun e he => he.1 ▸ hgold) fun _ h => h).bind ?_
  rintro - -
  refine ⟨s₃, hs₃, hs₄, rfl, hgold, bounded_chestItems ?_ ?_⟩
  · unfold Fusion.raised
    dsimp only
    have hfirst' := setTier_bounded hfirst (toNat_succ_le a.tier)
    split_ifs
    · exact setTier_bounded hfirst' (toNat_add_two_le a.tier)
    · exact hfirst'
  · unfold Fusion.spared
    split_ifs with _ hpos
    · have := toNat_pred hpos
      exact setTier_bounded hsecond (by omega)
    · exact hsecond
    · exact setTier_bounded hsecond (toNat_succ_le a.tier)
    · exact hsecond

theorem fuseFailure_ends (a : Fusion) (s : Player) (original : Body) {first second : Body}
    (hfirst : (first.getTier server).toNat ≤ a.tier.toNat)
    (hsecond : (second.getTier server).toNat ≤ a.tier.toNat) : Ends (NotRicher s)
      (fun r => r.player.forgeDusts = s.forgeDusts - a.dustCost server ∧
        r.player.forgeHistory = s.forgeHistory ∧ r.history.dust = 0 ∧ NotRicher s r.player ∧
        ∀ x ∈ r.contents, (x.getTier server).toNat ≤ a.tier.toNat + 2)
      (fuseFailure server a s original first second) := by
  have hdust := takeDust_notRicher s (a.dustCost server)
  unfold fuseFailure
  refine ((ensure_ends s _).mono (fun e he => he.1 ▸ NotRicher.refl s) fun _ h => h).bind ?_
  rintro - -
  refine ((ensure_ends s _).mono (fun e he => he.1 ▸ NotRicher.refl s) fun _ h => h).bind ?_
  rintro - -
  refine ((takeSomeCores_ends _ a.coreCount).mono (fun e he => he ▸ hdust) fun _ h => h).bind ?_
  intro s₁ hs₁
  refine ((Forge.takeMoney_ends s₁ _).mono (fun e he => he ▸ hdust.trans hs₁.core) fun _ h => h).bind ?_
  intro s₂ hs₂
  refine ⟨hs₂.forgeDusts.trans hs₁.forgeDusts, hs₂.forgeHistory.trans hs₁.forgeHistory, rfl,
    (hdust.trans hs₁.core).trans hs₂.notRicher, bounded_chestItems (by omega) ?_⟩
  unfold Fusion.lowered
  split_ifs with hlost
  · -- a tier is lost only where there is one
    have hpos : 0 < a.tier := by
      have h₁ : 1 ≤ (second.getTier server).toNat := hlost.2
      show 0 < a.tier.toNat
      omega
    have := toNat_pred hpos
    exact setTier_bounded (by omega) (by omega)
  · omega

/-- The first item is not taken: there is no room for the chest, no such item, or it stays. -/
def Refused (server : Server) (s : Player) (itemId : ℕ) (tier : UInt8) : Prop :=
  server.getFreeBackpackSlots s.inventory = 0 ∨ ∃ e, takeForgeItem server s itemId tier = .error e

/-- What a fusion has charged, after `s₁`, and recorded. -/
def Fused (server : Server) (a : Fusion) (original : Body) (s₁ : Player) (r : Forged) : Prop :=
  if a.convergence then
    TakesGold (a.gold server original) (takeDust s₁ (a.dustCost server)) r.player ∧
      r.history.dust = (a.dustCost server).toNat
  else if a.success then
    ∃ s₃, (if a.bonus = 2 then s₃ = a.dusted server s₁
        else TakesCounted ITEM_FORGE_CORE a.coreCount (a.dusted server s₁) s₃) ∧
      (if a.bonus = 3 then r.player = s₃ else TakesGold (a.gold server original) s₃ r.player) ∧
      r.history.dust = (if a.bonus ≠ 1 then a.dustCost server else 0).toNat
  else
    r.player.forgeDusts = s₁.forgeDusts - a.dustCost server ∧
      r.player.forgeHistory = s₁.forgeHistory ∧ r.history.dust = 0

/-- **A fusion** that fails leaves the player as he is when the first item is not taken, and else
without it. One that completes has charged what its branch charges, and delivers the chest. -/
theorem forgeFuseItems_ends (s : Player) (a : Fusion) :
    Ends (fun e => e = s ∧ Refused server s a.firstItemId a.tier ∨ Lost a.firstItemId s e)
      (fun s' => ∃ original s₁ r,
        takeForgeItems server s a.firstItemId a.tier a.secondItemId a.tier = .ok (original, s₁) ∧
        OnlyPurse s s₁ ∧ Fused server a original s₁ r ∧
        (∀ x ∈ r.contents, (x.getTier server).toNat ≤ a.tier.toNat + 2) ∧
        Delivers server r.contents r.player s' ∧ s'.forgeHistory = r.player.forgeHistory ++ [r.history])
      (forgeFuseItems server s a) := by
  unfold forgeFuseItems
  refine ((ensure_ends s _).mono (fun e he => Or.inl ⟨he.1, Or.inl (by simpa using he.2)⟩) fun _ h => h).bind ?_
  rintro - -
  refine ((takeForgeItems_ends s a.firstItemId a.tier a.secondItemId a.tier).eq_ok.mono
    (fun e he => he.imp_left fun h => ⟨h.1, Or.inr h.2⟩) fun _ h => h).bind ?_
  rintro ⟨original, s₁⟩ ⟨htake, honly, hlost, horiginal⟩
  have herror : ∀ e, NotRicher s₁ e → e = s ∧ Refused server s a.firstItemId a.tier ∨ Lost a.firstItemId s e :=
    fun e he => Or.inr (hlost.trans he)
  have hrefl := herror s₁ (NotRicher.refl s₁)
  have hdeliver : ∀ r : Forged, Fused server a original s₁ r → NotRicher s₁ r.player →
      (∀ x ∈ r.contents, (x.getTier server).toNat ≤ a.tier.toNat + 2) →
      Ends (fun e => e = s ∧ Refused server s a.firstItemId a.tier ∨ Lost a.firstItemId s e)
        (fun s' => ∃ original s₁ r,
          takeForgeItems server s a.firstItemId a.tier a.secondItemId a.tier = .ok (original, s₁) ∧
          OnlyPurse s s₁ ∧ Fused server a original s₁ r ∧
          (∀ x ∈ r.contents, (x.getTier server).toNat ≤ a.tier.toNat + 2) ∧
          Delivers server r.contents r.player s' ∧ s'.forgeHistory = r.player.forgeHistory ++ [r.history])
        (deliver server r) := fun r hfused hnot hbound =>
    (deliver_ends r).mono (fun e he => he ▸ herror _ hnot)
      fun s' hs' => ⟨original, s₁, r, htake, honly, hfused, hbound, hs'⟩
  dsimp only
  refine ((ensure_ends s₁ _).mono (fun e he => he.1 ▸ hrefl) fun _ h => h).bind ?_
  rintro - -
  refine ((createForged_ends s₁ a.firstItemId).mono (fun e he => he ▸ hrefl) fun _ h => h).bind ?_
  intro first hfirst
  have hfirstTier : (first.getTier server).toNat ≤ a.tier.toNat := by
    rw [getTier_createItem hfirst]
    exact Nat.zero_le _
  refine ((ensure_ends s₁ _).mono (fun e he => he.1 ▸ hrefl) fun _ h => h).bind ?_
  rintro - -
  by_cases hconvergence : a.convergence
  · rw [if_pos hconvergence]
    refine ((fuseConvergence_ends a s₁ original (by omega)).mono herror fun _ h => h).bind ?_
    rintro r ⟨hgold, hdust, hnot, hbound⟩
    refine hdeliver r ?_ hnot hbound
    rw [Fused, if_pos hconvergence]
    refine ⟨?_, hdust⟩
    rwa [Fusion.gold, if_pos hconvergence]
  · rw [if_neg hconvergence]
    refine ((createForged_ends s₁ a.secondItemId).mono (fun e he => he ▸ hrefl) fun _ h => h).bind ?_
    intro second hsecond
    have hsecondTier : (second.getTier server).toNat ≤ a.tier.toNat := by
      rw [getTier_createItem hsecond]
      exact Nat.zero_le _
    refine ((ensure_ends s₁ _).mono (fun e he => he.1 ▸ hrefl) fun _ h => h).bind ?_
    rintro - -
    have hfirstSet : ((first.setTier server a.tier).getTier server).toNat ≤ a.tier.toNat :=
      setTier_bounded hfirstTier le_rfl
    have hsecondSet : ((second.setTier server a.tier).getTier server).toNat ≤ a.tier.toNat :=
      setTier_bounded hsecondTier le_rfl
    by_cases hsuccess : a.success
    · rw [if_pos hsuccess]
      refine ((fuseSuccess_ends a s₁ (by omega) (by omega)).mono herror fun _ h => h).bind ?_
      rintro r ⟨s₃, hcores, hgold, hdust, hnot, hbound⟩
      refine hdeliver r ?_ hnot hbound
      rw [Fused, if_neg hconvergence, if_pos hsuccess]
      refine ⟨s₃, hcores, ?_, hdust⟩
      rwa [Fusion.gold, if_neg hconvergence, hfirst]
    · rw [if_neg hsuccess]
      refine ((fuseFailure_ends a s₁ original hfirstSet hsecondSet).mono herror fun _ h => h).bind ?_
      rintro r ⟨hdusts, hhistory, hdust, hnot, hbound⟩
      refine hdeliver r ?_ hnot hbound
      rw [Fused, if_neg hconvergence, if_neg hsuccess]
      exact ⟨hdusts, hhistory, hdust⟩

/-! ## Transfer -/

/-- The tier that a transfer sets is one less than that of the donor, if it has one, or the same. -/
theorem toNat_newTier {a : Transfer} (h : a.convergence = true ∨ 0 < a.tier) :
    (a.newTier.toNat : ℤ) = a.tier.toNat - if a.convergence then 0 else 1 := by
  unfold Transfer.newTier
  by_cases hconvergence : a.convergence
  · simp [hconvergence]
  · have := toNat_pred (h.resolve_left hconvergence)
    simp only [if_neg hconvergence]
    omega

/-- **A transfer** that fails leaves the player as he is when the donor is not taken, and else
without it. One that completes has taken dust that was there, and delivers an item of the new
tier. -/
theorem forgeTransferItemTier_ends (s : Player) (a : Transfer) :
    Ends (fun e => e = s ∧ Refused server s a.donorItemId a.tier ∨ Lost a.donorItemId s e)
      (fun s' => ∃ s₁ x history,
        (x.getTier server).toNat ≤ a.newTier.toNat ∧ Delivers server [x] s₁ s' ∧
        s'.forgeDusts = s.forgeDusts - a.dustCost server ∧ a.dustCost server ≤ s.forgeDusts ∧
        s'.forgeHistory = s.forgeHistory ++ [history] ∧ history.dust = 0)
      (forgeTransferItemTier server s a) := by
  unfold forgeTransferItemTier
  refine ((ensure_ends s _).mono (fun e he => Or.inl ⟨he.1, Or.inl (by simpa using he.2)⟩) fun _ h => h).bind ?_
  rintro - -
  refine ((takeForgeItems_ends s a.donorItemId a.tier a.receiveItemId 0).mono
    (fun e he => he.imp_left fun h => ⟨h.1, Or.inr h.2⟩) fun _ h => h).bind ?_
  rintro ⟨donor, s₁⟩ ⟨honly, hlost, -⟩
  have herror : ∀ e, NotRicher s₁ e → e = s ∧ Refused server s a.donorItemId a.tier ∨ Lost a.donorItemId s e :=
    fun e he => Or.inr (hlost.trans he)
  have hrefl := herror s₁ (NotRicher.refl s₁)
  have hdusted := takeDust_notRicher s₁ (a.dustCost server)
  dsimp only
  refine ((ensure_ends s₁ _).mono (fun e he => he.1 ▸ hrefl) fun _ h => h).bind ?_
  rintro - -
  refine ((createForged_ends s₁ a.receiveItemId).mono (fun e he => he ▸ hrefl) fun _ h => h).bind ?_
  intro x hx
  refine ((ensure_ends s₁ _).mono (fun e he => he.1 ▸ hrefl) fun _ h => h).bind ?_
  intro _ hdust
  refine ((ensure_ends _ _).mono (fun e he => he.1 ▸ herror _ hdusted) fun _ h => h).bind ?_
  rintro - -
  refine ((takeCounted_ends _ isCurrency_core _).mono (fun e he => he ▸ herror _ hdusted) fun _ h => h).bind ?_
  intro s₂ hcores
  have hafterCores := hdusted.trans hcores.core
  refine ((takeMoney_ends s₂ _).mono (fun e he => he ▸ herror _ hafterCores) fun _ h => h).bind ?_
  intro s₃ hgold
  refine (deliver_ends _).mono (fun e he => he ▸ herror _ (hafterCores.trans hgold.notRicher)) ?_
  rintro s' ⟨hdelivers, hhistory⟩
  have hkept : s₃.forgeHistory = s.forgeHistory := by
    rw [hgold.forgeHistory, hcores.forgeHistory]
    exact honly.forgeHistory
  refine ⟨s₃, x.setTier server a.newTier, _, setTier_bounded ?_ le_rfl, hdelivers, ?_, ?_,
    hhistory.trans (congrArg (· ++ [_]) hkept), rfl⟩
  · rw [getTier_createItem hx]
    exact Nat.zero_le _
  · rw [hdelivers.forgeDusts, hgold.forgeDusts, hcores.forgeDusts]
    show s₁.forgeDusts - _ = _
    rw [honly.forgeDusts]
  · rw [← honly.forgeDusts]
    exact of_decide_eq_true hdust

/-! ## Conversion -/

theorem internalPlayerAddItem_ends (s : Player) (x : Body) :
    Ends (fun e => e = s ∧ server.placing.place s.inventory [x] = none ∧ server.tileTakes x = false)
      (fun s' => OnlyPurse s s' ∧
        (server.placing.place s.inventory [x] = some s'.inventory ∨ s'.ground = x :: s.ground))
      (internalPlayerAddItem server s x) := by
  unfold internalPlayerAddItem
  cases hplace : server.placing.place s.inventory [x] with
  | some inventory => exact ⟨⟨rfl, rfl, rfl⟩, Or.inl rfl⟩
  | none =>
    cases htile : server.tileTakes x with
    | true => exact ⟨⟨rfl, rfl, rfl⟩, Or.inr rfl⟩
    | false => exact ⟨rfl, rfl, rfl⟩

/-- Dust that is there is taken and recorded. -/
theorem accounted_of_le {s s' : Player} {cost : ℕ} {h : ForgeHistory} (hle : cost ≤ s.forgeDusts.toNat)
    (hdusts : s'.forgeDusts = s.forgeDusts - UInt64.ofNat cost)
    (hhistory : s'.forgeHistory = s.forgeHistory ++ [h]) (hdust : h.dust = cost) : Accounted s s' := by
  refine ⟨[h], hhistory, ?_⟩
  have hlt := s.forgeDusts.toNat_lt
  have hcost : (UInt64.ofNat cost).toNat = cost := UInt64.toNat_ofNat_of_lt' (hle.trans_lt hlt)
  have hsub := UInt64.toNat_sub_of_le s.forgeDusts (UInt64.ofNat cost) (by
    rw [UInt64.le_iff_toNat_le, hcost]
    exact hle)
  simp only [hdusts, hsub, hcost, dustCharged, List.map_cons, List.map_nil, List.sum_cons, List.sum_nil, hdust]
  omega

/-- **A conversion** that completes has taken the dust that it recorded. -/
theorem forgeResourceConversion_ends (s : Player) (actionType : Conversion) :
    Ends (fun _ => True) (Accounted s) (forgeResourceConversion server s actionType) := by
  cases actionType with
  | DUSTTOSLIVERS =>
    unfold forgeResourceConversion
    refine ((ensure_ends s _).mono (fun _ _ => trivial) fun _ h => h).bind ?_
    intro _ hcost
    cases createItem server ITEM_FORGE_SLIVER (server.FORGE_SLIVER_AMOUNT % 2 ^ 16) with
    | none => trivial
    | some x =>
      refine ((internalPlayerAddItem_ends s x).mono (fun _ _ => trivial) fun _ h => h).bind ?_
      rintro s₁ ⟨hs₁, -⟩
      refine accounted_of_le (h := Conversion.DUSTTOSLIVERS.history _ 3) (of_decide_eq_true hcost) rfl ?_ rfl
      show s₁.forgeHistory ++ _ = _
      rw [hs₁.forgeHistory]
  | SLIVERSTOCORES =>
    unfold forgeResourceConversion
    refine ((ensure_ends s _).mono (fun _ _ => trivial) fun _ h => h).bind ?_
    rintro - -
    refine ((takeCounted_ends s isCurrency_sliver _).mono (fun _ _ => trivial) fun _ h => h).bind ?_
    intro s₁ hs₁
    have haccounted : ∀ s₂, OnlyPurse s₁ s₂ → ∀ n, Accounted s
        (registerForgeHistory s₂ (Conversion.SLIVERSTOCORES.history n 1)) := by
      intro s₂ hs₂ n
      refine ⟨[Conversion.SLIVERSTOCORES.history n 1], ?_, ?_⟩
      · show s₂.forgeHistory ++ _ = _
        rw [hs₂.forgeHistory, hs₁.forgeHistory]
      · show s₂.forgeDusts.toNat + 0 = _
        rw [hs₂.forgeDusts, hs₁.forgeDusts, Nat.add_zero]
    cases createItem server ITEM_FORGE_CORE 1 with
    | none => exact haccounted s₁ (OnlyPurse.refl s₁) _
    | some x =>
      refine ((internalPlayerAddItem_ends s₁ x).mono (fun _ _ => trivial) fun _ h => h).bind ?_
      rintro s₂ ⟨hs₂, -⟩
      exact haccounted s₂ hs₂ _
  | INCREASELIMIT =>
    unfold forgeResourceConversion
    refine ((ensure_ends s _).mono (fun _ _ => trivial) fun _ h => h).bind ?_
    rintro - -
    refine ((ensure_ends s _).mono (fun _ _ => trivial) fun _ h => h).bind ?_
    intro _ hcost
    have hle : s.forgeDustLevel - 75 ≤ s.forgeDusts := of_decide_eq_true hcost
    refine accounted_of_le (h := Conversion.INCREASELIMIT.history _ s.forgeDustLevel.toNat) hle ?_ rfl rfl
    have hmax : ∀ x : UInt64, max 0 x = x := fun x => if_pos (Nat.zero_le x.toNat)
    have hcast : UInt64.ofNat (s.forgeDustLevel - 75).toNat = s.forgeDustLevel - 75 := UInt64.ofNat_toNat
    exact (hmax _).trans (congrArg (s.forgeDusts - ·) hcast.symm)

/-! ## Runs -/

theorem Accounted.refl (s : Player) : Accounted s s := ⟨[], by simp, by simp [dustCharged]⟩

theorem Accounted.trans {s₁ s₂ s₃ : Player} (h : Accounted s₁ s₂) (h' : Accounted s₂ s₃) : Accounted s₁ s₃ := by
  obtain ⟨l, hhistory, hdusts⟩ := h
  obtain ⟨l', hhistory', hdusts'⟩ := h'
  refine ⟨l ++ l', by rw [hhistory', hhistory, List.append_assoc], ?_⟩
  simp only [dustCharged, List.map_append, List.sum_append] at hdusts hdusts' ⊢
  omega

/-- A fair fusion that completes is charged and accounted for. -/
theorem fuse_charged {s s' : Player} {a : Fusion} (hfair : Fair server s (.fuse a))
    (h : forgeFuseItems server s a = .ok s') : Accounted s s' ∧ Charged server s (.fuse a) s' := by
  obtain ⟨original, s₁, r, htake, honly, hfused, hbound, hdelivers, hhistory⟩ :=
    (forgeFuseItems_ends s a).of_ok h
  simp only [Fair] at hfair
  simp only [Charged]
  unfold Fused at hfused
  -- the dust of the player who gets the chest, and the one entry of the history
  have haccounted : r.player.forgeHistory = s₁.forgeHistory →
      r.player.forgeDusts.toNat + r.history.dust = s₁.forgeDusts.toNat → Accounted s s' := by
    intro hkept hdusts
    refine ⟨[r.history], ?_, ?_⟩
    · rw [hhistory, hkept, honly.forgeHistory]
    · simpa [dustCharged, hdelivers.forgeDusts, ← honly.forgeDusts] using hdusts
  by_cases hconvergence : a.convergence
  · rw [if_pos hconvergence] at hfair hfused
    obtain ⟨hgold, hrecord⟩ := hfused
    have htakes : TakesDust (a.dustCost server) s₁ (takeDust s₁ (a.dustCost server)) :=
      takesDust (honly.forgeDusts ▸ hfair.1)
    refine ⟨haccounted hgold.forgeHistory ?_, original, s₁, takeDust s₁ (a.dustCost server),
      takeDust s₁ (a.dustCost server), r.player, r.contents, htake, fun hsuccess => ⟨?_, ?_, ?_⟩,
      hdelivers, hbound⟩
    · rw [hrecord, hgold.forgeDusts, htakes.dusts]
    · simpa [hconvergence] using htakes
    · by_cases hbonus : a.bonus = 2
      · rw [if_pos hbonus]
      · rw [if_neg hbonus, hfair.2 hsuccess hbonus]
        exact TakesCounted.zero _ _
    · simpa [hconvergence] using hgold
  · rw [if_neg hconvergence] at hfair hfused
    by_cases hsuccess : a.success
    · rw [if_pos hsuccess] at hfair hfused
      obtain ⟨s₃, hcores, hgold, hrecord⟩ := hfused
      have honlyCores : OnlyPurse (a.dusted server s₁) s₃ := by
        split_ifs at hcores
        · exact hcores ▸ OnlyPurse.refl _
        · exact hcores.toOnlyPurse
      have honlyGold : OnlyPurse s₃ r.player := by
        split_ifs at hgold
        · exact hgold ▸ OnlyPurse.refl _
        · exact hgold.toOnlyPurse
      have hafter := honlyCores.trans honlyGold
      have hdusted : if a.bonus = 1 then a.dusted server s₁ = s₁
          else TakesDust (a.dustCost server) s₁ (a.dusted server s₁) := by
        by_cases hbonus : a.bonus = 1
        · simp [Fusion.dusted, hbonus]
        · simp only [Fusion.dusted, if_pos (Ne.symm (Ne.symm hbonus)), if_neg hbonus]
          exact takesDust (honly.forgeDusts ▸ hfair hbonus)
      refine ⟨haccounted ?_ ?_, original, s₁, a.dusted server s₁, s₃, r.player, r.contents, htake,
        fun _ => ⟨by simpa [hconvergence] using hdusted, hcores, by simpa [hconvergence] using hgold⟩,
        hdelivers, hbound⟩
      · rw [hafter.forgeHistory]
        split_ifs at hdusted
        · rw [hdusted]
        · exact hdusted.forgeHistory
      · rw [hafter.forgeDusts, hrecord]
        by_cases hbonus : a.bonus = 1
        · rw [if_pos hbonus] at hdusted
          simp [hdusted, hbonus]
        · rw [if_neg hbonus] at hdusted
          rw [if_pos hbonus]
          exact hdusted.dusts
    · rw [if_neg hsuccess] at hfair hfused
      obtain ⟨hdusts, hkept, hrecord⟩ := hfused
      refine ⟨haccounted hkept ?_, original, s₁, s₁, s₁, r.player, r.contents, htake,
        fun htrue => absurd htrue hsuccess, hdelivers, hbound⟩
      rw [hdusts, hrecord, hfair, UInt64.sub_zero, Nat.add_zero]

/-- A fair transfer that completes is charged and accounted for. -/
theorem transfer_charged {s s' : Player} {a : Transfer} (hfair : Fair server s (.transfer a))
    (h : forgeTransferItemTier server s a = .ok s') : Accounted s s' ∧ Charged server s (.transfer a) s' := by
  obtain ⟨s₁, x, history, htier, hdelivers, hdusts, -, hhistory, hrecord⟩ :=
    (forgeTransferItemTier_ends s a).of_ok h
  obtain ⟨hfree, hnew⟩ := hfair
  refine ⟨⟨[history], hhistory, ?_⟩, s₁, x, hdelivers, ?_⟩
  · rw [hdusts, hfree, UInt64.sub_zero]
    simp [dustCharged, hrecord]
  · rw [← toNat_newTier hnew]
    exact_mod_cast htier

/-- A fair call that completes is charged and accounted for. -/
theorem perform_charged {s s' : Player} {call : Call} (hfair : Fair server s call)
    (h : perform server s call = .ok s') : Accounted s s' ∧ Charged server s call s' := by
  cases call with
  | fuse a => exact fuse_charged hfair h
  | transfer a => exact transfer_charged hfair h
  | convert actionType => exact ⟨(forgeResourceConversion_ends s actionType).of_ok h, trivial⟩

/-- **Charges.** In every state of a run of completed fair calls the dust is what it was less what
the history has recorded since, and every call of it took what it is to. -/
theorem run_charged {s : Player} {l : List Call}
    (hfair : Runs.Meets (step server) (fun s call => Completes server s call ∧ Fair server s call) s l) :
    (∀ m, m <+: l → Accounted s (Runs.run (step server) s m)) ∧
      ∀ m call, m ++ [call] <+: l → Charged server (Runs.run (step server) s m) call
        (step server (Runs.run (step server) s m) call) := by
  have hstep : ∀ s call, Completes server s call ∧ Fair server s call →
      Accounted s (step server s call) ∧ Charged server s call (step server s call) := by
    rintro s call ⟨⟨s', hs'⟩, hfair⟩
    have hstep : step server s call = s' := by
      unfold step
      rw [hs']
    rw [hstep]
    exact perform_charged hfair hs'
  constructor
  · intro m hm
    exact Runs.invariant (step server) (fun s' call h hcall => h.trans (hstep s' call hcall).1)
      (Accounted.refl s) (hfair.of_prefix (step server) hm)
  · intro m call hm
    have hmeets := (Runs.meets_append (step server)).1 (hfair.of_prefix (step server) hm)
    exact (hstep _ call hmeets.2.1).2

/-! ## A success without dust -/

namespace Inventory

/-- A number that no item has and that no item lies in. -/
def fresh (inv : Inventory) : ℕ :=
  1 + (inv.items.map (·.uid)).sum + (inv.items.map fun x => x.holders.sum).sum

theorem uid_lt_fresh (inv : Inventory) {x : Item} (hx : x ∈ inv.items) : x.uid < inv.fresh := by
  have := List.le_sum_of_mem (List.mem_map_of_mem (f := fun y : Item => y.uid) hx)
  unfold fresh
  omega

theorem holder_lt_fresh (inv : Inventory) {x : Item} (hx : x ∈ inv.items) {c : ℕ} (hc : c ∈ x.holders) :
    c < inv.fresh := by
  have hsum := List.le_sum_of_mem hc
  have := List.le_sum_of_mem (List.mem_map_of_mem (f := fun y : Item => y.holders.sum) hx)
  unfold fresh
  omega

/-- Puts an item on a slot. -/
def push (inv : Inventory) (x : Body) (hcount : 0 < x.count)
    (hremovable : isCurrency x.id → x.removable = true) : Inventory where
  items := { x with uid := inv.fresh, holders := [] } :: inv.items
  nodup := by
    refine List.nodup_cons.2 ⟨fun h => ?_, inv.nodup⟩
    obtain ⟨y, hy, huid⟩ := List.mem_map.1 h
    exact (inv.uid_lt_fresh hy).ne huid
  count_pos y hy := by
    rcases List.mem_cons.1 hy with rfl | hy
    · exact hcount
    · exact inv.count_pos y hy
  holds_none y hy hcur z hz := by
    rcases List.mem_cons.1 hz with rfl | hz
    · simp
    · rcases List.mem_cons.1 hy with rfl | hy
      · exact fun h => lt_irrefl _ (inv.holder_lt_fresh hz h)
      · exact inv.holds_none y hy hcur z hz
  removable y hy hcur := by
    rcases List.mem_cons.1 hy with rfl | hy
    · exact hremovable hcur
    · exact inv.removable y hy hcur

/-- Puts items on slots. -/
def pushAll (inv : Inventory) : List Body → Option Inventory
  | [] => some inv
  | x :: l =>
    if h : 0 < x.count ∧ (isCurrency x.id → x.removable = true) then (inv.push x h.1 h.2).pushAll l
    else none

theorem pushAll_spec {bodies : List Body} {inv inv' : Inventory} (h : inv.pushAll bodies = some inv') :
    (∀ f, inv'.total f = inv.total f + bodiesTotal f bodies) ∧ ∀ x ∈ inv.items, x ∈ inv'.items := by
  induction bodies generalizing inv with
  | nil =>
    obtain rfl := Option.some.inj h
    exact ⟨fun f => rfl, fun _ hx => hx⟩
  | cons x l ih =>
    unfold pushAll at h
    split_ifs at h with hx
    obtain ⟨htotal, hmem⟩ := ih h
    refine ⟨fun f => ?_, fun y hy => hmem y (List.mem_cons_of_mem _ hy)⟩
    have hpush : (inv.push x hx.1 hx.2).total f = x.count * f x.id + inv.total f := rfl
    have hall : bodiesTotal f (x :: l) = x.count * f x.id + bodiesTotal f l := rfl
    rw [htotal f, hpush, hall]
    omega

end Inventory

/-- A player with room on his slots. -/
def onSlots : Placing where
  place := Inventory.pushAll
  total_place _ h := (Inventory.pushAll_spec h).1
  mem_place _ h x hx _ := (Inventory.pushAll_spec h).2 x hx

/-- A server on which a fusion takes 100 dust. -/
def dustyServer : Server where
  types id := if isCurrency id then Items.stackType else Items.plainType
  currency_stackable id h := by simp [h, Items.stackType]
  known _ := true
  canRemove _ := true
  isContainer id := id = ITEM_EXALTATION_CHEST
  upgradeClassification id := if id = 3300 then 4 else 0
  itemsClassifications := []
  FORGE_MAX_ITEM_TIER := 10
  FORGE_FUSION_DUST_COST := 100
  FORGE_CONVERGENCE_FUSION_DUST_COST := 130
  FORGE_TRANSFER_DUST_COST := 100
  FORGE_CONVERGENCE_TRANSFER_DUST_COST := 160
  FORGE_TIER_LOSS_REDUCTION := 50
  FORGE_COST_ONE_SLIVER := 20
  FORGE_SLIVER_AMOUNT := 3
  FORGE_CORE_COST := 50
  FORGE_MAX_DUST := 225
  getFreeBackpackSlots _ := 18
  chestTakes _ := true
  tileTakes _ := true
  placing := onSlots

/-- A blade in the backpack. -/
def blade (uid : ℕ) : Item where
  id := 3300
  count := 1
  tier := none
  hasImbuements := false
  removable := true
  uid := uid
  holders := [1]

/-- A player with two blades in his backpack, and some dust. -/
def smith (forgeDusts : UInt64) : Player where
  inventory := {
    items := [blade 2, blade 3]
    nodup := by decide
    count_pos := by decide
    holds_none := by decide
    removable := by decide }
  stash _ := 0
  ground := []
  bankBalance := 0
  forgeDusts := forgeDusts
  forgeDustLevel := 100
  forgeHistory := []

/-- A fusion of the two blades that succeeds. -/
def bladeFusion : Fusion where
  firstItemId := 3300
  tier := 0
  secondItemId := 3300
  success := true
  reduceTierLoss := false
  convergence := false
  bonus := 0
  coreCount := 0
  roll := 50

/-- The dust is there: the fusion is charged. -/
theorem run_charged_blades :
    Accounted (smith 150) (Runs.run (step dustyServer) (smith 150) [.fuse bladeFusion]) ∧
      Charged dustyServer (smith 150) (.fuse bladeFusion) (step dustyServer (smith 150) (.fuse bladeFusion)) := by
  have hcompletes : Completes dustyServer (smith 150) (.fuse bladeFusion) := ⟨_, rfl⟩
  have hfair : Fair dustyServer (smith 150) (.fuse bladeFusion) := fun _ => by decide
  have hmeets : Runs.Meets (step dustyServer)
      (fun s call => Completes dustyServer s call ∧ Fair dustyServer s call) (smith 150) [.fuse bladeFusion] :=
    ⟨⟨hcompletes, hfair⟩, trivial⟩
  exact ⟨(run_charged hmeets).1 _ (List.prefix_refl _), (run_charged hmeets).2 [] _ (List.prefix_refl _)⟩

/-- There is no dust, and the dust wraps around. -/
theorem not_run_charged :
    ¬ ∀ (server : Server) (s : Player) (l : List Call),
      Runs.Meets (step server) (Completes server) s l →
        (∀ m, m <+: l → Accounted s (Runs.run (step server) s m)) ∧
          ∀ m call, m ++ [call] <+: l → Charged server (Runs.run (step server) s m) call
            (step server (Runs.run (step server) s m) call) := by
  intro h
  have hcompletes : Completes dustyServer (smith 0) (.fuse bladeFusion) := ⟨_, rfl⟩
  obtain ⟨l, -, hdusts⟩ := (h dustyServer (smith 0) [.fuse bladeFusion] ⟨hcompletes, trivial⟩).1 _
    (List.prefix_refl _)
  have hwrapped : (Runs.run (step dustyServer) (smith 0) [.fuse bladeFusion]).forgeDusts =
      18446744073709551516 := rfl
  rw [hwrapped] at hdusts
  have hzero : (smith 0).forgeDusts.toNat = 0 := rfl
  rw [hzero] at hdusts
  exact absurd hdusts (by simp)

end TiabloServer.Forge
