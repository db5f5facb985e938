import TiabloServer.Items.PlayerAdd
import TiabloServer.Lib.Assoc

/-!
# The stash

`Game::playerStashWithdraw` takes items out of the stash of a player and gives them to him as stacks
of at most 100, each of which is offered to his obtain containers and then added like any other
item.

## Main definitions

* `Items.StacksReceived` — all stacks arrive in the trees, one after the other.
* `Items.MovesAll` — what is missing in the stash has come to the player and to his tile.

## Main results

* `Items.addItemFromStash_units` — no more than the stacks comes out, and all of them exactly when
  all are received.
* `Items.giving_iff` — an item is given whole, and a withdrawal moves all units, exactly when the
  items are received.
-/

namespace TiabloServer.Items

open ReturnValue ObjectCategory

/-! ## The functions of the source -/

section Source

variable (cfg : CollectConfig)

/-- A player's side of a withdrawal: the world, what he has set aside, and his stash, the counts of
the items in it. -/
structure Stash where
  world : World
  managed : Managed
  stashItems : List (ℕ × ℕ)

/-- `Container::getFreeSlots`, a 16-bit value: of the container and of all those in it. -/
def getFreeSlots (w : World) (n : ℕ) : ℕ :=
  let free (x : ℕ) : ℤ := match (w.items x).container with
    | none => 0
    | some k => k.maxSize - k.itemlist.length
  (((n :: w.iterator n).map free).sum % 2 ^ 16).toNat

/-- `Player::getFreeBackpackSlots`. -/
def getFreeBackpackSlots (w : World) (p : ℕ) : ℕ := (mainBackpack w p).elim 0 (getFreeSlots w)

/-- `Player::withdrawItem`: the stash that is left. -/
def withdrawItem (stashItems : List (ℕ × ℕ)) (itemId amount : ℕ) : Option (List (ℕ × ℕ)) :=
  match Assoc.get stashItems itemId with
  | none => none
  | some n =>
    if n > amount then some (Assoc.put stashItems itemId (n - amount))
    else if n = amount then some (Assoc.erase stashItems itemId)
    else none

/-- `WithdrawCount`: what the slots and the capacity have room for. `NDSlots` is a signed 32-bit
value, and the weight of all items an unsigned one. -/
def withdrawCount (freeSlots freeCapacity stackSize weight count : ℕ) : ℕ :=
  let ndSlots : ℤ := ((freeSlots : ℤ) - if count < stackSize then 1 else count / stackSize).bmod (2 ^ 32)
  let slotsWith := if ndSlots ≤ 0 then freeSlots * stackSize else count
  let capWith := if freeCapacity < count * weight % 2 ^ 32 then freeCapacity / weight else count
  if slotsWith > capWith then capWith else slotsWith

/-- What `playerStashWithdraw` takes out of the stash for a request, and the stash that is left. -/
def withdrawal (s : Stash) (p itemId count : ℕ) : Option (ℕ × List (ℕ × ℕ)) :=
  let it := cfg.types itemId
  if (s.world.players p).cannotPickupItem then none
  else if ¬ cfg.registered itemId ∨ count = 0 then none
  else
    let freeSlots := match s.managed.getManagedContainer (cfg.typeCategory itemId) with
      | some c => if s.managed.quickLootFallbackToMainContainer then getFreeBackpackSlots s.world p
        else getFreeSlots s.world c
      | none => getFreeBackpackSlots s.world p
    let freeCapacity := s.world.getFreeCapacity cfg.types p
    if freeSlots = 0 then none
    else if freeCapacity < 100 then none
    else
      let n := withdrawCount freeSlots freeCapacity it.stackSize.toNat it.weight count
      (withdrawItem s.stashItems itemId n).map fun stashItems => (n, stashItems)

/-- `Game::tryRetrieveStashItems` and, when that fails, `Game::internalPlayerAddItem` with a new
stack. -/
def retrieve (p itemId : ℕ) (s : World × Managed) (addValue : ℕ) : World × Managed :=
  let newItem := s.1.size
  let c := internalCollectManagedItems cfg (s.1.create (createStack cfg.types itemId addValue)) s.2 p newItem
  if c.2.2 = RETURNVALUE_NOERROR then (c.1, c.2.1)
  else
    let r := internalPlayerAddItem cfg c.1 c.2.1 p newItem true CONST_SLOT_WHEREEVER
    (r.1, r.2.1)

/-- The counts of the stacks that `addItemFromStash` makes, one in each round of its loop. -/
def stashStacks : ℕ → ℕ → List ℕ
  | 0, _ => []
  | fuel + 1, itemCount =>
    if itemCount = 0 then [] else min 100 itemCount :: stashStacks fuel (itemCount - min 100 itemCount)

/-- `Player::addItemFromStash`. -/
def addItemFromStash (p itemId itemCount : ℕ) (s : World × Managed) : World × Managed :=
  (stashStacks itemCount itemCount).foldl (retrieve cfg p itemId) s

/-- `Game::playerStashWithdraw`. -/
def playerStashWithdraw (s : Stash) (p itemId count : ℕ) : Stash :=
  match withdrawal cfg s p itemId count with
  | none => s
  | some (n, stashItems) =>
    let r := addItemFromStash cfg p itemId n (s.world, s.managed)
    ⟨r.1, r.2, stashItems⟩

end Source

/-! ## Stacks -/

variable {cfg : CollectConfig} {R : Set Cylinder} {w w' : World} {m : Managed} {p t id n : ℕ}

/-- All of a stack from the stash arrives in the trees of `R`. -/
def StackReceived (cfg : CollectConfig) (R : Set Cylinder) (p t id : ℕ) (s : World × Managed) (n : ℕ) :
    Prop :=
  let w := s.1.create (createStack cfg.types id n)
  match collector cfg w s.2 p s.1.size with
  | some c => Gets cfg.toConfig R w (.item c) s.1.size 0
  | none => Receives cfg R w (offered cfg w s.2 p s.1.size).2 p t s.1.size

theorem stackReceived_of_collector (s : World × Managed) {c : ℕ}
    (h : collector cfg (s.1.create (createStack cfg.types id n)) s.2 p s.1.size = some c)
    (hgets : Gets cfg.toConfig R (s.1.create (createStack cfg.types id n)) (.item c) s.1.size 0) :
    StackReceived cfg R p t id s n := by
  unfold StackReceived
  dsimp only
  rw [h]
  exact hgets

/-- All stacks from the stash arrive in the trees of `R`, one after the other. -/
def StacksReceived (cfg : CollectConfig) (R : Set Cylinder) (p t id : ℕ) : World × Managed → List ℕ → Prop
  | _, [] => True
  | s, n :: l => StackReceived cfg R p t id s n ∧ StacksReceived cfg R p t id (retrieve cfg p id s n) l

/-- The units of a new stack. -/
theorem units_newStack (hstack : (cfg.types (createdId cfg.types id)).stackable = true) (hpos : 0 < n)
    (hn : n < 256) (w : World) :
    unitsOf cfg.types (w.create (createStack cfg.types id n)) (createdId cfg.types id) w.size = n := by
  have hnew : (w.create (createStack cfg.types id n)).items w.size = createStack cfg.types id n :=
    w.items_create_self _
  have hstack' : ((w.create (createStack cfg.types id n)).items w.size).isStackable cfg.types = true := by
    rw [hnew]
    exact hstack
  rw [unitsOf_stack hstack', hnew,
    if_pos (show (createStack cfg.types id n).id = createdId cfg.types id from rfl), Item.getItemCount, createStack,
    if_neg hpos.ne', UInt8.toNat_ofNat', Nat.mod_eq_of_lt hn]

/-- **A stack from the stash** gives no more than its units, and all of them exactly when they are
received. -/
theorem retrieve_units (s : World × Managed) (hw : s.1.WF cfg.types) (hp : .player p ∈ R)
    (ht : .tile t ∈ R) (htile : (s.1.players p).tile = some t)
    (hstack : (cfg.types (createdId cfg.types id)).stackable = true) (hpos : 0 < n) (hn : n < 256) :
    Settled cfg.types s.1 (retrieve cfg p id s n).1 ∧
      units cfg.types (retrieve cfg p id s n).1 R (createdId cfg.types id) ≤
        units cfg.types s.1 R (createdId cfg.types id) + n ∧
      (units cfg.types (retrieve cfg p id s n).1 R (createdId cfg.types id) =
        units cfg.types s.1 R (createdId cfg.types id) + n ↔ StackReceived cfg R p t id s n) := by
  obtain ⟨w, m⟩ := s
  have hnone : (createStack cfg.types id n).container = none := rfl
  have hloose := loose_createStack hw R id hn
  have hnew : (w.create (createStack cfg.types id n)).items w.size = createStack cfg.types id n :=
    w.items_create_self _
  have hcreate : units cfg.types (w.create (createStack cfg.types id n)) R (createdId cfg.types id) =
      units cfg.types w R (createdId cfg.types id) := hw.units_create hnone _
  have hcount := units_newStack hstack hpos hn w
  have hsettled : Settled cfg.types w (w.create (createStack cfg.types id n)) := .create hnone
  have hcollect := internalCollectManagedItems_eq cfg (w.create (createStack cfg.types id n)) m p w.size
  unfold retrieve StackReceived
  dsimp only at hw htile ⊢
  set w₁ := w.create (createStack cfg.types id n) with hw₁
  have hid : (w₁.items w.size).id = createdId cfg.types id := by rw [hnew]; rfl
  cases hcollector : collector cfg w₁ m p w.size with
  | some c =>
    rw [hcollector] at hcollect
    dsimp only at hcollect ⊢
    rw [if_pos hcollect.2, hcollect.1]
    have hgets := gets_iff hloose (Or.inl ⟨c, rfl⟩) 0
    dsimp only at hgets
    rw [hid, hcount, hcreate] at hgets
    exact ⟨hsettled.trans (addRounds_settled cfg.toConfig _ hloose.wf hloose.nowhere hloose.live _ _ _),
      hgets⟩
  | none =>
    rw [hcollector] at hcollect
    dsimp only at hcollect ⊢
    have hm : (internalCollectManagedItems cfg w₁ m p w.size).2.1 = (offered cfg w₁ m p w.size).2 := by
      unfold internalCollectManagedItems
      rcases offered cfg w₁ m p w.size with ⟨_ | containers, m'⟩ <;> rfl
    rw [if_neg hcollect.2, hcollect.1, hm]
    have hunits := internalPlayerAddItem_units (m := (offered cfg w₁ m p w.size).2) hloose hp ht htile
    dsimp only at hunits
    rw [hid, hcount, hcreate] at hunits
    exact ⟨hsettled.trans (internalPlayerAddItem_settled hloose.wf hloose.nowhere hloose.live htile), hunits⟩

/-- The stacks are of 1 to 100 items, and as many items as asked for. -/
theorem stashStacks_spec {fuel : ℕ} (hn : n ≤ fuel) :
    (∀ k ∈ stashStacks fuel n, 0 < k ∧ k < 256) ∧ (stashStacks fuel n).sum = n := by
  induction fuel generalizing n with
  | zero =>
    obtain rfl : n = 0 := by omega
    simp [stashStacks]
  | succ fuel ih =>
    unfold stashStacks
    by_cases hzero : n = 0
    · simp [hzero]
    · obtain ⟨hall, hsum⟩ := ih (n := n - min 100 n) (by omega)
      rw [if_neg hzero]
      refine ⟨fun k hk => ?_, ?_⟩
      · rcases List.mem_cons.1 hk with rfl | hk
        · omega
        · exact hall k hk
      · rw [List.sum_cons, hsum]
        omega

/-- **Stacks from the stash**, one after the other, give no more than their units, and all of them
exactly when all are received. -/
theorem retrieveAll_units {l : List ℕ} (hl : ∀ n ∈ l, 0 < n ∧ n < 256) (s : World × Managed)
    (hw : s.1.WF cfg.types) (hp : .player p ∈ R) (ht : .tile t ∈ R) (htile : (s.1.players p).tile = some t)
    (hstack : (cfg.types (createdId cfg.types id)).stackable = true) :
    units cfg.types (l.foldl (retrieve cfg p id) s).1 R (createdId cfg.types id) ≤
        units cfg.types s.1 R (createdId cfg.types id) + l.sum ∧
      (units cfg.types (l.foldl (retrieve cfg p id) s).1 R (createdId cfg.types id) =
        units cfg.types s.1 R (createdId cfg.types id) + l.sum ↔ StacksReceived cfg R p t id s l) := by
  induction l generalizing s with
  | nil => exact ⟨le_rfl, iff_of_true rfl trivial⟩
  | cons n l ih =>
    obtain ⟨hpos, hn⟩ := hl n List.mem_cons_self
    obtain ⟨hsettled, hle, hiff⟩ := retrieve_units s hw hp ht htile hstack hpos hn
    obtain ⟨hle', hiff'⟩ := ih (fun k hk => hl k (List.mem_cons_of_mem n hk)) (retrieve cfg p id s n)
      (hsettled.wf hw) ((hsettled.tile p).trans htile)
    rw [List.foldl_cons, List.sum_cons, StacksReceived, ← hiff, ← hiff']
    -- neither the first stack nor the others give more than they have, so all do when together they do
    constructor
    · omega
    · constructor
      · intro heq
        constructor <;> omega
      · rintro ⟨hfirst, hrest⟩
        omega

/-- **The loop of `addItemFromStash`** gives no more than it is to, and all of it exactly when all
stacks are received. -/
theorem addItemFromStash_units (s : World × Managed) (hw : s.1.WF cfg.types) (hp : .player p ∈ R)
    (ht : .tile t ∈ R) (htile : (s.1.players p).tile = some t)
    (hstack : (cfg.types (createdId cfg.types id)).stackable = true) (n : ℕ) :
    units cfg.types (addItemFromStash cfg p id n s).1 R (createdId cfg.types id) ≤
        units cfg.types s.1 R (createdId cfg.types id) + n ∧
      (units cfg.types (addItemFromStash cfg p id n s).1 R (createdId cfg.types id) =
        units cfg.types s.1 R (createdId cfg.types id) + n ↔ StacksReceived cfg R p t id s (stashStacks n n)) := by
  obtain ⟨hall, hsum⟩ := stashStacks_spec (le_refl n)
  have hunits := retrieveAll_units hall s hw hp ht htile hstack
  rwa [hsum] at hunits

/-! ## Withdrawals -/

/-- The count of an item in the stash. -/
def stashCount (stashItems : List (ℕ × ℕ)) (itemId : ℕ) : ℕ := (Assoc.get stashItems itemId).getD 0

/-- What is taken out of the stash is missing there, and no more. -/
theorem stashCount_withdrawItem {stashItems left : List (ℕ × ℕ)} {itemId amount : ℕ}
    (h : withdrawItem stashItems itemId amount = some left) :
    stashCount left itemId + amount = stashCount stashItems itemId := by
  unfold withdrawItem at h
  unfold stashCount
  cases hget : Assoc.get stashItems itemId with
  | none =>
    rw [hget] at h
    cases h
  | some n =>
    rw [hget] at h
    dsimp only at h
    split_ifs at h with hmore hall
    · obtain rfl := Option.some.inj h
      rw [Assoc.get_put, if_pos rfl, Option.getD_some, Option.getD_some]
      omega
    · obtain rfl := Option.some.inj h
      rw [Assoc.get_erase, if_pos rfl, Option.getD_none, Option.getD_some]
      omega

theorem withdrawItem_of_withdrawal {s : Stash} {itemId count : ℕ} {left : List (ℕ × ℕ)}
    (h : withdrawal cfg s p itemId count = some (n, left)) : withdrawItem s.stashItems itemId n = some left := by
  unfold withdrawal at h
  dsimp only at h
  split_ifs at h
  all_goals
    obtain ⟨left', hleft, heq⟩ := Option.map_eq_some_iff.1 h
    obtain ⟨rfl, rfl⟩ := Prod.mk.inj heq
    exact hleft

/-- What a withdrawal takes out of the stash comes to the player and to the tile under him, of the
id with which items are created of it; and the stash does not lose anything else of the item. -/
def MovesAll (cfg : CollectConfig) (s : Stash) (p t itemId count : ℕ) : Prop :=
  let s' := playerStashWithdraw cfg s p itemId count
  units cfg.types s'.world {.player p, .tile t} (createdId cfg.types itemId) + stashCount s'.stashItems itemId =
    units cfg.types s.world {.player p, .tile t} (createdId cfg.types itemId) + stashCount s.stashItems itemId

/-- **A withdrawal moves all units** exactly when all its stacks are received. -/
theorem movesAll_iff (s : Stash) {itemId : ℕ} (hw : s.world.WF cfg.types)
    (htile : (s.world.players p).tile = some t)
    (hstack : (cfg.types (createdId cfg.types itemId)).stackable = true) (count : ℕ) :
    MovesAll cfg s p t itemId count ↔ ∀ n left, withdrawal cfg s p itemId count = some (n, left) →
        StacksReceived cfg {.player p, .tile t} p t itemId (s.world, s.managed) (stashStacks n n) := by
  unfold MovesAll playerStashWithdraw
  cases hwithdrawal : withdrawal cfg s p itemId count with
  | none => exact iff_of_true rfl nofun
  | some r =>
    obtain ⟨n, left⟩ := r
    have hleft := stashCount_withdrawItem (withdrawItem_of_withdrawal hwithdrawal)
    obtain ⟨hle, hiff⟩ := addItemFromStash_units (R := {.player p, .tile t}) (s.world, s.managed) hw
      (by simp) (by simp) htile hstack n
    dsimp only at hle hiff ⊢
    constructor
    · intro heq n' left' h
      obtain ⟨rfl, rfl⟩ := Prod.mk.inj (Option.some.inj h)
      exact hiff.1 (by omega)
    · intro hall
      have heq := hiff.2 (hall n left rfl)
      omega

/-! ## Giving -/

/-- **Giving items to a player moves their units** exactly when they are received: a new item is
given whole when no stage takes it or the stage that takes it has room for all of it, and a
withdrawal moves what is taken out of the stash when this is so of each of its stacks. -/
theorem giving_iff (cfg : CollectConfig) :
    (∀ w m p t x, Loose cfg.types (giftTrees p t x) w x → (w.players p).tile = some t →
      (GivesAll cfg w m p t x ↔
        (IsTaken cfg w m p t x → Receives cfg (giftTrees p t x) w m p t x))) ∧
    ∀ (s : Stash) p t itemId count, s.world.WF cfg.types → (s.world.players p).tile = some t →
      (cfg.types (createdId cfg.types itemId)).stackable = true →
      (MovesAll cfg s p t itemId count ↔
        ∀ n left, withdrawal cfg s p itemId count = some (n, left) →
          StacksReceived cfg {.player p, .tile t} p t itemId (s.world, s.managed) (stashStacks n n)) :=
  ⟨fun _ _ _ _ _ h htile => givesAll_iff cfg h htile,
    fun s _ _ _ count hw htile hstack => movesAll_iff s hw htile hstack count⟩

/-! ## The quiver -/

/-- A configuration without the bank, where all items are of one category. -/
def quiverConfig : CollectConfig where
  __ := plainConfig quiverTypes
  autobank := false
  typeCategory _ := OBJECTCATEGORY_DEFAULT
  registered _ := true

/-- A player who has set nothing aside. -/
def nothingManaged : Managed where
  obtainContainers _ := none
  isPremium := false
  quickLootFallbackToMainContainer := false

/-- The archer stands on a tile. -/
def rangeWorld (n : UInt8) : World where
  __ := quiverWorld n
  players p := if p = 0 then { archer with tile := some 0 } else barePlayer

theorem contents_rangeWorld (n : UInt8) (d : Cylinder) :
    (rangeWorld n).contents d = (quiverWorld n).contents d := by
  cases d with
  | item x => rfl
  | player p =>
    match p with
    | 0 => rfl
    | p + 1 => rfl
  | tile t => rfl

theorem rangeWorld_wf (n : UInt8) : (rangeWorld n).WF quiverTypes :=
  (quiverWorld_wf n).of_dropped (contents_rangeWorld n) (fun _ => rfl) rfl fun _ => ⟨rfl, rfl⟩

theorem rangeWorld_loose (n : UInt8) (hn : 0 < n.toNat) : Loose quiverTypes (giftTrees 0 0 7) (rangeWorld n) 7 := by
  refine ⟨rangeWorld_wf n, fun d => ?_, by show 7 < 8; decide, Or.inl (by simp [giftTrees]), ?_⟩
  · rw [contents_rangeWorld]
    exact quiverWorld_nowhere n d
  · exact hn

/-- Five arrows go on the last stack in the quiver. -/
theorem inventoryReceives_quiver : InventoryReceives quiverConfig (giftTrees 0 0 7) (rangeWorld 5) 0 0 7 := by
  have htarget : addTarget quiverConfig.toConfig (rangeWorld 5) (.player 0) 7 CONST_SLOT_WHEREEVER 0 =
      some 6 := by decide +kernel
  have hroom : addRoom quiverConfig.toConfig (rangeWorld 5) (.player 0) 7 CONST_SLOT_WHEREEVER 0 = 10 := by
    decide +kernel
  have hdest : (queryDestination quiverConfig.toConfig (rangeWorld 5) (.player 0) CONST_SLOT_WHEREEVER 7
      none 0).cylinder = .item 0 := by decide +kernel
  rw [InventoryReceives, RoundAdds, htarget]
  dsimp only
  rw [hroom, hdest]
  refine ⟨by decide, fun _ y hy => ?_, fun h => absurd h (by decide)⟩
  obtain rfl : 6 = y := Option.some.inj hy
  decide

/-- A quiver with one stack of ninety arrows and five free places. -/
def spareWorld : World :=
  listWorld [bagItem ITEM_QUIVER 6 false [1] (some (.player 0)), plainItem ITEM_ARROW 90 (some (.item 0))]
    (fun p => if p = 0 then { archer with tile := some 0 } else barePlayer) (fun _ => bareTile)

theorem spareWorld_wf : spareWorld.WF quiverTypes := by
  refine listWorld_wf [.item 0, .player 0] (fun x hx hc => ?_) (fun p hp => ?_) (fun t _ => rfl)
    (by show [1, 0].Nodup; decide) (by show ∀ x ∈ [1, 0], x < 2; decide) (fun x hx hs => ?_)
    (fun t x hx => absurd hx List.not_mem_nil) (fun t x hx => absurd hx List.not_mem_nil)
  · have hlt : x < 2 := hx
    interval_cases x
    · simp at hc
    · rfl
  · have hp0 : p ≠ 0 := by simpa using hp
    simp [listWorld, World.contents, hp0, barePlayer]
  · have hlt : x < 2 := hx
    interval_cases x
    · exact absurd (show bagType.stackable = true from hs) (by decide)
    · rfl

/-- The archer has set the quiver aside for what he obtains, and five arrows are in his stash. -/
def spareStash : Stash where
  world := spareWorld
  managed := { nothingManaged with
    obtainContainers := fun category => if category = OBJECTCATEGORY_DEFAULT then some 0 else none }
  stashItems := [(ITEM_ARROW, 5)]

/-- Five arrows from the stash go on the stack in the quiver. -/
theorem stacksReceived_spare : StacksReceived quiverConfig {.player 0, .tile 0} 0 0 ITEM_ARROW
    (spareStash.world, spareStash.managed) (stashStacks 5 5) := by
  have hcollector : collector quiverConfig (spareWorld.create (createStack quiverTypes ITEM_ARROW 5))
      spareStash.managed 0 2 = some 0 := by decide +kernel
  have hchecks : addChecks quiverConfig.toConfig (spareWorld.create (createStack quiverTypes ITEM_ARROW 5))
      (.item 0) 2 INDEX_WHEREEVER 0 = RETURNVALUE_NOERROR := by decide +kernel
  have htarget : addTarget quiverConfig.toConfig (spareWorld.create (createStack quiverTypes ITEM_ARROW 5))
      (.item 0) 2 INDEX_WHEREEVER 0 = some 1 := by decide +kernel
  have hroom : 5 ≤ addRoom quiverConfig.toConfig (spareWorld.create (createStack quiverTypes ITEM_ARROW 5))
      (.item 0) 2 INDEX_WHEREEVER 0 := by decide +kernel
  have hdest : (queryDestination quiverConfig.toConfig
      (spareWorld.create (createStack quiverTypes ITEM_ARROW 5)) (.item 0) INDEX_WHEREEVER 2 none 0).cylinder =
        .item 0 := queryDestination_item_wherever _ _ _ _ _
  have hgets : Gets quiverConfig.toConfig {.player 0, .tile 0}
      (spareWorld.create (createStack quiverTypes ITEM_ARROW 5)) (.item 0) 2 0 := by
    refine ⟨hchecks, ?_, ?_⟩
    · rw [hdest]
      exact Or.inr ⟨0, holds_of_mem (c := .player 0) (by simp) (by decide), rfl⟩
    · rw [AddsAll, RoundAdds, htarget]
      dsimp only
      rw [hdest]
      refine ⟨hroom, fun _ y hy => ?_, fun h => absurd h (by decide +kernel)⟩
      obtain rfl : 1 = y := Option.some.inj hy
      decide +kernel
  rw [show stashStacks 5 5 = [5] by decide]
  exact ⟨stackReceived_of_collector (spareWorld, spareStash.managed) hcollector hgets, trivial⟩

/-- Five arrows are given whole, and five arrows are moved from the stash into the quiver. -/
theorem giving_iff_archer : GivesAll quiverConfig (rangeWorld 5) nothingManaged 0 0 7 ∧
    MovesAll quiverConfig spareStash 0 0 ITEM_ARROW 5 := by
  refine ⟨((giving_iff quiverConfig).1 (rangeWorld 5) nothingManaged 0 0 7
    (rangeWorld_loose 5 (by decide)) rfl).2 fun _ => ?_,
    ((giving_iff quiverConfig).2 spareStash 0 0 ITEM_ARROW 5 spareWorld_wf rfl (by decide)).2
      fun n left h => ?_⟩
  · have hcollector : collector quiverConfig (rangeWorld 5) nothingManaged 0 7 = none := by decide +kernel
    have hchecks : addChecks quiverConfig.toConfig (rangeWorld 5) (.player 0) 7 CONST_SLOT_WHEREEVER 0 =
        RETURNVALUE_NOERROR := by decide +kernel
    rw [Receives, hcollector]
    dsimp only
    rw [if_pos hchecks]
    exact inventoryReceives_quiver
  · have hwithdrawal : withdrawal quiverConfig spareStash 0 ITEM_ARROW 5 = some (5, []) := by
      decide +kernel
    obtain ⟨rfl, rfl⟩ := Prod.mk.inj (Option.some.inj (hwithdrawal.symm.trans h))
    exact stacksReceived_spare

/-- **The quiver takes fifty arrows as all of them**: forty are lost, and the player is told
nothing. -/
theorem not_givesAll_quiver :
    Loose quiverTypes (giftTrees 0 0 7) (rangeWorld 50) 7 ∧
      (internalPlayerAddItem quiverConfig (rangeWorld 50) nothingManaged 0 7 true
        CONST_SLOT_WHEREEVER).2.2 = RETURNVALUE_NOERROR ∧
      ¬ GivesAll quiverConfig (rangeWorld 50) nothingManaged 0 0 7 := by
  have hloose := rangeWorld_loose 50 (by decide)
  refine ⟨hloose, by decide +kernel, fun h => ?_⟩
  have hcollector : collector quiverConfig (rangeWorld 50) nothingManaged 0 7 = none := by decide +kernel
  have hchecks : addChecks quiverConfig.toConfig (rangeWorld 50) (.player 0) 7 CONST_SLOT_WHEREEVER 0 =
      RETURNVALUE_NOERROR := by decide +kernel
  have hreceives := (givesAll_iff quiverConfig hloose rfl).1 h (Or.inr (Or.inl hchecks))
  have htarget : addTarget quiverConfig.toConfig (rangeWorld 50) (.player 0) 7 CONST_SLOT_WHEREEVER 0 =
      some 6 := by decide +kernel
  have hroom : addRoom quiverConfig.toConfig (rangeWorld 50) (.player 0) 7 CONST_SLOT_WHEREEVER 0 = 10 := by
    decide +kernel
  rw [Receives, hcollector] at hreceives
  dsimp only at hreceives
  rw [if_pos hchecks, InventoryReceives, RoundAdds, htarget] at hreceives
  dsimp only at hreceives
  rw [hroom] at hreceives
  exact absurd hreceives.1 (by decide)

end TiabloServer.Items
