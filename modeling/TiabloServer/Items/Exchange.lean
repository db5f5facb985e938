import TiabloServer.Items.Destinations
import TiabloServer.Items.Linked
import TiabloServer.Items.MoveConservation

/-!
# After an exchange

An exchange takes an item from its place at the destination and puts it into the source. What the
checks find afterwards can be told from the world before: the place is empty, an inventory carries
that item no more, and nothing else has changed.

## Main definitions

* `Items.PlainExchange` — the source takes the item, and does not lie where it comes from.
* `Items.Settles` — the item that is moved fits on the place that the exchange makes free.

## Main results

* `Items.isRight_planMove_iff` — after a plain exchange the checks pass just when the item fits.
-/

namespace TiabloServer.Items

open ReturnValue

variable {cfg : Config} {w w' : World} {a : MoveArgs} {d : Destination} {p t x y : ℕ}

/-! ## No exchange in containers -/

theorem hasBitSet_or_self {flag : ℕ} (hflag : flag ≠ 0) (flags : ℕ) :
    hasBitSet flag (flags ||| flag) = true := by
  simp [hasBitSet, Nat.and_or_distrib_right, hflag]

/-- An inventory exchanges nothing for what goes into a container in it. -/
theorem Player.queryAdd_ne_exchange (index : ℤ) (x count flags : ℕ) :
    Player.queryAdd cfg w p index x count (flags ||| FLAG_CHILDISOWNER) ≠
      RETURNVALUE_NEEDEXCHANGE := by
  unfold Player.queryAdd
  dsimp only
  rw [if_pos (hasBitSet_or_self (by decide) flags)]
  split_ifs <;> nofun

theorem Reward.queryAdd_ne_exchange (n x : ℕ) (actor : Bool) :
    Reward.queryAdd cfg w n x actor ≠ RETURNVALUE_NEEDEXCHANGE := by
  unfold Reward.queryAdd
  split_ifs <;> nofun

theorem Inbox.queryAdd_ne_exchange (n x flags : ℕ) : Inbox.queryAdd cfg w n x flags ≠ RETURNVALUE_NEEDEXCHANGE := by
  unfold Inbox.queryAdd
  dsimp only
  split_ifs <;> nofun

theorem Container.queryParents_ne_exchange (x : ℕ) (noLimit : Bool) (l : List Cylinder) :
    Container.queryParents w x noLimit l ≠ RETURNVALUE_NEEDEXCHANGE := by
  induction l with
  | nil => nofun
  | cons c l ih =>
    unfold Container.queryParents
    split_ifs
    · nofun
    · nofun
    · exact ih

theorem queryTopParent_ne_exchange (n x count flags : ℕ) (actor : Bool) :
    queryTopParent cfg w n x count flags actor ≠ RETURNVALUE_NEEDEXCHANGE := by
  unfold queryTopParent
  split
  · exact Player.queryAdd_ne_exchange _ x count flags
  · split_ifs
    · nofun
    · split
      · nofun
      · split
        · nofun
        · exact Reward.queryAdd_ne_exchange _ x actor
        · exact Inbox.queryAdd_ne_exchange _ x flags
  · nofun

/-- Containers exchange nothing. -/
theorem queryAdd_item_ne_exchange (n : ℕ) (index : ℤ) (x count flags : ℕ) (actor : Bool) :
    queryAdd cfg w (.item n) index x count flags actor ≠ RETURNVALUE_NEEDEXCHANGE := by
  simp only [queryAdd, Container.queryAddOf]
  split
  · nofun
  · split
    · unfold Container.queryAdd
      dsimp only
      split_ifs
      any_goals decide
      · exact Container.queryParents_ne_exchange x _ _
      · exact queryTopParent_ne_exchange n x count flags actor
    · exact Reward.queryAdd_ne_exchange n x actor
    · exact Inbox.queryAdd_ne_exchange n x flags

/-! ## The condition -/

/-- A container is neither the item `z` nor within it. -/
def Outside (w : World) (c : Cylinder) (z : ℕ) : Prop := ∀ n, c = .item n → n ≠ z ∧ n ∉ w.iterator z

/-- The exchange of an item with a source that takes it as it is: the source does not lie in the
item that is moved, which does not lie in the other one, and an inventory that the item goes to and
does not come from does not hold the source. -/
structure PlainExchange (cfg : Config) (a : MoveArgs) (w : World) (d : Destination) (y : ℕ) : Prop where
  differ : a.fromCylinder ≠ d.cylinder
  takes : AcceptsAnywhere cfg.types (withoutExchanged cfg w d.cylinder y) a.fromCylinder y
  above : .item y ∉ w.parents (.item a.item)
  self : a.fromCylinder ≠ .item a.item
  slot : ∀ p, d.cylinder = .player p → w.getInventoryItem p d.index = some y
  carried : ∀ p, d.cylinder = .player p → w.getTopParent a.item ≠ some (.player p) →
    ∀ z ∈ a.item :: (w.contents (.player p)).filter (· ≠ y), Outside w a.fromCylinder z

/-- There is so much of the item as is moved, when there is room for `room`. -/
def MoveArgs.Enough (cfg : Config) (a : MoveArgs) (w : World) (d : Destination) (room : ℕ) : Prop :=
  let m := a.movedCount cfg w (a.moveCount cfg w d.cylinder) room
  m ≠ 0 ∧ ((w.items a.item).isStackable cfg.types = true → m ≤ (w.items a.item).getItemCount)

/-- The player can carry the item when he gives `y` away. -/
def CarriesFor (cfg : Config) (w : World) (p x count y : ℕ) : Prop :=
  let item := w.items x
  let weight := if item.container.isSome then w.getWeight cfg.types x else item.getBaseWeight cfg.types
  (w.players p).cannotPickupItem = false ∧ ((w.players p).hasInfiniteCapacity = true ∨
    w.getTopParent x = some (.player p) ∨
    (if item.isStackable cfg.types then weight * count else weight) ≤ (w.players p).capacity -
      (((w.contents (.player p)).filter (· ≠ y)).map (w.getWeight cfg.types)).sum)

/-- The item that is moved fits on the place of `y`: on a slot that is made for it, on the body of a
player who can carry it instead of `y` and may put it on; or on a tile where no other item hangs. -/
def Settles (cfg : Config) (a : MoveArgs) (w : World) (d : Destination) (y : ℕ) : Prop :=
  match d.cylinder with
  | .item _ => False
  | .player p =>
    Player.querySlot cfg w p d.index a.item (a.moveCount cfg w d.cylinder) = RETURNVALUE_NOERROR ∧
      CarriesFor cfg w p a.item (a.moveCount cfg w d.cylinder) y ∧
      cfg.onPlayerEquip p (w.items a.item) d.index.toNat = true ∧
      a.Enough cfg w d ((w.items a.item).getStackSize cfg.types)
  | .tile t =>
    (∀ z ∈ (w.tiles t).downItems ++ (w.tiles t).topItems, z ≠ y →
        ((w.items z).type cfg.types).isHangable = false) ∧
      a.Enough cfg w d (max 1 (a.moveCount cfg w d.cylinder))

/-! ## What an exchange changes -/

/-- The source takes the item in. -/
theorem exchangeItem_cases
    (hacc : AcceptsAnywhere cfg.types (withoutExchanged cfg w d.cylinder y) a.fromCylinder y) :
    (∃ n l, a.fromCylinder = .item n ∧ exchangeItem cfg a w d y =
        ((withoutExchanged cfg w d.cylinder y).setParent y (some (.item n))).setItemlist n l) ∨
      ∃ t tile, a.fromCylinder = .tile t ∧ exchangeItem cfg a w d y =
        ((withoutExchanged cfg w d.cylinder y).setParent y (some (.tile t))).setTile t tile := by
  unfold exchangeItem
  rw [← withoutExchanged]
  cases hfrom : a.fromCylinder with
  | item n =>
    rw [hfrom] at hacc
    obtain ⟨k, hk, hroom⟩ := hacc
    refine Or.inl ⟨n, y :: k.itemlist, rfl, ?_⟩
    simp only [addThingAnywhere, Container.addThing, hk, ge_iff_le, if_neg (not_le.2 hroom)]
  | player p =>
    rw [hfrom] at hacc
    exact hacc.elim
  | tile t =>
    rw [hfrom] at hacc
    obtain ⟨hroom, hfree⟩ := hacc
    refine Or.inr ?_
    simp only [addThingAnywhere, Tile.addThing, ge_iff_le, if_neg (not_le.2 hroom)]
    split_ifs at hfree ⊢ with hground
    · rw [hfree]
      exact ⟨t, _, rfl, rfl⟩
    · rw [hfree]
      dsimp only
      unfold Tile.insertItem
      dsimp only
      split_ifs
      · exact ⟨t, _, rfl, rfl⟩
      · exact ⟨t, _, rfl, rfl⟩

/-- The parents and the fields of the other items, but for what the source holds. -/
structure Untouched (w w' : World) (c : Cylinder) (y : ℕ) : Prop where
  size : w'.size = w.size
  item : ∀ z, z ≠ y → c ≠ .item z → w'.items z = w.items z
  parent : ∀ z, z ≠ y → (w'.items z).parent = (w.items z).parent
  player : ∀ q, w'.players q = { w.players q with inventory := (w'.players q).inventory }

/-- An exchange does not touch the other items. -/
theorem untouched_exchangeItem (htake : Untouched w (withoutExchanged cfg w d.cylinder y) a.fromCylinder y)
    (hacc : AcceptsAnywhere cfg.types (withoutExchanged cfg w d.cylinder y) a.fromCylinder y) :
    Untouched w (exchangeItem cfg a w d y) a.fromCylinder y := by
  refine ⟨size_exchangeItem d y, fun z hz hc => ?_, fun z hz => ?_, fun q => ?_⟩
  · rcases exchangeItem_cases hacc with ⟨n, l, hfrom, h⟩ | ⟨t, tile, -, h⟩
    · have hne : z ≠ n := fun e => hc (e ▸ hfrom)
      rw [h, ← htake.item z hz hc]
      simp [World.setParent, World.setItem, World.setItemlist, hz, hne]
    · rw [h, ← htake.item z hz hc]
      simp [World.setParent, World.setItem, World.setTile, hz]
  · rcases exchangeItem_cases hacc with ⟨n, l, -, h⟩ | ⟨t, tile, -, h⟩
    · rw [h, parent_setItemlist, parent_setParent_of_ne hz, htake.parent z hz]
    · rw [h, ← htake.parent z hz]
      exact parent_setParent_of_ne hz _
  · rcases exchangeItem_cases hacc with ⟨n, l, -, h⟩ | ⟨t, tile, -, h⟩
    · rw [h]
      exact htake.player q
    · rw [h]
      exact htake.player q

theorem withoutExchanged_player (hindex : w.getThingIndex cfg.types (.player p) y ≠ -1) :
    withoutExchanged cfg w (.player p) y =
      (w.setParent y none).setSlot p (w.getThingIndex cfg.types (.player p) y).toNat none := by
  simp [withoutExchanged, removeThing, hindex]

/-- The first item of the lower ones on a tile is taken away. -/
theorem withoutExchanged_tile (hw : w.WF cfg.types) (hy : y ∈ (w.tiles t).downItems) :
    ∃ supportsHangable, ((w.tiles t).supportsHangable = true → supportsHangable = true) ∧
      withoutExchanged cfg w (.tile t) y = (w.setParent y none).setTile t
        { w.tiles t with downItems := (w.tiles t).downItems.erase y, supportsHangable } := by
  have horder : ((w.items y).type cfg.types).alwaysOnTopOrder = 0 := hw.down t y hy
  have hindex := hw.getThingIndex_tile (w.mem_contents_tile.2 (Or.inr (Or.inr hy)))
  have hground : (w.tiles t).ground ≠ some y := fun h => (hw.tile_disjoint.1 h).2 hy
  refine ⟨(w.tiles t).supportsHangable || ((w.items y).type cfg.types).supportHangable,
    fun h => by rw [h, Bool.true_or], ?_⟩
  simp only [withoutExchanged, removeThing, Tile.removeThing, Tile.removeItem, if_neg hindex,
    if_neg hground, horder, ne_eq, not_true_eq_false, and_false, if_false, if_pos hy]

theorem untouched_setSlot (c : Cylinder) (i : ℕ) : Untouched w ((w.setParent y none).setSlot p i none) c y := by
  refine ⟨rfl, fun z hz _ => ?_, fun z hz => parent_setParent_of_ne hz none, fun q => ?_⟩
  · simp [World.setSlot, World.setPlayer, World.setParent, World.setItem, hz]
  · rcases eq_or_ne q p with rfl | hq
    · simp [World.setSlot, World.setPlayer, World.setParent, World.setItem]
    · simp [World.setSlot, World.setPlayer, World.setParent, World.setItem, hq]

theorem untouched_setTile (c : Cylinder) (tile : Tile) : Untouched w ((w.setParent y none).setTile t tile) c y := by
  refine ⟨rfl, fun z hz _ => ?_, fun z hz => parent_setParent_of_ne hz none, fun q => rfl⟩
  simp [World.setTile, World.setParent, World.setItem, hz]

/-! ## What is read alike -/

namespace Untouched

variable {c : Cylinder}

/-- The parents of an item that is not below `y`. -/
theorem parents (h : Untouched w w' c y) (hx : x ≠ y) (habove : .item y ∉ w.parents (.item x)) :
    w'.parents (.item x) = w.parents (.item x) := by
  have hgo : ∀ fuel e, e ≠ .item y → .item y ∉ World.parents.go w fuel e →
      World.parents.go w' fuel e = World.parents.go w fuel e := by
    intro fuel
    induction fuel with
    | zero => exact fun _ _ _ => rfl
    | succ fuel ih =>
      intro e he habove
      have hparent : w'.getParent e = w.getParent e := by
        cases e with
        | item z => exact h.parent z fun e => he (e ▸ rfl)
        | player q =>
          have htile := congrArg Player.tile (h.player q)
          dsimp only at htile
          simp only [World.getParent, htile]
        | tile t => rfl
      rw [World.parents.go] at habove ⊢
      rw [World.parents.go, hparent]
      cases hnext : w.getParent e with
      | none => rfl
      | some e' =>
        rw [hnext] at habove
        rw [List.mem_cons, not_or] at habove
        exact congrArg (e' :: ·) (ih e' (Ne.symm habove.1) habove.2)
  unfold World.parents at habove ⊢
  rw [h.size]
  exact hgo _ _ (fun e => hx (Cylinder.item.inj e)) habove

/-- What an item holds that the source is not within. -/
theorem itemlist (h : Untouched w w' c y) {z : ℕ} (hz : z ≠ y) (hc : c ≠ .item z) :
    w'.itemlist z = w.itemlist z := by
  simp only [World.itemlist, h.item z hz hc]

/-- What lies in an item that neither the source nor `y` is within. -/
theorem iterator (h : Untouched w w' c y) (hy : ∀ z, y ∉ w.itemlist z) {z : ℕ} (hz : z ≠ y)
    (hout : Outside w c z) : w'.iterator z = w.iterator z := by
  have hgo : ∀ fuel cs, (∀ e ∈ cs, e ≠ y ∧ c ≠ .item e) → (∀ e ∈ World.iterator.go w fuel cs, c ≠ .item e) →
      World.iterator.go w' fuel cs = World.iterator.go w fuel cs := by
    intro fuel
    induction fuel with
    | zero => exact fun _ _ _ => rfl
    | succ fuel ih =>
      intro cs hcs hin
      cases cs with
      | nil => rfl
      | cons e cs =>
        rw [World.iterator.go] at hin ⊢
        rw [World.iterator.go]
        obtain ⟨he, hce⟩ := hcs e List.mem_cons_self
        have hinner : ∀ u ∈ w.itemlist e, u ≠ y ∧ c ≠ .item u := fun u hu =>
          ⟨fun heq => hy e (heq ▸ hu), hin u (List.mem_append_left _ hu)⟩
        have hfilter : ((w.itemlist e).filter fun u => w'.itemlist u ≠ []) =
            (w.itemlist e).filter fun u => w.itemlist u ≠ [] := by
          refine List.filter_congr fun u hu => ?_
          rw [h.itemlist (hinner u hu).1 (hinner u hu).2]
        rw [h.itemlist he hce, hfilter, ih]
        · intro u hu
          rcases List.mem_append.1 hu with hu | hu
          · exact hcs u (List.mem_cons_of_mem e hu)
          · exact hinner u (List.mem_of_mem_filter hu)
        · exact fun u hu => hin u (List.mem_append_right _ hu)
  unfold World.iterator
  rw [h.size]
  refine hgo _ _ (fun e he => ?_) fun e he hc => (hout e hc).2 he
  obtain rfl := List.mem_singleton.1 he
  exact ⟨hz, fun hc => (hout e hc).1 rfl⟩

theorem getTopParent (h : Untouched w w' c y) (hbody : (w'.items x).body = (w.items x).body) (hx : x ≠ y)
    (habove : .item y ∉ w.parents (.item x)) : w'.getTopParent x = w.getTopParent x := by
  unfold World.getTopParent
  rw [h.parents hx habove, (Item.body_eq hbody).2.2.2]

end Untouched

theorem Item.getBaseWeight_eq {i j : Item} (h : i.body = j.body) (types : ItemTypes) :
    i.getBaseWeight types = j.getBaseWeight types := by
  rw [Item.getBaseWeight, Item.getBaseWeight, (Item.body_eq h).2.2.1, Item.type_eq h]

theorem Item.getWeight_eq {i j : Item} (h : i.body = j.body) (types : ItemTypes) :
    i.getWeight types = j.getWeight types := by
  rw [Item.getWeight, Item.getWeight, Item.isStackable_eq h, Item.getBaseWeight_eq h, Item.getItemCount_eq h]

/-- An item whose contents are the same weighs the same. -/
theorem getWeight_congr {types : ItemTypes} (hbody : ∀ z, (w'.items z).body = (w.items z).body) {z : ℕ}
    (h : w'.iterator z = w.iterator z) : w'.getWeight types z = w.getWeight types z := by
  rw [World.getWeight, World.getWeight, h, Item.getWeight_eq (hbody z)]
  exact congrArg _ (congrArg List.sum (List.map_congr_left fun u _ => Item.getWeight_eq (hbody u) types))

/-! ## A slot that becomes free -/

section Slot

variable {c : Cylinder} {i : ℕ}

theorem queryOtherHand_congr (hitem : w'.items x = w.items x)
    (hbody : ∀ z, (w'.items z).body = (w.items z).body) (count : ℕ) (other : Option ℕ) :
    Player.queryOtherHand cfg w' x count other = Player.queryOtherHand cfg w x count other := by
  unfold Player.queryOtherHand
  rw [hitem]
  cases other with
  | none => rfl
  | some z => simp only [Item.type_eq (hbody z) cfg.types]

/-- What fits on a slot is told from the other slots. -/
theorem querySlot_congr (hitem : w'.items x = w.items x) (hbody : ∀ z, (w'.items z).body = (w.items z).body)
    (hinv : ∀ j, j ≠ i → (w'.players p).inventory j = (w.players p).inventory j) (count : ℕ) :
    Player.querySlot cfg w' p i x count = Player.querySlot cfg w p i x count := by
  unfold Player.querySlot
  rw [hitem]
  by_cases hright : (i : ℤ) = CONST_SLOT_RIGHT
  · have hleft : (w'.players p).inventory CONST_SLOT_LEFT = (w.players p).inventory CONST_SLOT_LEFT :=
      hinv _ fun e => by rw [← e] at hright; exact absurd hright (by decide)
    rw [if_pos hright, if_pos hright]
    unfold Player.queryRightHand
    dsimp only
    rw [hitem, hleft, queryOtherHand_congr hitem hbody]
    cases (w.players p).inventory CONST_SLOT_LEFT with
    | none => rfl
    | some z => simp only [Item.type_eq (hbody z) cfg.types]
  · rw [if_neg hright, if_neg hright]
    by_cases hleft : (i : ℤ) = CONST_SLOT_LEFT
    · have hright' : (w'.players p).inventory CONST_SLOT_RIGHT = (w.players p).inventory CONST_SLOT_RIGHT :=
        hinv _ fun e => hright (by rw [← e])
      rw [if_pos hleft, if_pos hleft]
      unfold Player.queryLeftHand
      dsimp only
      rw [hitem, hright', queryOtherHand_congr hitem hbody]
      cases (w.players p).inventory CONST_SLOT_RIGHT with
      | none => rfl
      | some z => simp only [Item.type_eq (hbody z) cfg.types]
    · rw [if_neg hleft, if_neg hleft]
      have hposition : Player.querySlotPosition cfg w' i x = Player.querySlotPosition cfg w i x := by
        unfold Player.querySlotPosition
        rw [hitem]
      rw [hposition]

/-- **What the player can carry** when `y` has left his inventory. -/
theorem hasCapacity_iff (cfg : Config) (h : Untouched w w' c y) (hbody : ∀ z, (w'.items z).body = (w.items z).body)
    (hitem : w'.items x = w.items x) (hx : x ≠ y) (habove : .item y ∉ w.parents (.item x))
    (hy : ∀ z, y ∉ w.itemlist z)
    (hcontents : (w'.contents (.player p)).Perm ((w.contents (.player p)).filter (· ≠ y)))
    (hcarried : w.getTopParent x ≠ some (.player p) →
      ∀ z ∈ x :: (w.contents (.player p)).filter (· ≠ y), Outside w c z) (count : ℕ) :
    Player.hasCapacity cfg w' p x count = true ↔ CarriesFor cfg w p x count y := by
  have hcannot := congrArg Player.cannotPickupItem (h.player p)
  have hinfinite := congrArg Player.hasInfiniteCapacity (h.player p)
  have hcapacity := congrArg Player.capacity (h.player p)
  unfold Player.hasCapacity CarriesFor
  dsimp only at hcannot hinfinite hcapacity ⊢
  rw [hitem, hcannot, hinfinite, h.getTopParent (hbody x) hx habove]
  cases hpickup : (w.players p).cannotPickupItem with
  | true => simp
  | false =>
    by_cases hfree : (w.players p).hasInfiniteCapacity = true ∨ w.getTopParent x = some (.player p)
    · simp only [Bool.false_eq_true, if_false, if_pos hfree, true_and, true_iff]
      exact hfree.imp_right Or.inl
    · obtain ⟨hinf, htop⟩ := not_or.1 hfree
      have hout := hcarried htop
      have hweight : w'.getWeight cfg.types x = w.getWeight cfg.types x :=
        getWeight_congr hbody (h.iterator hy hx (hout x List.mem_cons_self))
      have hsum : w'.inventoryWeight cfg.types p =
          (((w.contents (.player p)).filter (· ≠ y)).map (w.getWeight cfg.types)).sum := by
        rw [World.inventoryWeight, (hcontents.map _).sum_eq]
        refine congrArg List.sum (List.map_congr_left fun z hz => getWeight_congr hbody ?_)
        refine h.iterator hy ?_ (hout z (List.mem_cons_of_mem x hz))
        simpa using (List.mem_filter.1 hz).2
      have hcap : w'.getFreeCapacity cfg.types p = (w.players p).capacity -
          (((w.contents (.player p)).filter (· ≠ y)).map (w.getWeight cfg.types)).sum := by
        rw [World.getFreeCapacity, hcannot, hinfinite, hpickup, hsum, hcapacity]
        simp [hinf]
      rw [hweight, hcap]
      simp [hinf, htop]

/-- What an inventory exchanges is not another's, is pickupable, and is asked for the inventory
itself. -/
theorem queryAdd_of_exchange {index : ℤ} {count flags : ℕ}
    (h : Player.queryAdd cfg w p index x count flags = RETURNVALUE_NEEDEXCHANGE) :
    ¬ ((w.items x).hasOwner = true ∧ ¬ w.isOwner (w.items x) p = true) ∧
      ¬ hasBitSet FLAG_CHILDISOWNER flags = true ∧ ((w.items x).type cfg.types).pickupable = true := by
  unfold Player.queryAdd at h
  dsimp only at h
  refine ⟨fun h1 => ?_, fun h2 => ?_, ?_⟩
  · rw [if_pos h1] at h
    exact absurd h (by decide)
  · split_ifs at h
  · by_contra h3
    split_ifs at h

/-- **What the player takes on the slot** from which `y` is gone. -/
theorem queryAdd_slot_iff (h : Untouched w w' c y) (hitem : w'.items x = w.items x) {count : ℕ} (flags : ℕ)
    (hslot : Player.querySlot cfg w' p i x count = Player.querySlot cfg w p i x count)
    (hnone : w'.getInventoryItem p i = none)
    (hexchange : Player.queryAdd cfg w p i x count flags = RETURNVALUE_NEEDEXCHANGE) :
    Player.queryAdd cfg w' p i x count flags = RETURNVALUE_NOERROR ↔
      Player.querySlot cfg w p i x count = RETURNVALUE_NOERROR ∧
        Player.hasCapacity cfg w' p x count = true ∧ cfg.onPlayerEquip p (w.items x) i = true := by
  have howner : w'.isOwner (w.items x) p = w.isOwner (w.items x) p := by
    have hid := congrArg Player.id (h.player p)
    have hguid := congrArg Player.guid (h.player p)
    dsimp only at hid hguid
    rw [World.isOwner, World.isOwner, hid, hguid]
  obtain ⟨h1, h2, h3⟩ := queryAdd_of_exchange hexchange
  unfold Player.queryAdd
  dsimp only
  rw [hitem, howner, hslot, hnone, if_neg h1, if_neg h2, if_neg (not_not.2 h3), Int.toNat_natCast]
  by_cases hok : Player.querySlot cfg w p i x count = RETURNVALUE_NOERROR
  · by_cases hcapacity : Player.hasCapacity cfg w' p x count = true
    · by_cases hequip : cfg.onPlayerEquip p (w.items x) i = true
      · simp [hok, hcapacity, hequip]
      · simp [hok, hcapacity, hequip]
    · simp [hok, hcapacity]
  · refine iff_of_false ?_ fun h => hok h.1
    simp only [Option.any_none, Bool.false_eq_true, if_false]
    split_ifs
    all_goals first | exact hok | decide

end Slot

/-! ## A tile with one item less -/

/-- **What hangs on a tile** from which `y` is gone. -/
theorem queryAdd_tile_iff {supportsHangable : Bool} (flags : ℕ) (hitem : w'.items x = w.items x)
    (hbody : ∀ z, (w'.items z).body = (w.items z).body)
    (htile : w'.tiles t =
      { w.tiles t with downItems := (w.tiles t).downItems.erase y, supportsHangable })
    (hsupports : (w.tiles t).supportsHangable = true → supportsHangable = true)
    (hexchange : Tile.queryAdd cfg w t x flags = RETURNVALUE_NEEDEXCHANGE) :
    Tile.queryAdd cfg w' t x flags = RETURNVALUE_NOERROR ↔
      ∀ z ∈ (w.tiles t).downItems.erase y ++ (w.tiles t).topItems,
        ((w.items z).type cfg.types).isHangable = false := by
  unfold Tile.queryAdd at hexchange ⊢
  dsimp only at hexchange ⊢
  split_ifs at hexchange with h1 h2 h3 h4 h5 h6
  have hless : ¬ ((w.tiles t).downItems.erase y ++ (w.tiles t).topItems).length ≥ 0x3E8 := by
    have hle := List.length_erase_le (a := y) (l := (w.tiles t).downItems)
    rw [List.length_append] at h2 ⊢
    omega
  rw [if_neg h1, htile, hitem]
  dsimp only
  rw [if_neg hless, if_neg h3, if_neg h4, if_pos ⟨h5.1, hsupports h5.2⟩]
  simp only [Item.type_eq (hbody _) cfg.types]
  split_ifs with hany
  · refine iff_of_false (by decide) fun hnone => ?_
    obtain ⟨z, hz, hhangs⟩ := List.any_eq_true.1 hany
    rw [hnone z hz] at hhangs
    exact absurd hhangs (by decide)
  · refine iff_of_true rfl fun z hz => Bool.eq_false_iff.2 fun hhangs => hany ?_
    exact List.any_eq_true.2 ⟨z, hz, hhangs⟩

/-! ## The checks after the exchange -/

section Checks

variable (h : exchangedItem cfg a w = some y)
include h

/-- After an exchange the destination is asked again, and then come the last checks. -/
theorem planMove_exchange : planMove cfg a w =
    let w₁ := exchangeItem cfg a w (a.destination cfg w) y
    let count := a.moveCount cfg w (a.destination cfg w).cylinder
    let ret := queryAdd cfg w₁ (a.destination cfg w).cylinder (a.destination cfg w).index a.item count
      (a.destination cfg w).flags false
    if ret ≠ RETURNVALUE_NOERROR then .inl (w₁, ret) else checkMove cfg a w₁ (a.destination cfg w) none count := by
  unfold exchangedItem at h
  unfold planMove
  dsimp only at h ⊢
  split_ifs at h with h1 h2 h3
  obtain ⟨hto, hcheck⟩ := Option.filter_eq_some_iff.1 h
  have hcheck' : checkExchange cfg a w (a.destination cfg w) y = .exchange := by simpa using hcheck
  rw [if_neg h1, if_neg h2]
  simp only [hto, if_pos (not_not.1 h3), hcheck']

/-- After an exchange the move is planned when the destination takes the item then, and the last
checks pass. -/
theorem isRight_planMove : (planMove cfg a w).isRight ↔
      queryAdd cfg (exchangeItem cfg a w (a.destination cfg w) y) (a.destination cfg w).cylinder
          (a.destination cfg w).index a.item (a.moveCount cfg w (a.destination cfg w).cylinder)
          (a.destination cfg w).flags false = RETURNVALUE_NOERROR ∧
        (checkMove cfg a (exchangeItem cfg a w (a.destination cfg w) y) (a.destination cfg w) none
          (a.moveCount cfg w (a.destination cfg w).cylinder)).isRight := by
  rw [planMove_exchange h]
  dsimp only
  split_ifs with h4
  · exact iff_of_false Bool.false_ne_true fun h => h4 h.1
  · exact (and_iff_right (not_not.1 h4)).symm

/-- Where the room on the place that is free is no reason to stop, a move that is planned answers
that nothing is wrong. -/
theorem ret_planMove {q : MovePlan} (hq : planMove cfg a w = .inr q)
    (hroom : queryAdd cfg (exchangeItem cfg a w (a.destination cfg w) y) (a.destination cfg w).cylinder
        (a.destination cfg w).index a.item (a.moveCount cfg w (a.destination cfg w).cylinder)
        (a.destination cfg w).flags false = RETURNVALUE_NOERROR →
      (queryMaxCount cfg (exchangeItem cfg a w (a.destination cfg w) y) (a.destination cfg w).cylinder
        (a.destination cfg w).index a.item (a.moveCount cfg w (a.destination cfg w).cylinder)
        (a.destination cfg w).flags).1 = RETURNVALUE_NOERROR) : q.ret = RETURNVALUE_NOERROR := by
  rw [planMove_exchange h] at hq
  dsimp only at hq
  split_ifs at hq with hadd
  have hnoerror := hroom (not_not.1 hadd)
  unfold checkMove at hq
  dsimp only at hq
  split_ifs at hq
  · rw [← Sum.inr.inj hq]
    exact hnoerror
  · rw [← Sum.inr.inj hq]

end Checks

theorem queryAdd_of_exchangedItem (h : exchangedItem cfg a w = some y) :
    queryAdd cfg w (a.destination cfg w).cylinder (a.destination cfg w).index a.item
      (a.moveCount cfg w (a.destination cfg w).cylinder) (a.destination cfg w).flags a.actor =
        RETURNVALUE_NEEDEXCHANGE := by
  unfold exchangedItem at h
  dsimp only at h
  split_ifs at h with h1 h2 h3
  exact not_not.1 h3

/-- An item that may be moved may be moved after the exchange, when there is so much of it. -/
theorem queryRemove_iff {c : Cylinder} {flags : ℕ} (hw' : w'.WF cfg.types) (hmem : x ∈ w'.contents c)
    (hbody : (w'.items x).body = (w.items x).body)
    (h : queryRemove cfg w c x 1 flags = RETURNVALUE_NOERROR) (m : ℕ) :
    queryRemove cfg w' c x m flags = RETURNVALUE_NOERROR ↔
      m ≠ 0 ∧ ((w.items x).isStackable cfg.types = true → m ≤ (w.items x).getItemCount) := by
  have hindex := hw'.getThingIndex_ne hmem
  have hmovable : ¬ (¬ ((w.items x).type cfg.types).movable = true ∧
      ¬ hasBitSet FLAG_IGNORENOTMOVABLE flags = true) := by
    intro hnot
    unfold queryRemove at h
    dsimp only at h
    split_ifs at h
  unfold queryRemove
  dsimp only
  rw [if_neg hindex, Item.isStackable_eq hbody, Item.getItemCount_eq hbody, Item.type_eq hbody,
    if_neg hmovable]
  split_ifs with hless
  · refine iff_of_false (by decide) fun hm => hless.elim hm.1 fun hlt => ?_
    exact absurd (hm.2 hlt.1) (not_le.2 hlt.2)
  · rw [not_or] at hless
    exact iff_of_true rfl ⟨hless.1, fun hstack => not_lt.1 fun hlt => hless.2 ⟨hstack, hlt⟩⟩

/-- Above a player and above a tile there are no items. -/
theorem item_notMem_parents {c : Cylinder} (hc : ∀ n, c ≠ .item n) (z : ℕ) : .item z ∉ c :: w.parents c := by
  rw [List.mem_cons, not_or]
  refine ⟨(hc z).symm, fun hz => ?_⟩
  cases c with
  | item n => exact hc n rfl
  | player q =>
    rw [World.parents, World.parents.go, World.getParent] at hz
    cases htile : (w.players q).tile with
    | none => simp [htile] at hz
    | some u => simp [htile, World.parents.go, World.getParent] at hz
  | tile u => simp [World.parents, World.parents.go, World.getParent] at hz

/-- The last checks pass when there is room and so much of the item as is moved. -/
theorem isRight_checkMove_iff {room : ℕ} (hw' : w'.WF cfg.types) (hc : ∀ n, d.cylinder ≠ .item n)
    (hmem : a.item ∈ w'.contents a.fromCylinder) (hbody : (w'.items a.item).body = (w.items a.item).body)
    (hremove : queryRemove cfg w a.fromCylinder a.item 1 d.flags = RETURNVALUE_NOERROR)
    (hroom : queryMaxCount cfg w' d.cylinder d.index a.item (a.moveCount cfg w d.cylinder) d.flags =
      (RETURNVALUE_NOERROR, room)) :
    (checkMove cfg a w' d none (a.moveCount cfg w d.cylinder)).isRight ↔ a.Enough cfg w d room := by
  have hmoved : a.movedCount cfg w' (a.moveCount cfg w d.cylinder) room =
      a.movedCount cfg w (a.moveCount cfg w d.cylinder) room := by
    rw [MoveArgs.movedCount, MoveArgs.movedCount, Item.isStackable_eq hbody]
  have htrade : ¬ (a.tradeItem.any fun z => .item z ∈ d.cylinder :: w'.parents d.cylinder) = true := by
    cases a.tradeItem with
    | none => exact Bool.false_ne_true
    | some z => simpa using item_notMem_parents (w := w') hc z
  have hiff := queryRemove_iff hw' hmem hbody hremove (a.movedCount cfg w (a.moveCount cfg w d.cylinder) room)
  unfold checkMove MoveArgs.Enough
  dsimp only
  rw [hroom, if_neg (fun h => h.1 rfl), hmoved, if_neg htrade, ← hiff]
  by_cases hno : queryRemove cfg w' a.fromCylinder a.item
      (a.movedCount cfg w (a.moveCount cfg w d.cylinder) room) d.flags ≠ RETURNVALUE_NOERROR
  · rw [if_pos hno]
    exact iff_of_false Bool.false_ne_true hno
  · rw [if_neg hno]
    exact iff_of_true rfl (not_not.1 hno)

/-- The slot of an inventory at an index. -/
theorem getInventoryItem_eq_some {index : ℤ} (h : w.getInventoryItem p index = some y) :
    ∃ i ∈ slots, index = (i : ℤ) ∧ (w.players p).inventory i = some y := by
  unfold World.getInventoryItem at h
  split_ifs at h with hindex
  refine ⟨index.toNat, ?_, ?_, h⟩
  · rw [slots, List.mem_range'_1]
    omega
  · have hfirst : (0 : ℤ) ≤ CONST_SLOT_FIRST := Int.natCast_nonneg _
    omega

section Plain

variable (hw : w.WF cfg.types) (h : exchangedItem cfg a w = some y)
  (hplain : PlainExchange cfg a w (a.destination cfg w) y)
include hw h hplain

/-- The items after a plain exchange: the item lies in the source, and not where it was. -/
theorem mem_exchangeItem_iff (c : Cylinder) (z : ℕ) :
    z ∈ (exchangeItem cfg a w (a.destination cfg w) y).contents c ↔
      z ∈ w.contents c ∧ z ≠ y ∨ c = a.fromCylinder ∧ z = y := by
  obtain ⟨-, -, hremove, -⟩ := planMove_of_some h
  have htaken := removeThing_taken hw (of_queryRemove hremove).1 (Or.inr (Or.inl rfl))
  rw [(exchangeItem_added hplain.takes).mem, withoutExchanged, htaken.mem]

omit h in
/-- The inventory after a plain exchange: the slot is empty. -/
theorem inventory_exchangeItem (hd : (a.destination cfg w).cylinder = .player p) :
    ∃ i : ℕ, (a.destination cfg w).index = i ∧ y ∈ w.contents (.player p) ∧
      Untouched w (exchangeItem cfg a w (a.destination cfg w) y) a.fromCylinder y ∧
      ((exchangeItem cfg a w (a.destination cfg w) y).players p).inventory =
        Function.update (w.players p).inventory i none := by
  obtain ⟨i, hi, hindex, hinv⟩ := getInventoryItem_eq_some (hplain.slot p hd)
  have hyin : y ∈ w.contents (.player p) := List.mem_filterMap.2 ⟨i, hi, hinv⟩
  have hyindex := hw.getThingIndex_ne hyin
  obtain ⟨j, hj, hjindex, hjinv⟩ := World.getThingIndex_player hyindex
  obtain rfl := hw.slot_unique hj hi hjinv hinv
  have hwithout : withoutExchanged cfg w (a.destination cfg w).cylinder y =
      (w.setParent y none).setSlot p j none := by
    rw [hd, withoutExchanged_player hyindex, hjindex, Int.toNat_natCast]
  refine ⟨j, hindex, hyin, untouched_exchangeItem (hwithout ▸ untouched_setSlot _ j) hplain.takes, ?_⟩
  have hplayers : (exchangeItem cfg a w (a.destination cfg w) y).players =
      ((w.setParent y none).setSlot p j none).players := by
    rcases exchangeItem_cases hplain.takes with ⟨n, l, -, he⟩ | ⟨t, tile, -, he⟩
    · rw [he, hwithout]
      rfl
    · rw [he, hwithout]
      rfl
  rw [hplayers]
  simp [World.setSlot, World.setPlayer, World.setParent, World.setItem]

/-- An empty slot that takes the item has room for a stack of it. -/
theorem queryMaxCount_slot (hd : (a.destination cfg w).cylinder = .player p) {count : ℕ}
    (hnoerror : queryAdd cfg (exchangeItem cfg a w (a.destination cfg w) y) (a.destination cfg w).cylinder
      (a.destination cfg w).index a.item count (a.destination cfg w).flags false = RETURNVALUE_NOERROR) :
    queryMaxCount cfg (exchangeItem cfg a w (a.destination cfg w) y) (a.destination cfg w).cylinder
        (a.destination cfg w).index a.item count (a.destination cfg w).flags =
      (RETURNVALUE_NOERROR, (w.items a.item).getStackSize cfg.types) := by
  obtain ⟨hne, -, -, -⟩ := planMove_of_some h
  obtain ⟨i, hindex, -, hun, hslots⟩ := inventory_exchangeItem hw hplain hd
  have hself := hun.item a.item hne.symm hplain.self
  have hempty : (exchangeItem cfg a w (a.destination cfg w) y).getInventoryItem p i = none := by
    unfold World.getInventoryItem
    split_ifs
    · simp [hslots]
    · rfl
  have hplace : (i : ℤ) ≠ INDEX_WHEREEVER := by
    rw [INDEX_WHEREEVER]
    omega
  simp only [queryAdd, hd, hindex] at hnoerror
  rw [hd, hindex, queryMaxCount, Player.queryMaxCount, if_neg hplace, hempty]
  dsimp only
  rw [if_pos hnoerror, hself]

/-- **On a slot** the item that is moved takes the place of the other one just when it settles
there. -/
theorem isRight_planMove_slot (hd : (a.destination cfg w).cylinder = .player p) :
    (planMove cfg a w).isRight ↔ Settles cfg a w (a.destination cfg w) y := by
  obtain ⟨hne, hitem, hremove, -⟩ := planMove_of_some h
  have hexchange := queryAdd_of_exchangedItem h
  have hbody := body_exchangeItem (a := a) hw hremove
  have hwf := hw.exchangeItem (a := a) hremove
  have hmem := mem_exchangeItem_iff hw h hplain
  obtain ⟨j, hindex, hyin, hun, hslots⟩ := inventory_exchangeItem hw hplain hd
  have hnowhere : ∀ z, y ∉ w.itemlist z := fun z hz =>
    Cylinder.noConfusion (hw.unique _ _ y hyin (show y ∈ w.contents (.item z) from hz))
  have hself := hun.item a.item hne.symm hplain.self
  have hfilter : ((exchangeItem cfg a w (a.destination cfg w) y).contents (.player p)).Perm
      ((w.contents (.player p)).filter (· ≠ y)) := by
    refine (List.perm_ext_iff_of_nodup (hwf.nodup _) ((hw.nodup _).filter _)).2 fun z => ?_
    rw [hmem, or_iff_left (fun hfrom => hplain.differ (hd ▸ hfrom.1.symm)), List.mem_filter]
    simp
  have hempty : (exchangeItem cfg a w (a.destination cfg w) y).getInventoryItem p j = none := by
    unfold World.getInventoryItem
    split_ifs
    · simp [hslots]
    · rfl
  have hslot : Player.querySlot cfg (exchangeItem cfg a w (a.destination cfg w) y) p j a.item
      (a.moveCount cfg w (a.destination cfg w).cylinder) = Player.querySlot cfg w p j a.item
        (a.moveCount cfg w (a.destination cfg w).cylinder) :=
    querySlot_congr hself hbody (fun k hk => by rw [hslots, Function.update_of_ne hk]) _
  have hadd := queryAdd_slot_iff hun hself (a.destination cfg w).flags hslot hempty
    (by simpa only [queryAdd, hd, hindex] using hexchange)
  have hcarries := hasCapacity_iff cfg hun hbody hself hne.symm hplain.above hnowhere
    hfilter (hplain.carried p hd) (a.moveCount cfg w (a.destination cfg w).cylinder)
  have hsettles : Settles cfg a w (a.destination cfg w) y ↔
      Player.querySlot cfg w p j a.item (a.moveCount cfg w (a.destination cfg w).cylinder) =
          RETURNVALUE_NOERROR ∧
        CarriesFor cfg w p a.item (a.moveCount cfg w (a.destination cfg w).cylinder) y ∧
        cfg.onPlayerEquip p (w.items a.item) j = true ∧
        a.Enough cfg w (a.destination cfg w) ((w.items a.item).getStackSize cfg.types) := by
    simp only [Settles, hd, hindex, Int.toNat_natCast]
  have hok : queryAdd cfg (exchangeItem cfg a w (a.destination cfg w) y) (a.destination cfg w).cylinder
      (a.destination cfg w).index a.item (a.moveCount cfg w (a.destination cfg w).cylinder)
      (a.destination cfg w).flags false = Player.queryAdd cfg (exchangeItem cfg a w (a.destination cfg w) y) p j
        a.item (a.moveCount cfg w (a.destination cfg w).cylinder) (a.destination cfg w).flags := by
    simp only [queryAdd, hd, hindex]
  have hroom := fun hnoerror => isRight_checkMove_iff hwf (by simp [hd])
    ((hmem _ _).2 (Or.inl ⟨World.mem_contents_of_getThingIndex (of_queryRemove hitem).1, hne.symm⟩))
    (hbody a.item) hitem (queryMaxCount_slot hw h hplain hd hnoerror)
  rw [hok] at hroom
  rw [isRight_planMove h, hsettles, hok]
  constructor
  · rintro ⟨hnoerror, hcheck⟩
    obtain ⟨hfits, hcapacity, hequip⟩ := hadd.1 hnoerror
    exact ⟨hfits, hcarries.1 hcapacity, hequip, (hroom hnoerror).1 hcheck⟩
  · rintro ⟨hfits, hcapacity, hequip, henough⟩
    have hnoerror := hadd.2 ⟨hfits, hcarries.2 hcapacity, hequip⟩
    exact ⟨hnoerror, (hroom hnoerror).2 henough⟩

/-- **On a tile** the item that is moved hangs in the place of the other one just when no third one
does. -/
theorem isRight_planMove_tile (hd : (a.destination cfg w).cylinder = .tile t) :
    (planMove cfg a w).isRight ↔ Settles cfg a w (a.destination cfg w) y := by
  obtain ⟨hne, hitem, hremove, -⟩ := planMove_of_some h
  have hexchange := queryAdd_of_exchangedItem h
  have hbody := body_exchangeItem (a := a) hw hremove
  have hwf := hw.exchangeItem (a := a) hremove
  have hmem := mem_exchangeItem_iff hw h hplain
  have hdown : y ∈ (w.tiles t).downItems :=
    List.mem_of_mem_head? ((destination_tile hd).symm.trans (destItem_of_exchangedItem h))
  obtain ⟨supportsHangable, hsupports, hwithout⟩ := withoutExchanged_tile hw hdown
  have hun : Untouched w (exchangeItem cfg a w (a.destination cfg w) y) a.fromCylinder y :=
    untouched_exchangeItem (by rw [hd, hwithout]; exact untouched_setTile _ _) hplain.takes
  have htile : (exchangeItem cfg a w (a.destination cfg w) y).tiles t =
      { w.tiles t with downItems := (w.tiles t).downItems.erase y, supportsHangable } := by
    rcases exchangeItem_cases hplain.takes with ⟨n, l, -, he⟩ | ⟨u, tile, hfrom, he⟩
    · rw [he, hd, hwithout]
      simp [World.setItemlist, World.setTile, World.setParent, World.setItem]
    · have hut : t ≠ u := fun e => hplain.differ (hfrom.trans (e ▸ hd.symm))
      rw [he, hd, hwithout]
      simp [World.setTile, World.setParent, World.setItem, hut]
  have hself := hun.item a.item hne.symm hplain.self
  have hadd := queryAdd_tile_iff (a.destination cfg w).flags hself hbody htile hsupports
    (by simpa only [queryAdd, hd] using hexchange)
  have hothers : (∀ z ∈ (w.tiles t).downItems.erase y ++ (w.tiles t).topItems,
        ((w.items z).type cfg.types).isHangable = false) ↔
      ∀ z ∈ (w.tiles t).downItems ++ (w.tiles t).topItems, z ≠ y →
        ((w.items z).type cfg.types).isHangable = false := by
    have hnodup : (w.tiles t).downItems.Nodup := (hw.nodup (.tile t)).of_append_right
    refine forall_congr' fun z => ?_
    rw [List.mem_append, List.mem_append, hnodup.mem_erase_iff]
    constructor
    · exact fun hz hin hzy => hz (hin.imp_left fun hin => ⟨hzy, hin⟩)
    · rintro hz (⟨hzy, hin⟩ | hin)
      · exact hz (Or.inl hin) hzy
      · refine hz (Or.inr hin) fun hzy => ?_
        exact hw.top t z hin (hzy ▸ hw.down t y hdown)
  have hroom : (checkMove cfg a (exchangeItem cfg a w (a.destination cfg w) y) (a.destination cfg w) none
      (a.moveCount cfg w (a.destination cfg w).cylinder)).isRight ↔
        a.Enough cfg w (a.destination cfg w) (max 1 (a.moveCount cfg w (a.destination cfg w).cylinder)) := by
    refine isRight_checkMove_iff hwf (by simp [hd])
      ((hmem _ _).2 (Or.inl ⟨?_, hne.symm⟩)) (hbody a.item) hitem ?_
    · exact World.mem_contents_of_getThingIndex (of_queryRemove hitem).1
    · rw [hd]
      rfl
  have hsettles : Settles cfg a w (a.destination cfg w) y ↔
      (∀ z ∈ (w.tiles t).downItems ++ (w.tiles t).topItems, z ≠ y →
          ((w.items z).type cfg.types).isHangable = false) ∧
        a.Enough cfg w (a.destination cfg w) (max 1 (a.moveCount cfg w (a.destination cfg w).cylinder)) := by
    simp only [Settles, hd]
  have hok : queryAdd cfg (exchangeItem cfg a w (a.destination cfg w) y) (a.destination cfg w).cylinder
      (a.destination cfg w).index a.item (a.moveCount cfg w (a.destination cfg w).cylinder)
      (a.destination cfg w).flags false = Tile.queryAdd cfg (exchangeItem cfg a w (a.destination cfg w) y) t
        a.item (a.destination cfg w).flags := by
    simp only [queryAdd, hd]
  rw [isRight_planMove h, hsettles, hok, hadd, hothers, hroom]

/-- **After a plain exchange** the checks pass just when the item settles on the place that is
free. -/
theorem isRight_planMove_iff :
    (planMove cfg a w).isRight ↔ Settles cfg a w (a.destination cfg w) y := by
  cases hd : (a.destination cfg w).cylinder with
  | item n =>
    have hexchange := queryAdd_of_exchangedItem h
    rw [hd] at hexchange
    exact absurd hexchange (queryAdd_item_ne_exchange _ _ _ _ _ _)
  | player p => exact isRight_planMove_slot hw h hplain hd
  | tile t => exact isRight_planMove_tile hw h hplain hd

/-- A move that is planned after a plain exchange answers that nothing is wrong. -/
theorem ret_of_plain {q : MovePlan} (hq : planMove cfg a w = .inr q) : q.ret = RETURNVALUE_NOERROR := by
  refine ret_planMove h hq fun hnoerror => ?_
  cases hd : (a.destination cfg w).cylinder with
  | item n =>
    have hexchange := queryAdd_of_exchangedItem h
    rw [hd] at hexchange
    exact absurd hexchange (queryAdd_item_ne_exchange _ _ _ _ _ _)
  | player p => rw [← hd, queryMaxCount_slot hw h hplain hd hnoerror]
  | tile t => rfl

end Plain

/-- A move to a tile that is planned after an exchange answers that nothing is wrong. -/
theorem ret_of_tile {q : MovePlan} (h : exchangedItem cfg a w = some y)
    (hd : (a.destination cfg w).cylinder = .tile t) (hq : planMove cfg a w = .inr q) :
    q.ret = RETURNVALUE_NOERROR :=
  ret_planMove h hq fun _ => by rw [hd]; rfl

end TiabloServer.Items
