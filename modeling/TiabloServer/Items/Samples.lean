import TiabloServer.Items.Effects

/-!
# Small worlds

Worlds of a few items, on which single moves and additions are run, and a way to see that such a
world is well-formed.

## Main definitions

* `Items.plainType`, `Items.stackType`, `Items.bagType` — item types with no peculiarities.
* `Items.listWorld` — the world of a list of items.

## Main results

* `Items.World.WF.of_listed`, `Items.listWorld_wf` — a world is well-formed when the contents of
  finitely many cylinders are.
-/

namespace TiabloServer.Items

/-! ## Item types -/

/-- A type of items that can be picked up and moved, and no more. -/
def plainType : ItemType where
  group := .ITEM_GROUP_NONE
  type := .ITEM_TYPE_NONE
  weaponType := .WEAPON_NONE
  slotPosition := 0
  stackable := false
  stackSize := 1
  charges := 0
  decayTime := 0
  weight := 0
  maxItems := 0
  pickupable := true
  movable := true
  blockSolid := false
  hasHeight := false
  alwaysOnTopOrder := 0
  isHangable := false
  supportHangable := false
  replaceable := true
  wareId := 0
  stackable_group _ := rfl
  stackable_type _ := nofun

/-- A type of stacks of at most 100 items. -/
def stackType : ItemType where
  __ := plainType
  stackable := true
  stackSize := 100
  stackable_group _ := rfl
  stackable_type _ := nofun

/-- A type of containers. -/
def bagType : ItemType where
  __ := plainType
  group := .ITEM_GROUP_CONTAINER
  stackable_group := nofun

/-! ## Worlds -/

/-- An item that lies in `parent`. -/
def plainItem (id : ℕ) (count : UInt8) (parent : Option Cylinder) : Item where
  id
  count
  attributes := []
  parent
  container := none

/-- A container that lies in `parent`. -/
def bagItem (id maxSize : ℕ) (pagination : Bool) (itemlist : List ℕ) (parent : Option Cylinder) :
    Item where
  id
  count := 1
  attributes := []
  parent
  container := some ⟨.container, maxSize, 1500, true, pagination, itemlist⟩

/-- A player who carries nothing. -/
def barePlayer : Player where
  id := 1
  guid := 1
  cannotPickupItem := false
  hasInfiniteCapacity := false
  capacity := 0
  inventory _ := none
  tile := none
  tradeItem := none

/-- A tile with nothing on it. -/
def bareTile : Tile where
  ground := none
  downItems := []
  topItems := []
  creatures := []
  supportsHangable := false
  floorChange := none

/-- The world of a list of items. -/
def listWorld (l : List Item) (players : ℕ → Player) (tiles : ℕ → Tile) : World where
  items n := l.getD n (plainItem 0 1 none)
  size := l.length
  players
  tiles

/-- A configuration with no limits and no move events. -/
def plainConfig (types : ItemTypes) : Config where
  types
  allowPutItemsOnAmmoSlot := false
  maxContainer := 500
  onPlayerEquip _ _ _ := true

variable {types : ItemTypes} {w : World}

/-- **A world is well-formed** when the contents of the cylinders `cs` are without repetition, all
other cylinders are empty, and its tiles and its items are well-formed. -/
theorem World.WF.of_listed (cs : List Cylinder) (hother : ∀ c, c ∉ cs → w.contents c = []) (hnodup : (cs.flatMap w.contents).Nodup)
    (hlive : ∀ x ∈ cs.flatMap w.contents, x < w.size) (hfresh : ∀ n, w.size ≤ n → (w.items n).container = none)
    (hstack : ∀ x, (w.items x).isStackable types → (w.items x).container = none)
    (htop : ∀ t, ∀ x ∈ (w.tiles t).topItems, ((w.items x).type types).alwaysOnTopOrder ≠ 0)
    (hdown : ∀ t, ∀ x ∈ (w.tiles t).downItems, ((w.items x).type types).alwaysOnTopOrder = 0) : w.WF types := by
  have hmem : ∀ {c x}, x ∈ w.contents c → c ∈ cs := by
    intro c x hx
    by_contra hc
    simp [hother c hc] at hx
  have hnodup' := List.nodup_flatMap.1 hnodup
  refine ⟨fun c => ?_, fun c d x hc hd => ?_, fun c x hx => ?_, hfresh, hstack, htop, hdown⟩
  · by_cases hc : c ∈ cs
    · exact hnodup'.1 c hc
    · simp [hother c hc]
  · by_contra hne
    have hsymm : Std.Symm (Function.onFun List.Disjoint w.contents) :=
      ⟨fun _ _ h => List.disjoint_symm h⟩
    exact (hnodup'.2.forall (hmem hc) (hmem hd) hne) hc hd
  · exact hlive x (List.mem_flatMap.2 ⟨c, hmem hx, hx⟩)

/-- **The world of a list of items is well-formed** when the contents of the cylinders `cs` are
without repetition and all other cylinders are empty. -/
theorem listWorld_wf (cs : List Cylinder) {l : List Item} {players : ℕ → Player} {tiles : ℕ → Tile}
    (hitems : ∀ n < l.length, .item n ∉ cs → (listWorld l players tiles).itemlist n = [])
    (hplayers : ∀ p, .player p ∉ cs → (listWorld l players tiles).contents (.player p) = [])
    (htiles : ∀ t, .tile t ∉ cs → (listWorld l players tiles).contents (.tile t) = [])
    (hnodup : (cs.flatMap (listWorld l players tiles).contents).Nodup)
    (hlive : ∀ x ∈ cs.flatMap (listWorld l players tiles).contents, x < l.length)
    (hstack : ∀ n < l.length, ((listWorld l players tiles).items n).isStackable types →
      ((listWorld l players tiles).items n).container = none) (htop : ∀ t, ∀ x ∈ (tiles t).topItems,
      (((listWorld l players tiles).items x).type types).alwaysOnTopOrder ≠ 0)
    (hdown : ∀ t, ∀ x ∈ (tiles t).downItems,
      (((listWorld l players tiles).items x).type types).alwaysOnTopOrder = 0) :
    (listWorld l players tiles).WF types := by
  have hbeyond : ∀ n, l.length ≤ n → ((listWorld l players tiles).items n).container = none := by
    intro n hn
    simp [listWorld, hn, plainItem]
  refine .of_listed cs (fun c hc => ?_) hnodup hlive hbeyond (fun x hx => ?_) htop hdown
  · cases c with
    | item n =>
      rcases lt_or_ge n l.length with hn | hn
      · exact hitems n hn hc
      · simp [World.contents, World.itemlist, hbeyond n hn]
    | player p => exact hplayers p hc
    | tile t => exact htiles t hc
  · rcases lt_or_ge x l.length with hn | hn
    · exact hstack x hn hx
    · exact hbeyond x hn

end TiabloServer.Items
