import TiabloServer.Items.Things

/-!
# Effects of the changes on the contents

What `addThing`, `updateThing` and `removeThing` do to the contents of all cylinders and to the
fields of all items.

## Main definitions

* `Items.Taken`, `Items.Recounted`, `Items.Added`, `Items.Spoiled` — the effects of the changes.
* `Items.Accepts` — whether `addThing` puts an item in without replacing another.

## Main results

* `Items.removeThing_taken`, `Items.removeThing_recounted` — the effect of `removeThing`.
* `Items.addThing_added`, `Items.addThing_spoiled` — `addThing` puts an item in that the cylinder
  accepts, and drops any other item or loses another one for it.
-/

namespace TiabloServer.Items

/-! ## Contents after updates -/

/-- The fields of an item that are its own: not where it lies, nor what lies in it. -/
def Item.body (i : Item) : ℕ × UInt8 × List (AttributeType × AttributeValue) × Bool :=
  (i.id, i.count, i.attributes, i.container.isSome)

namespace World

variable (w : World)

@[simp] theorem contents_setItem_of_container {x : ℕ} {i : Item}
    (h : i.container = (w.items x).container) (d : Cylinder) : (w.setItem x i).contents d = w.contents d := by
  cases d with
  | item n =>
    by_cases hn : n = x
    · subst hn
      simp [contents, itemlist, setItem, h]
    · simp [contents, itemlist, setItem, Function.update_of_ne hn]
  | player p => rfl
  | tile t => rfl

@[simp] theorem contents_setParent (x : ℕ) (c : Option Cylinder) (d : Cylinder) :
    (w.setParent x c).contents d = w.contents d :=
  contents_setItem_of_container w (i := { w.items x with parent := c }) rfl d

theorem contents_setItemlist {n : ℕ} (h : (w.items n).container.isSome) (l : List ℕ)
    (d : Cylinder) :
    (w.setItemlist n l).contents d = if d = .item n then l else w.contents d := by
  obtain ⟨k, hk⟩ := Option.isSome_iff_exists.1 h
  cases d with
  | item m =>
    by_cases hm : m = n
    · subst hm
      simp [contents, itemlist, setItemlist, setItem, hk]
    · simp [contents, itemlist, setItemlist, setItem, hm]
  | player p => rfl
  | tile t => rfl

theorem contents_setTile (t : ℕ) (tile : Tile) (d : Cylinder) :
    (w.setTile t tile).contents d =
      if d = .tile t then tile.ground.toList ++ tile.topItems ++ tile.downItems
      else w.contents d := by
  cases d with
  | item n => rfl
  | player p => rfl
  | tile u =>
    by_cases hu : u = t
    · subst hu
      simp [contents, setTile]
    · simp [contents, setTile, hu]

theorem mem_contents_tile {t x : ℕ} : x ∈ w.contents (.tile t) ↔
    (w.tiles t).ground = some x ∨ x ∈ (w.tiles t).topItems ∨ x ∈ (w.tiles t).downItems := by
  simp [contents]

theorem mem_contents_player {p x : ℕ} : x ∈ w.contents (.player p) ↔
    ∃ i ∈ slots, (w.players p).inventory i = some x := List.mem_filterMap

theorem contents_setSlot_of_ne {p : ℕ} {d : Cylinder} (h : d ≠ .player p) (slot : ℕ)
    (x : Option ℕ) : (w.setSlot p slot x).contents d = w.contents d := by
  cases d with
  | item n => rfl
  | player q =>
    have hq : q ≠ p := fun e => h (e ▸ rfl)
    simp [contents, setSlot, setPlayer, Function.update_of_ne hq]
  | tile t => rfl

theorem contents_create {i : Item} (h : i.container = none) (d : Cylinder) :
    (w.create i).contents d = if d = .item w.size then [] else w.contents d := by
  cases d with
  | item n =>
    by_cases hn : n = w.size
    · subst hn
      simp [contents, itemlist, create, h]
    · simp [contents, itemlist, create, hn]
  | player p => rfl
  | tile t => rfl

@[simp] theorem body_setParent (x : ℕ) (c : Option Cylinder) (y : ℕ) :
    ((w.setParent x c).items y).body = (w.items y).body := by
  by_cases hy : y = x
  · subst hy
    simp [setParent, setItem, Item.body]
  · simp [setParent, setItem, Function.update_of_ne hy]

@[simp] theorem body_setItemlist (n : ℕ) (l : List ℕ) (y : ℕ) :
    ((w.setItemlist n l).items y).body = (w.items y).body := by
  by_cases hy : y = n
  · subst hy
    simp [setItemlist, setItem, Item.body]
  · simp [setItemlist, setItem, Function.update_of_ne hy]

@[simp] theorem items_setSlot (p slot : ℕ) (x : Option ℕ) : (w.setSlot p slot x).items = w.items :=
  rfl

@[simp] theorem items_setTile (t : ℕ) (tile : Tile) : (w.setTile t tile).items = w.items := rfl

@[simp] theorem size_setItem (x : ℕ) (i : Item) : (w.setItem x i).size = w.size := rfl

@[simp] theorem size_setParent (x : ℕ) (c : Option Cylinder) : (w.setParent x c).size = w.size := rfl

@[simp] theorem size_setItemlist (n : ℕ) (l : List ℕ) : (w.setItemlist n l).size = w.size := rfl

@[simp] theorem size_setSlot (p slot : ℕ) (x : Option ℕ) : (w.setSlot p slot x).size = w.size := rfl

@[simp] theorem size_setTile (t : ℕ) (tile : Tile) : (w.setTile t tile).size = w.size := rfl

@[simp] theorem tiles_setParent (x : ℕ) (c : Option Cylinder) : (w.setParent x c).tiles = w.tiles := rfl

@[simp] theorem tiles_setItemlist (n : ℕ) (l : List ℕ) : (w.setItemlist n l).tiles = w.tiles := rfl

@[simp] theorem tiles_setSlot (p slot : ℕ) (x : Option ℕ) : (w.setSlot p slot x).tiles = w.tiles :=
  rfl

@[simp] theorem players_setParent (x : ℕ) (c : Option Cylinder) : (w.setParent x c).players = w.players := rfl

end World

/-- What an item is, by its body. -/
theorem Item.body_eq {i j : Item} (h : i.body = j.body) :
    i.id = j.id ∧ i.count = j.count ∧ i.attributes = j.attributes ∧ i.container.isSome = j.container.isSome := by
  simpa [Item.body] using h

/-- Items with one body have one type. -/
theorem Item.type_eq {i j : Item} (h : i.body = j.body) (types : ItemTypes) : i.type types = j.type types := by
  simp [Item.type, (Item.body_eq h).1]

theorem Item.isStackable_eq {i j : Item} (h : i.body = j.body) (types : ItemTypes) :
    i.isStackable types = j.isStackable types := by
  simp [Item.isStackable, Item.type_eq h types]

theorem Item.getItemCount_eq {i j : Item} (h : i.body = j.body) : i.getItemCount = j.getItemCount := by
  simp [Item.getItemCount, (Item.body_eq h).2.1]

/-- Items with one body are containers or not together. -/
theorem Item.container_eq_none {i j : Item} (h : i.body = j.body) (hj : j.container = none) :
    i.container = none := by
  simpa [hj] using (Item.body_eq h).2.2.2

@[simp] theorem World.type_setParent (w : World) (x : ℕ) (c : Option Cylinder) (y : ℕ)
    (types : ItemTypes) : ((w.setParent x c).items y).type types = (w.items y).type types :=
  Item.type_eq (w.body_setParent x c y) types

/-! ## Well-formed worlds -/

variable {types : ItemTypes} {w w' : World}

/-- Every item lies in one cylinder at most, and once there, and what lies somewhere is on the heap;
no container is beyond the heap or stacks; the two parts of a tile's stack hold items of their
kind. -/
structure World.WF (types : ItemTypes) (w : World) : Prop where
  nodup : ∀ c, (w.contents c).Nodup
  unique : ∀ c d x, x ∈ w.contents c → x ∈ w.contents d → c = d
  live : ∀ c x, x ∈ w.contents c → x < w.size
  fresh : ∀ n, w.size ≤ n → (w.items n).container = none
  stack : ∀ x, (w.items x).isStackable types → (w.items x).container = none
  top : ∀ t, ∀ x ∈ (w.tiles t).topItems, ((w.items x).type types).alwaysOnTopOrder ≠ 0
  down : ∀ t, ∀ x ∈ (w.tiles t).downItems, ((w.items x).type types).alwaysOnTopOrder = 0

/-- An item on a slot of an inventory is on no other slot. -/
theorem World.WF.slot_unique (hw : w.WF types) {p i j x : ℕ} (hi : i ∈ slots) (hj : j ∈ slots)
    (hxi : (w.players p).inventory i = some x) (hxj : (w.players p).inventory j = some x) : i = j := by
  have hnd := hw.nodup (.player p)
  rw [World.contents, List.Nodup, List.pairwise_filterMap] at hnd
  by_contra hne
  have hsymm : Std.Symm fun a a' => ∀ b, (w.players p).inventory a = some b →
      ∀ b', (w.players p).inventory a' = some b' → b ≠ b' :=
    ⟨fun a a' h b hb b' hb' e => h b' hb' b hb e.symm⟩
  exact hnd.forall hi hj hne x hxi x hxj rfl

/-! ## Taking away -/

theorem toIndex_ne {i : Option ℕ} (h : World.toIndex i ≠ -1) : ∃ n, i = some n := by
  cases i with
  | none => exact absurd rfl h
  | some n => exact ⟨n, rfl⟩

/-- The slot that `getThingIndex` finds. -/
theorem World.getThingIndex_player {p x : ℕ} (h : w.getThingIndex types (.player p) x ≠ -1) :
    ∃ i ∈ slots, w.getThingIndex types (.player p) x = i ∧ (w.players p).inventory i = some x := by
  obtain ⟨i, hi⟩ := toIndex_ne h
  exact ⟨i, List.mem_of_find?_eq_some hi, by simp [World.getThingIndex, hi, World.toIndex],
    by simpa using List.find?_some hi⟩

/-- An item that has an index in a cylinder lies in it. -/
theorem World.mem_contents_of_getThingIndex {c : Cylinder} {x : ℕ}
    (h : w.getThingIndex types c x ≠ -1) : x ∈ w.contents c := by
  cases c with
  | item n =>
    obtain ⟨i, hi⟩ := toIndex_ne h
    by_contra hx
    have hx' : x ∉ w.itemlist n := hx
    simp [List.idxOf?_eq_none_iff.2 hx'] at hi
  | player p =>
    obtain ⟨i, hi, -, hx⟩ := getThingIndex_player h
    exact List.mem_filterMap.2 ⟨i, hi, hx⟩
  | tile t =>
    rw [mem_contents_tile]
    simp only [World.getThingIndex] at h
    by_cases hground : (w.tiles t).ground = some x
    · exact Or.inl hground
    rw [if_neg hground] at h
    by_cases htop : ((w.items x).type types).alwaysOnTopOrder ≠ 0
    · rw [if_pos htop] at h
      obtain ⟨i, hi⟩ := toIndex_ne h
      by_contra hx
      simp [List.idxOf?_eq_none_iff.2 (not_or.1 (not_or.1 hx).2).1] at hi
    · rw [if_neg htop] at h
      obtain ⟨i, hi⟩ := toIndex_ne h
      by_contra hx
      simp [List.idxOf?_eq_none_iff.2 (not_or.1 (not_or.1 hx).2).2] at hi

/-- The item `x` is taken away, and that is all. -/
structure Taken (w w' : World) (x : ℕ) : Prop where
  mem : ∀ d y, y ∈ w'.contents d ↔ y ∈ w.contents d ∧ y ≠ x
  nodup : ∀ d, (w.contents d).Nodup → (w'.contents d).Nodup
  body : ∀ y, (w'.items y).body = (w.items y).body
  size : w'.size = w.size
  top : ∀ t, (w'.tiles t).topItems ⊆ (w.tiles t).topItems
  down : ∀ t, (w'.tiles t).downItems ⊆ (w.tiles t).downItems

/-- An item is taken away by leaving it out of the contents of its one cylinder. -/
theorem World.WF.taken (hw : w.WF types) {c : Cylinder} {x : ℕ} (hx : x ∈ w.contents c)
    {l : List ℕ} (hnd : l.Nodup) (hl : ∀ y, y ∈ l ↔ y ∈ w.contents c ∧ y ≠ x)
    (hc : ∀ d, w'.contents d = if d = c then l else w.contents d)
    (body : ∀ y, (w'.items y).body = (w.items y).body) (size : w'.size = w.size)
    (top : ∀ t, (w'.tiles t).topItems ⊆ (w.tiles t).topItems)
    (down : ∀ t, (w'.tiles t).downItems ⊆ (w.tiles t).downItems) : Taken w w' x := by
  refine ⟨fun d y => ?_, fun d hd => ?_, body, size, top, down⟩
  · rw [hc]
    by_cases hdc : d = c
    · subst hdc
      rw [if_pos rfl, hl]
    · rw [if_neg hdc]
      refine ⟨fun hy => ⟨hy, ?_⟩, fun hy => hy.1⟩
      rintro rfl
      exact hdc (hw.unique d c y hy hx)
  · rw [hc]
    split_ifs with hdc
    · exact hnd
    · exact hd

/-- Worlds stay well-formed when an item is taken away. -/
theorem World.WF.of_taken (hw : w.WF types) {x : ℕ} (h : Taken w w' x) : w'.WF types where
  nodup c := h.nodup c (hw.nodup c)
  unique c d y hc hd := hw.unique c d y ((h.mem c y).1 hc).1 ((h.mem d y).1 hd).1
  live c y hy := h.size ▸ hw.live c y ((h.mem c y).1 hy).1
  fresh n hn := Item.container_eq_none (h.body n) (hw.fresh n (h.size ▸ hn))
  stack y hy := Item.container_eq_none (h.body y)
    (hw.stack y (by rwa [← Item.isStackable_eq (h.body y)]))
  top t y hy := by
    rw [Item.type_eq (h.body y)]
    exact hw.top t y (h.top t hy)
  down t y hy := by
    rw [Item.type_eq (h.body y)]
    exact hw.down t y (h.down t hy)

/-- The items that `Tile::removeThing` takes away as a whole, however many are asked for: the ground
and the items on top. -/
def TakesAll (types : ItemTypes) (w : World) (c : Cylinder) (x : ℕ) : Prop :=
  match c with
  | .tile t => (w.tiles t).ground = some x ∨ ((w.items x).type types).alwaysOnTopOrder ≠ 0
  | _ => False

theorem removeThing_item_taken (hw : w.WF types) {n x k : ℕ} (hx : w.getThingIndex types (.item n) x ≠ -1)
    (hk : (w.items x).isStackable types = false ∨ k = (w.items x).getItemCount) :
    Taken w (removeThing types w (.item n) x k) x := by
  have hmem := World.mem_contents_of_getThingIndex hx
  have hnd : (w.itemlist n).Nodup := hw.nodup (.item n)
  have hpart : ¬ ((w.items x).isStackable types = true ∧ k ≠ (w.items x).getItemCount) := by
    rcases hk with h | h <;> simp [h]
  have hcont : (w.items n).container.isSome := by
    by_contra hnone
    have hnone' : (w.items n).container = none := by simpa using hnone
    simp [World.contents, World.itemlist, hnone'] at hmem
  have hcont' : ((w.setParent x none).items n).container.isSome := by
    rwa [(Item.body_eq (w.body_setParent x none n)).2.2.2]
  simp only [removeThing, if_neg hx, if_neg hpart]
  refine hw.taken hmem (hnd.erase x) (fun y => ?_) (fun d => ?_) (by simp) rfl
    (fun t => List.Subset.refl _) (fun t => List.Subset.refl _)
  · rw [hnd.mem_erase_iff]
    exact and_comm
  · rw [World.contents_setItemlist _ hcont', World.contents_setParent]

/-- An item is taken from an inventory by emptying its slot. -/
theorem setSlot_taken (hw : w.WF types) {p i x : ℕ} (hi : i ∈ slots) (hxi : (w.players p).inventory i = some x) :
    Taken w ((w.setParent x none).setSlot p i none) x := by
  have hnd := hw.nodup (.player p)
  refine hw.taken (c := .player p) (w.mem_contents_player.2 ⟨i, hi, hxi⟩)
    (l := slots.filterMap (Function.update (w.players p).inventory i none)) ?_ (fun y => ?_)
    (fun d => ?_) (by simp) rfl (fun t => List.Subset.refl _) (fun t => List.Subset.refl _)
  · rw [World.contents, List.Nodup, List.pairwise_filterMap] at hnd
    rw [List.Nodup, List.pairwise_filterMap]
    refine hnd.imp fun {a b} hab y hy z hz => ?_
    have hne : ∀ {j u}, Function.update (w.players p).inventory i none j = some u →
        (w.players p).inventory j = some u := by
      intro j u hu
      rcases eq_or_ne j i with rfl | hji
      · simp at hu
      · rwa [Function.update_of_ne hji] at hu
    exact hab y (hne hy) z (hne hz)
  · rw [List.mem_filterMap, World.mem_contents_player]
    constructor
    · rintro ⟨j, hj, hy⟩
      rcases eq_or_ne j i with rfl | hji
      · simp at hy
      · rw [Function.update_of_ne hji] at hy
        refine ⟨⟨j, hj, hy⟩, ?_⟩
        rintro rfl
        exact hji (hw.slot_unique hj hi hy hxi)
    · rintro ⟨⟨j, hj, hy⟩, hne⟩
      refine ⟨j, hj, ?_⟩
      rw [Function.update_of_ne]
      · exact hy
      · rintro rfl
        exact hne (Option.some.inj (hy.symm.trans hxi))
  · by_cases hd : d = .player p
    · subst hd
      simp [World.contents, World.setSlot, World.setPlayer]
    · rw [World.contents_setSlot_of_ne _ hd, World.contents_setParent, if_neg hd]

theorem removeThing_player_taken (hw : w.WF types) {p x k : ℕ} (hx : w.getThingIndex types (.player p) x ≠ -1)
    (hk : (w.items x).isStackable types = false ∨ k = (w.items x).getItemCount) :
    Taken w (removeThing types w (.player p) x k) x := by
  have hpart : ¬ ((w.items x).isStackable types = true ∧ k ≠ (w.items x).getItemCount) := by
    rcases hk with h | h <;> simp [h]
  obtain ⟨i, hi, hindex, hxi⟩ := World.getThingIndex_player hx
  rw [hindex] at hx
  simp only [removeThing, hindex, if_neg hx, if_neg hpart, Int.toNat_natCast]
  exact setSlot_taken hw hi hxi

/-- Whatever lies on a tile lies in one part of it. -/
theorem World.WF.tile_disjoint (hw : w.WF types) {t x : ℕ} :
    ((w.tiles t).ground = some x → x ∉ (w.tiles t).topItems ∧ x ∉ (w.tiles t).downItems) ∧
      (x ∈ (w.tiles t).topItems → x ∉ (w.tiles t).downItems) := by
  have hnd := hw.nodup (.tile t)
  simp only [World.contents, List.nodup_append, List.mem_append, Option.mem_toList] at hnd
  refine ⟨fun hg => ⟨fun hx => ?_, fun hx => ?_⟩, fun ht hx => ?_⟩
  · exact hnd.1.2.2 x hg x hx rfl
  · exact hnd.2.2 x (Or.inl hg) x hx rfl
  · exact hnd.2.2 x (Or.inr ht) x hx rfl

/-- An item is taken from a tile by leaving it out of its part of the stack. -/
theorem World.WF.taken_setTile (hw : w.WF types) {t x : ℕ} (hx : x ∈ w.contents (.tile t))
    {tile : Tile} (hnd : (tile.ground.toList ++ tile.topItems ++ tile.downItems).Nodup)
    (hmem : ∀ y, (tile.ground = some y ∨ y ∈ tile.topItems ∨ y ∈ tile.downItems) ↔ y ∈ w.contents (.tile t) ∧ y ≠ x)
    (htop : tile.topItems ⊆ (w.tiles t).topItems) (hdown : tile.downItems ⊆ (w.tiles t).downItems) :
    Taken w ((w.setParent x none).setTile t tile) x := by
  refine hw.taken hx hnd (fun y => ?_)
    (fun d => by rw [World.contents_setTile, World.contents_setParent]) (by simp) rfl
    (fun u => ?_) (fun u => ?_)
  · rw [← hmem]
    simp
  · rcases eq_or_ne u t with rfl | hu
    · simpa [World.setTile] using htop
    · simp [World.setTile, Function.update_of_ne hu]
  · rcases eq_or_ne u t with rfl | hu
    · simpa [World.setTile] using hdown
    · simp [World.setTile, Function.update_of_ne hu]

theorem removeThing_tile_taken (hw : w.WF types) {t x k : ℕ} (hx : w.getThingIndex types (.tile t) x ≠ -1)
    (hk : (w.items x).isStackable types = false ∨ k = (w.items x).getItemCount ∨
      TakesAll types w (.tile t) x) : Taken w (removeThing types w (.tile t) x k) x := by
  have hmem := World.mem_contents_of_getThingIndex hx
  have hmem' := w.mem_contents_tile.1 hmem
  have hnd := hw.nodup (.tile t)
  have hnd' := hnd
  simp only [World.contents, List.nodup_append, List.mem_append, Option.mem_toList] at hnd'
  obtain ⟨⟨hng, hnt, hgt⟩, hndown, hgd⟩ := hnd'
  simp only [removeThing, Tile.removeThing, if_neg hx]
  by_cases hground : (w.tiles t).ground = some x
  · obtain ⟨hntop, hndn⟩ := hw.tile_disjoint.1 hground
    rw [if_pos hground]
    refine hw.taken_setTile hmem ?_ (fun y => ?_) (List.Subset.refl _) (List.Subset.refl _)
    · simp only [World.contents, hground, Option.toList_some,
        List.cons_append] at hnd
      simpa using hnd.of_cons
    · rw [World.mem_contents_tile, hground]
      constructor
      · rintro (h | h | h)
        · exact absurd h (by simp)
        · exact ⟨Or.inr (Or.inl h), fun e => hntop (e ▸ h)⟩
        · exact ⟨Or.inr (Or.inr h), fun e => hndn (e ▸ h)⟩
      · rintro ⟨h | h, hne⟩
        · exact absurd (Option.some.inj h).symm hne
        · exact Or.inr h
  rw [if_neg hground]
  unfold Tile.removeItem
  by_cases htop : ((w.items x).type types).alwaysOnTopOrder ≠ 0
  · have hxt : x ∈ (w.tiles t).topItems :=
      (hmem'.resolve_left hground).resolve_right fun h => htop (hw.down t x h)
    have hxd := hw.tile_disjoint.2 hxt
    simp only [if_pos htop, if_pos hxt]
    refine hw.taken_setTile hmem ?_ (fun y => ?_) List.erase_subset (List.Subset.refl _)
    · exact (List.Sublist.append ((List.erase_sublist).append_left _) (List.Sublist.refl _)).nodup hnd
    · rw [World.mem_contents_tile, hnt.mem_erase_iff]
      constructor
      · rintro (h | ⟨hne, h⟩ | h)
        · exact ⟨Or.inl h, fun e => hground (e ▸ h)⟩
        · exact ⟨Or.inr (Or.inl h), hne⟩
        · exact ⟨Or.inr (Or.inr h), fun e => hxd (e ▸ h)⟩
      · rintro ⟨h | h | h, hne⟩
        · exact Or.inl h
        · exact Or.inr (Or.inl ⟨hne, h⟩)
        · exact Or.inr (Or.inr h)
  · have hxd : x ∈ (w.tiles t).downItems :=
      (hmem'.resolve_left hground).resolve_left fun h => htop (hw.top t x h)
    have hxt : x ∉ (w.tiles t).topItems := fun h => hw.tile_disjoint.2 h hxd
    have hpart : ¬ ((w.items x).isStackable types = true ∧ k ≠ (w.items x).getItemCount) := by
      rcases hk with h | h | h | h
      · simp [h]
      · simp [h]
      · exact absurd h hground
      · exact absurd h htop
    simp only [if_neg htop, if_pos hxd, if_neg hpart]
    refine hw.taken_setTile hmem ?_ (fun y => ?_) (List.Subset.refl _) List.erase_subset
    · exact (List.Sublist.append (List.Sublist.refl _) List.erase_sublist).nodup hnd
    · rw [World.mem_contents_tile, hndown.mem_erase_iff]
      constructor
      · rintro (h | h | ⟨hne, h⟩)
        · exact ⟨Or.inl h, fun e => hground (e ▸ h)⟩
        · exact ⟨Or.inr (Or.inl h), fun e => hxt (e ▸ h)⟩
        · exact ⟨Or.inr (Or.inr h), hne⟩
      · rintro ⟨h | h | h, hne⟩
        · exact Or.inl h
        · exact Or.inr (Or.inl h)
        · exact Or.inr (Or.inr ⟨hne, h⟩)

/-- **`removeThing` takes the item away** when it does not stack, when the whole stack is asked for,
and on a tile when it is the ground or on top. -/
theorem removeThing_taken (hw : w.WF types) {c : Cylinder} {x k : ℕ} (hx : w.getThingIndex types c x ≠ -1)
    (hk : (w.items x).isStackable types = false ∨ k = (w.items x).getItemCount ∨
      TakesAll types w c x) : Taken w (removeThing types w c x k) x := by
  cases c with
  | item n => exact removeThing_item_taken hw hx (by simpa [TakesAll] using hk)
  | player p => exact removeThing_player_taken hw hx (by simpa [TakesAll] using hk)
  | tile t => exact removeThing_tile_taken hw hx hk

/-! ## Recounting -/

/-- The item `x` gets the count `n`, and that is all. -/
structure Recounted (w w' : World) (x n : ℕ) : Prop where
  contents : ∀ d, w'.contents d = w.contents d
  body_self : (w'.items x).body = ((w.items x).setItemCount n).body
  body : ∀ y, y ≠ x → (w'.items y).body = (w.items y).body
  size : w'.size = w.size
  top : ∀ t, (w'.tiles t).topItems = (w.tiles t).topItems
  down : ∀ t, (w'.tiles t).downItems = (w.tiles t).downItems

theorem recounted_setItem (w : World) (x n : ℕ) : Recounted w (w.setItem x ((w.items x).setItemCount n)) x n where
  contents d := World.contents_setItem_of_container w
    (i := (w.items x).setItemCount n) rfl d
  body_self := by simp [World.setItem]
  body y hy := by simp [World.setItem, Function.update_of_ne hy]
  size := rfl
  top _ := rfl
  down _ := rfl

/-- Worlds stay well-formed when an item is recounted. -/
theorem World.WF.of_recounted (hw : w.WF types) {x n : ℕ} (h : Recounted w w' x n) : w'.WF types := by
  have hbody : ∀ y, (w'.items y).id = (w.items y).id ∧
      (w'.items y).container.isSome = (w.items y).container.isSome := by
    intro y
    rcases eq_or_ne y x with rfl | hy
    · have := Item.body_eq h.body_self
      exact ⟨this.1, this.2.2.2⟩
    · have := Item.body_eq (h.body y hy)
      exact ⟨this.1, this.2.2.2⟩
  have htype : ∀ y, (w'.items y).type types = (w.items y).type types := by
    intro y
    simp [Item.type, (hbody y).1]
  refine ⟨fun c => h.contents c ▸ hw.nodup c, fun c d y hc hd => ?_, fun c y hy => ?_, fun n hn => ?_,
    fun y hy => ?_, fun t y hy => ?_, fun t y hy => ?_⟩
  · exact hw.unique c d y (h.contents c ▸ hc) (h.contents d ▸ hd)
  · exact h.size ▸ hw.live c y (h.contents c ▸ hy)
  · simpa [hw.fresh n (h.size ▸ hn)] using (hbody n).2
  · simpa [hw.stack y (by simpa [Item.isStackable, htype] using hy)] using (hbody y).2
  · rw [htype]
    exact hw.top t y (h.top t ▸ hy)
  · rw [htype]
    exact hw.down t y (h.down t ▸ hy)

/-- Of part of a stack `removeThing` changes the count. -/
theorem removeThing_part (hw : w.WF types) {c : Cylinder} {x k : ℕ}
    (hx : w.getThingIndex types c x ≠ -1) (hstack : (w.items x).isStackable types = true)
    (hk : k ≠ (w.items x).getItemCount) (hall : ¬ TakesAll types w c x) : removeThing types w c x k =
      w.setItem x ((w.items x).setItemCount ((w.items x).getItemCount - k)) := by
  have hmem := World.mem_contents_of_getThingIndex hx
  cases c with
  | item n => simp only [removeThing, if_neg hx, if_pos (And.intro hstack hk)]
  | player p => simp only [removeThing, if_neg hx, if_pos (And.intro hstack hk)]
  | tile t =>
    obtain ⟨hground, htop⟩ := not_or.1 hall
    have hxd : x ∈ (w.tiles t).downItems :=
      ((w.mem_contents_tile.1 hmem).resolve_left hground).resolve_left
        fun h => absurd (not_not.1 htop) (hw.top t x h)
    simp only [removeThing, Tile.removeThing, Tile.removeItem, if_neg hx, if_neg hground,
      if_neg htop, if_pos hxd, if_pos (And.intro hstack hk)]

/-- **`removeThing` of part of a stack** takes the items from its count. -/
theorem removeThing_recounted (hw : w.WF types) {c : Cylinder} {x k : ℕ}
    (hx : w.getThingIndex types c x ≠ -1) (hstack : (w.items x).isStackable types = true)
    (hk : k ≠ (w.items x).getItemCount) (hall : ¬ TakesAll types w c x) :
    Recounted w (removeThing types w c x k) x ((w.items x).getItemCount - k) := by
  rw [removeThing_part hw hx hstack hk hall]
  exact recounted_setItem w x _

/-- `removeThing` does nothing when the item does not lie in the cylinder. -/
theorem removeThing_of_index {c : Cylinder} {x : ℕ} (hx : w.getThingIndex types c x = -1) (k : ℕ) :
    removeThing types w c x k = w := by
  cases c <;> simp [removeThing, Tile.removeThing, hx]

/-- What `removeThing` does: nothing, or the item is taken away, or it is recounted. -/
theorem removeThing_cases (hw : w.WF types) (c : Cylinder) (x k : ℕ) :
    (w.getThingIndex types c x = -1 ∧ removeThing types w c x k = w) ∨ Taken w (removeThing types w c x k) x ∨
      Recounted w (removeThing types w c x k) x ((w.items x).getItemCount - k) := by
  by_cases hx : w.getThingIndex types c x = -1
  · exact Or.inl ⟨hx, removeThing_of_index hx k⟩
  by_cases hk : (w.items x).isStackable types = false ∨ k = (w.items x).getItemCount ∨
      TakesAll types w c x
  · exact Or.inr (Or.inl (removeThing_taken hw hx hk))
  · obtain ⟨hstack, hpart⟩ := not_or.1 hk
    obtain ⟨hk, hall⟩ := not_or.1 hpart
    exact Or.inr (Or.inr (removeThing_recounted hw hx (by simpa using hstack) hk hall))

/-- **Worlds stay well-formed under `removeThing`.** -/
theorem World.WF.removeThing (hw : w.WF types) (c : Cylinder) (x k : ℕ) : (removeThing types w c x k).WF types := by
  rcases removeThing_cases hw c x k with ⟨-, h⟩ | h | h
  · rwa [h]
  · exact hw.of_taken h
  · exact hw.of_recounted h

/-- `removeThing` keeps the types of the items. -/
theorem id_removeThing (hw : w.WF types) (c : Cylinder) (x k y : ℕ) :
    ((removeThing types w c x k).items y).id = (w.items y).id := by
  rcases removeThing_cases hw c x k with ⟨-, h⟩ | h | h
  · rw [h]
  · exact (Item.body_eq (h.body y)).1
  · rcases eq_or_ne y x with rfl | hy
    · exact (Item.body_eq h.body_self).1
    · exact (Item.body_eq (h.body y hy)).1

/-- **`updateThing` of a stack** that lies in the cylinder sets its count. -/
theorem updateThing_recounted {c : Cylinder} {x n : ℕ} (hx : w.getThingIndex types c x ≠ -1)
    (hstack : (w.items x).isStackable types = true) :
    Recounted w (updateThing types w c x (w.items x).id n) x n := by
  have hgroup := (types (w.items x).id).stackable_group hstack
  have hset : (w.items x).setSubType types n = (w.items x).setItemCount n := by
    have hs : (types (w.items x).id).stackable = true := hstack
    simp [Item.setSubType, Item.type, hgroup, hs]
  have h := recounted_setItem w x n
  simp only [updateThing, if_neg hx]
  rw [hset]
  cases c with
  | item m => exact h
  | player p => exact h
  | tile t =>
    refine ⟨fun d => ?_, h.body_self, h.body, rfl, fun u => ?_, fun u => ?_⟩
    · rw [World.contents_setTile, ← h.contents d]
      split_ifs with hd
      · subst hd
        rfl
      · rfl
    · rcases eq_or_ne u t with rfl | hu
      · simp [World.setTile]
      · simp [World.setTile, Function.update_of_ne hu]
        rfl
    · rcases eq_or_ne u t with rfl | hu
      · simp [World.setTile]
      · simp [World.setTile, Function.update_of_ne hu]
        rfl

/-- `updateThing` does nothing when the item does not lie in the cylinder. -/
theorem updateThing_of_index {c : Cylinder} {x : ℕ} (hx : w.getThingIndex types c x = -1)
    (id n : ℕ) : updateThing types w c x id n = w := by
  simp [updateThing, hx]

/-! ## Putting in -/

/-- The item `x` is put into `c`, and that is all. -/
structure Added (types : ItemTypes) (w w' : World) (c : Cylinder) (x : ℕ) : Prop where
  mem : ∀ d y, y ∈ w'.contents d ↔ y ∈ w.contents d ∨ (d = c ∧ y = x)
  nodup : ∀ d, (w.contents d).Nodup → x ∉ w.contents d → (w'.contents d).Nodup
  body : ∀ y, (w'.items y).body = (w.items y).body
  size : w'.size = w.size
  top : ∀ t, ∀ y ∈ (w'.tiles t).topItems, y ∈ (w.tiles t).topItems ∨
    y = x ∧ ((w.items x).type types).alwaysOnTopOrder ≠ 0
  down : ∀ t, ∀ y ∈ (w'.tiles t).downItems, y ∈ (w.tiles t).downItems ∨
    y = x ∧ ((w.items x).type types).alwaysOnTopOrder = 0

/-- Worlds stay well-formed when an item that lies nowhere is put in. -/
theorem World.WF.of_added (hw : w.WF types) {c : Cylinder} {x : ℕ} (hx : ∀ d, x ∉ w.contents d)
    (hlive : x < w.size) (h : Added types w w' c x) : w'.WF types where
  nodup d := h.nodup d (hw.nodup d) (hx d)
  unique d e y hd he := by
    rcases (h.mem d y).1 hd with hd | ⟨hdc, hyx⟩
    · rcases (h.mem e y).1 he with he | ⟨-, hyx⟩
      · exact hw.unique d e y hd he
      · exact absurd (hyx ▸ hd) (hx d)
    · rcases (h.mem e y).1 he with he | ⟨hec, -⟩
      · exact absurd (hyx ▸ he) (hx e)
      · rw [hdc, hec]
  live d y hy := by
    rw [h.size]
    rcases (h.mem d y).1 hy with hy | ⟨rfl, rfl⟩
    · exact hw.live d y hy
    · exact hlive
  fresh n hn := Item.container_eq_none (h.body n) (hw.fresh n (h.size ▸ hn))
  stack y hy := Item.container_eq_none (h.body y)
    (hw.stack y (by rwa [← Item.isStackable_eq (h.body y)]))
  top t y hy := by
    rw [Item.type_eq (h.body y)]
    rcases h.top t y hy with hy | ⟨rfl, hy⟩
    · exact hw.top t y hy
    · exact hy
  down t y hy := by
    rw [Item.type_eq (h.body y)]
    rcases h.down t y hy with hy | ⟨rfl, hy⟩
    · exact hw.down t y hy
    · exact hy

/-- Whether `addThing` puts an item in and nothing has to make room for it: the index is below the
capacity of the container; the slot exists and is free; the tile has room, and no ground, splash or
magic field is replaced. -/
def Accepts (types : ItemTypes) (w : World) (c : Cylinder) (index : ℤ) (x : ℕ) : Prop :=
  match c with
  | .item n => ∃ k, (w.items n).container = some k ∧ index < k.maxSize
  | .player p =>
    (CONST_SLOT_FIRST ≤ index ∧ index ≤ CONST_SLOT_LAST) ∧
      (w.players p).inventory index.toNat = none
  | .tile t =>
    (w.tiles t).downItems.length + (w.tiles t).topItems.length < 0xFFFF ∧
      if ((w.items x).type types).group = .ITEM_GROUP_GROUND then (w.tiles t).ground = none
      else replacedItem types w (w.tiles t) x = none

/-- Something is put in where the contents of one cylinder are extended by it. -/
theorem added_of_contents {c : Cylinder} {x : ℕ} {l : List ℕ}
    (hl : ∀ y, y ∈ l ↔ y ∈ w.contents c ∨ y = x)
    (hnd : (w.contents c).Nodup → x ∉ w.contents c → l.Nodup)
    (hc : ∀ d, w'.contents d = if d = c then l else w.contents d)
    (body : ∀ y, (w'.items y).body = (w.items y).body) (size : w'.size = w.size)
    (top : ∀ t, ∀ y ∈ (w'.tiles t).topItems, y ∈ (w.tiles t).topItems ∨
      y = x ∧ ((w.items x).type types).alwaysOnTopOrder ≠ 0)
    (down : ∀ t, ∀ y ∈ (w'.tiles t).downItems, y ∈ (w.tiles t).downItems ∨
      y = x ∧ ((w.items x).type types).alwaysOnTopOrder = 0) : Added types w w' c x := by
  refine ⟨fun d y => ?_, fun d hd hx => ?_, body, size, top, down⟩
  · rw [hc]
    by_cases hdc : d = c
    · subst hdc
      rw [if_pos rfl, hl]
      simp
    · simp [hdc]
  · rw [hc]
    split_ifs with hdc
    · subst hdc
      exact hnd hd hx
    · exact hd

/-- Parents do not count for what is put in. -/
theorem Added.of_setParent {y x : ℕ} {c : Option Cylinder} {d : Cylinder}
    (h : Added types (w.setParent y c) w' d x) : Added types w w' d x where
  mem e z := by simpa using h.mem e z
  nodup e := by simpa using h.nodup e
  body z := by simpa using h.body z
  size := h.size
  top t z hz := by simpa using h.top t z hz
  down t z hz := by simpa using h.down t z hz

theorem addThing_item_added {n : ℕ} {index : ℤ} {x : ℕ} (h : Accepts types w (.item n) index x) :
    Added types w (addThing types w (.item n) index x) (.item n) x := by
  obtain ⟨k, hk, hindex⟩ := h
  have hcont : ((w.setParent x (some (.item n))).items n).container.isSome := by
    rw [(Item.body_eq (w.body_setParent x _ n)).2.2.2]
    simp [hk]
  have hlist : w.contents (.item n) = k.itemlist := by
    simp [World.contents, World.itemlist, hk]
  simp only [addThing, Container.addThing, hk, if_neg (not_le.2 hindex), ge_iff_le]
  refine added_of_contents (l := x :: k.itemlist) (fun y => ?_) (fun hnd hx => ?_) (fun d => ?_)
    (by simp) rfl (fun t y hy => Or.inl hy) (fun t y hy => Or.inl hy)
  · rw [hlist, List.mem_cons]
    exact or_comm
  · rw [hlist] at hnd hx
    exact List.nodup_cons.2 ⟨hx, hnd⟩
  · rw [World.contents_setItemlist _ hcont, World.contents_setParent]

theorem addThing_player_added {p : ℕ} {index : ℤ} {x : ℕ} (h : Accepts types w (.player p) index x) :
    Added types w (addThing types w (.player p) index x) (.player p) x := by
  obtain ⟨⟨hfirst, hlast⟩, hfree⟩ := h
  have hslot : index.toNat ∈ slots := by
    simp only [slots, List.mem_range'_1]
    omega
  simp only [addThing, Player.addThing, if_neg (not_or.2 ⟨not_lt.2 hfirst, not_lt.2 hlast⟩)]
  refine added_of_contents (c := .player p)
    (l := slots.filterMap (Function.update (w.players p).inventory index.toNat (some x)))
    (fun y => ?_) (fun hnd hx => ?_) (fun d => ?_)
    (by simp) rfl (fun t y hy => Or.inl hy) (fun t y hy => Or.inl hy)
  · rw [List.mem_filterMap, World.mem_contents_player]
    constructor
    · rintro ⟨j, hj, hy⟩
      rcases eq_or_ne j index.toNat with rfl | hji
      · exact Or.inr (by simpa using hy.symm)
      · rw [Function.update_of_ne hji] at hy
        exact Or.inl ⟨j, hj, hy⟩
    · rintro (⟨j, hj, hy⟩ | rfl)
      · refine ⟨j, hj, ?_⟩
        rw [Function.update_of_ne]
        · exact hy
        · rintro rfl
          simp [hfree] at hy
      · exact ⟨index.toNat, hslot, by simp⟩
  · have hx' : ∀ j ∈ slots, (w.players p).inventory j ≠ some x := fun j hj h =>
      hx (w.mem_contents_player.2 ⟨j, hj, h⟩)
    rw [World.contents, List.Nodup, List.pairwise_filterMap] at hnd
    rw [List.Nodup, List.pairwise_filterMap]
    have hslots : slots.Nodup := List.nodup_range'
    refine (List.Pairwise.and hnd hslots).imp_of_mem fun {a b} ha hb hab y hy z hz => ?_
    rcases eq_or_ne a index.toNat with rfl | hai
    · rw [Function.update_of_ne hab.2.symm] at hz
      obtain rfl : x = y := by simpa using hy
      rintro rfl
      exact hx' b hb hz
    · rw [Function.update_of_ne hai] at hy
      rcases eq_or_ne b index.toNat with rfl | hbi
      · obtain rfl : x = z := by simpa using hz
        rintro rfl
        exact hx' a ha hy
      · rw [Function.update_of_ne hbi] at hz
        exact hab.1 y hy z hz
  · by_cases hd : d = .player p
    · subst hd
      simp [World.contents, World.setSlot, World.setPlayer]
    · rw [World.contents_setSlot_of_ne _ hd, World.contents_setParent, if_neg hd]

theorem insertTopItem_perm (types : ItemTypes) (w : World) (x : ℕ) (l : List ℕ) :
    (insertTopItem types w x l).Perm (x :: l) := by
  have h := List.takeWhile_append_dropWhile (l := l)
    (p := fun y => ((w.items y).type types).alwaysOnTopOrder <
      ((w.items x).type types).alwaysOnTopOrder)
  conv_rhs => rw [← h]
  exact List.perm_middle

/-- The items of a tile after an item was put in one part of its stack. -/
theorem added_setTile {t x : ℕ} {tile : Tile} (hperm : (tile.ground.toList ++ tile.topItems ++ tile.downItems).Perm
      (x :: w.contents (.tile t))) (htop : ∀ y ∈ tile.topItems, y ∈ (w.tiles t).topItems ∨
      y = x ∧ ((w.items x).type types).alwaysOnTopOrder ≠ 0)
    (hdown : ∀ y ∈ tile.downItems, y ∈ (w.tiles t).downItems ∨
      y = x ∧ ((w.items x).type types).alwaysOnTopOrder = 0) : Added types w (w.setTile t tile) (.tile t) x := by
  refine added_of_contents (fun y => ?_) (fun hnd hx => ?_) (fun d => w.contents_setTile t tile d)
    (by simp) rfl (fun u => ?_) (fun u => ?_)
  · rw [hperm.mem_iff, List.mem_cons]
    exact or_comm
  · exact hperm.nodup_iff.2 (List.nodup_cons.2 ⟨hx, hnd⟩)
  · rcases eq_or_ne u t with rfl | hu
    · simpa [World.setTile] using htop
    · intro y hy
      rw [World.setTile] at hy
      simp only [Function.update_of_ne hu] at hy
      exact Or.inl hy
  · rcases eq_or_ne u t with rfl | hu
    · simpa [World.setTile] using hdown
    · intro y hy
      rw [World.setTile] at hy
      simp only [Function.update_of_ne hu] at hy
      exact Or.inl hy

/-- `Tile::addThing` with nothing to replace. -/
theorem insertItem_added (w : World) (t x : ℕ) : Added types w (Tile.insertItem types w t x) (.tile t) x := by
  unfold Tile.insertItem
  by_cases horder : ((w.items x).type types).alwaysOnTopOrder ≠ 0
  · rw [if_pos horder]
    have hperm := insertTopItem_perm types w x (w.tiles t).topItems
    refine added_setTile ?_ (fun y hy => ?_) (fun y hy => Or.inl hy)
    · refine ((hperm.append_left _).append_right _).trans ?_
      simp [World.contents]
    · rcases List.mem_cons.1 (hperm.mem_iff.1 hy) with rfl | hy
      · exact Or.inr ⟨rfl, horder⟩
      · exact Or.inl hy
  · rw [if_neg horder]
    refine added_setTile ?_ (fun y hy => Or.inl hy) (fun y hy => ?_)
    · have hperm : ((w.tiles t).ground.toList ++ (w.tiles t).topItems ++ x :: (w.tiles t).downItems).Perm
          (x :: ((w.tiles t).ground.toList ++ (w.tiles t).topItems ++ (w.tiles t).downItems)) :=
        List.perm_middle
      simpa [World.contents] using hperm
    · rcases List.mem_cons.1 hy with rfl | hy
      · exact Or.inr ⟨rfl, not_not.1 horder⟩
      · exact Or.inl hy

theorem addThing_tile_added {t : ℕ} {index : ℤ} {x : ℕ} (h : Accepts types w (.tile t) index x) :
    Added types w (addThing types w (.tile t) index x) (.tile t) x := by
  obtain ⟨hroom, h⟩ := h
  simp only [addThing, Tile.addThing, if_neg (not_le.2 hroom), ge_iff_le]
  by_cases hground : ((w.items x).type types).group = .ITEM_GROUP_GROUND
  · rw [if_pos hground] at h ⊢
    simp only [h]
    refine Added.of_setParent (added_setTile ?_ (fun y hy => Or.inl hy) (fun y hy => Or.inl hy))
    simp [World.contents, h]
  · rw [if_neg hground] at h ⊢
    simp only [h]
    exact Added.of_setParent (insertItem_added _ t x)

/-- **`addThing` puts the item in** when the cylinder accepts it. -/
theorem addThing_added {c : Cylinder} {index : ℤ} {x : ℕ} (h : Accepts types w c index x) :
    Added types w (addThing types w c index x) c x := by
  cases c with
  | item n => exact addThing_item_added h
  | player p => exact addThing_player_added h
  | tile t => exact addThing_tile_added h

/-! ## Dropping and replacing -/

/-- The item in whose place `addThing` puts another. -/
def replacedBy (types : ItemTypes) (w : World) (c : Cylinder) (index : ℤ) (x : ℕ) : Option ℕ :=
  match c with
  | .item _ => none
  | .player p => (w.players p).inventory index.toNat
  | .tile t =>
    if ((w.items x).type types).group = .ITEM_GROUP_GROUND then (w.tiles t).ground
    else replacedItem types w (w.tiles t) x

/-- What `addThing` does to a world when the cylinder does not accept the item: it drops the item,
or puts it in the place of another, `old`, which is taken away for it. -/
inductive Spoiled (types : ItemTypes) (w w' : World) (c : Cylinder) (x : ℕ) (old : Option ℕ) : Prop
  | dropped (hcontents : ∀ d, w'.contents d = w.contents d)
      (hbody : ∀ y, (w'.items y).body = (w.items y).body) (hsize : w'.size = w.size)
      (hstack : ∀ t, (w'.tiles t).topItems = (w.tiles t).topItems ∧
        (w'.tiles t).downItems = (w.tiles t).downItems) : Spoiled types w w' c x old
  | replaced (w₀ : World) (y : ℕ) (hold : old = some y) (hy : y ∈ w.contents c) (hne : y ≠ x)
      (htaken : Taken w w₀ y) (hadded : Added types w₀ w' c x) : Spoiled types w w' c x old

namespace Spoiled

variable {c : Cylinder} {x : ℕ} {old : Option ℕ}

theorem body (h : Spoiled types w w' c x old) (y : ℕ) : (w'.items y).body = (w.items y).body := by
  cases h with
  | dropped _ hbody _ _ => exact hbody y
  | replaced w₀ z _ _ _ htaken hadded => exact (hadded.body y).trans (htaken.body y)

theorem size (h : Spoiled types w w' c x old) : w'.size = w.size := by
  cases h with
  | dropped _ _ hsize _ => exact hsize
  | replaced w₀ z _ _ _ htaken hadded => exact hadded.size.trans htaken.size

theorem mem (h : Spoiled types w w' c x old) (d : Cylinder) (y : ℕ) (hy : y ∈ w'.contents d) :
    y ∈ w.contents d ∨ y = x := by
  cases h with
  | dropped hcontents _ _ _ => exact Or.inl (hcontents d ▸ hy)
  | replaced w₀ z _ _ _ htaken hadded =>
    rcases (hadded.mem d y).1 hy with hy | ⟨-, hyx⟩
    · exact Or.inl ((htaken.mem d y).1 hy).1
    · exact Or.inr hyx

/-- The item is dropped, or another is lost. -/
theorem lost (h : Spoiled types w w' c x old) : (∀ d, w'.contents d = w.contents d) ∨
    ∃ y ∈ w.contents c, y ≠ x ∧ ∀ d, y ∉ w'.contents d := by
  cases h with
  | dropped hcontents _ _ _ => exact Or.inl hcontents
  | replaced w₀ y _ hy hne htaken hadded =>
    refine Or.inr ⟨y, hy, hne, fun d hd => ?_⟩
    rcases (hadded.mem d y).1 hd with hd | ⟨-, hyx⟩
    · exact ((htaken.mem d y).1 hd).2 rfl
    · exact hne hyx

end Spoiled

/-- Worlds with the same contents look the same to what is put in. -/
theorem Added.congr {w₂ : World} {c : Cylinder} {x : ℕ} (h : Added types w w' c x)
    (hcontents : ∀ d, w₂.contents d = w'.contents d)
    (hbody : ∀ y, (w₂.items y).body = (w'.items y).body) (hsize : w₂.size = w'.size)
    (hstack : ∀ t, (w₂.tiles t).topItems = (w'.tiles t).topItems ∧
      (w₂.tiles t).downItems = (w'.tiles t).downItems) : Added types w w₂ c x where
  mem d y := by rw [hcontents, h.mem]
  nodup d := by
    rw [hcontents]
    exact h.nodup d
  body y := (hbody y).trans (h.body y)
  size := hsize.trans h.size
  top t := by
    rw [(hstack t).1]
    exact h.top t
  down t := by
    rw [(hstack t).2]
    exact h.down t

/-- An item that lies on a tile has an index there. -/
theorem World.WF.getThingIndex_tile (hw : w.WF types) {t x : ℕ} (hx : x ∈ w.contents (.tile t)) :
    w.getThingIndex types (.tile t) x ≠ -1 := by
  have hindex : ∀ (l : List ℕ) (n : ℕ), x ∈ l →
      World.toIndex ((l.idxOf? x).map (n + ·)) ≠ -1 := by
    intro l n hl
    obtain ⟨i, hi⟩ : ∃ i, l.idxOf? x = some i := by
      cases hi : l.idxOf? x with
      | none => exact absurd hl (List.idxOf?_eq_none_iff.1 hi)
      | some i => exact ⟨i, rfl⟩
    simp only [hi, Option.map_some, World.toIndex, Option.elim_some]
    omega
  simp only [World.getThingIndex]
  by_cases hground : (w.tiles t).ground = some x
  · simp [hground]
  rw [if_neg hground]
  have hx' := (w.mem_contents_tile.1 hx).resolve_left hground
  by_cases htop : ((w.items x).type types).alwaysOnTopOrder ≠ 0
  · rw [if_pos htop]
    exact hindex _ _ (hx'.resolve_right fun h => htop (hw.down t x h))
  · rw [if_neg htop]
    exact hindex _ _ (hx'.resolve_left fun h => htop (hw.top t x h))

/-- An item that lies in a cylinder has an index there. -/
theorem World.WF.getThingIndex_ne (hw : w.WF types) {c : Cylinder} {x : ℕ} (hx : x ∈ w.contents c) :
    w.getThingIndex types c x ≠ -1 := by
  have hindex : ∀ i : Option ℕ, i ≠ none → World.toIndex i ≠ -1 := by
    intro i hi
    obtain ⟨n, rfl⟩ := Option.ne_none_iff_exists'.1 hi
    simp only [World.toIndex, Option.elim_some]
    omega
  cases c with
  | item n => exact hindex _ fun h => List.idxOf?_eq_none_iff.1 h hx
  | player p =>
    obtain ⟨i, hi, hxi⟩ := w.mem_contents_player.1 hx
    refine hindex _ fun h => ?_
    exact List.find?_eq_none.1 h i hi (by simpa using hxi)
  | tile t => exact hw.getThingIndex_tile hx

/-- Worlds stay well-formed when a parent changes. -/
theorem World.WF.setParent (hw : w.WF types) (x : ℕ) (c : Option Cylinder) : (w.setParent x c).WF types where
  nodup d := by
    rw [w.contents_setParent]
    exact hw.nodup d
  unique d e y hd he := by
    rw [w.contents_setParent] at hd he
    exact hw.unique d e y hd he
  live d y hy := by
    rw [w.contents_setParent] at hy
    exact hw.live d y hy
  fresh n hn := Item.container_eq_none (w.body_setParent x c n) (hw.fresh n hn)
  stack y hy := Item.container_eq_none (w.body_setParent x c y)
    (hw.stack y (by rwa [← Item.isStackable_eq (w.body_setParent x c y)]))
  top t y hy := by
    rw [Item.type_eq (w.body_setParent x c y)]
    exact hw.top t y hy
  down t y hy := by
    rw [Item.type_eq (w.body_setParent x c y)]
    exact hw.down t y hy

/-- Parents do not count for what is taken away. -/
theorem Taken.of_setParent {x y z : ℕ} {c d : Option Cylinder}
    (h : Taken (w.setParent y c) w' x) : Taken w (w'.setParent z d) x where
  mem e u := by simpa using h.mem e u
  nodup e := by simpa using h.nodup e
  body u := by simpa using h.body u
  size := h.size
  top t := h.top t
  down t := h.down t

/-- The item that a new one replaces lies on the tile, and `Tile::removeThing` takes it away. -/
theorem replacedItem_taken (hw : w.WF types) {t x y : ℕ} (h : replacedItem types w (w.tiles t) x = some y) :
    y ∈ w.contents (.tile t) ∧ Taken w (removeThing types w (.tile t) y 1) y := by
  unfold replacedItem at h
  by_cases htop : ((w.items x).type types).alwaysOnTopOrder ≠ 0
  · simp only [if_pos htop] at h
    split_ifs at h
    have hy := List.mem_of_find?_eq_some h
    have hmem := w.mem_contents_tile.2 (Or.inr (Or.inl hy))
    exact ⟨hmem, removeThing_taken hw (hw.getThingIndex_tile hmem)
      (Or.inr (Or.inr (Or.inr (hw.top t y hy))))⟩
  · simp only [if_neg htop] at h
    split_ifs at h
    have hy := List.mem_of_find?_eq_some h
    have hmem := w.mem_contents_tile.2 (Or.inr (Or.inr hy))
    have hfield : ((w.items y).type types).type = .ITEM_TYPE_MAGICFIELD := by
      simpa using List.find?_some h
    have hstack : (w.items y).isStackable types = false := by
      by_contra hs
      exact ((w.items y).type types).stackable_type (by simpa [Item.isStackable] using hs) hfield
    exact ⟨hmem, removeThing_taken hw (hw.getThingIndex_tile hmem) (Or.inl hstack)⟩

/-- A ground that replaces another comes to the tile without it. -/
theorem addThing_ground_spoiled (hw : w.WF types) {t : ℕ} {index : ℤ} {x old : ℕ} (hx : ∀ d, x ∉ w.contents d)
    (hroom : (w.tiles t).downItems.length + (w.tiles t).topItems.length < 0xFFFF)
    (hground : ((w.items x).type types).group = .ITEM_GROUP_GROUND) (hold : (w.tiles t).ground = some old) :
    Spoiled types w (addThing types w (.tile t) index x) (.tile t) x (replacedBy types w (.tile t) index x) := by
  have hmem : old ∈ w.contents (.tile t) := w.mem_contents_tile.2 (Or.inl hold)
  have hindex := hw.getThingIndex_tile hmem
  have htaken := removeThing_taken hw (k := 1) hindex (Or.inr (Or.inr (Or.inl hold)))
  set w₀ := removeThing types w (.tile t) old 1 with hw₀
  have htile : w₀ = (w.setParent old none).setTile t
      { w.tiles t with
        ground := none
        supportsHangable := (w.tiles t).supportsHangable ||
          ((w.items old).type types).supportHangable } := by
    simp only [hw₀, removeThing, Tile.removeThing, if_neg hindex, if_pos hold]
  have hground₀ : ((w₀.items x).type types).group = .ITEM_GROUP_GROUND := by
    rwa [Item.type_eq (htaken.body x)]
  have htile₀ : w₀.tiles t =
      { w.tiles t with
        ground := none
        supportsHangable := (w.tiles t).supportsHangable ||
          ((w.items old).type types).supportHangable } := by
    simp [htile, World.setTile]
  have hacc : Accepts types w₀ (.tile t) index x := by
    refine ⟨?_, ?_⟩
    · rwa [htile₀]
    · rw [if_pos hground₀, htile₀]
  have hadd : addThing types w (.tile t) index x =
      ((w.setParent x (some (.tile t))).setParent old none).setTile t
        { w.tiles t with
          ground := some x
          supportsHangable := (w.tiles t).supportsHangable ||
            ((w.items old).type types).supportHangable ||
            ((w.items x).type types).supportHangable } := by
    simp only [addThing, Tile.addThing, if_neg (not_le.2 hroom), ge_iff_le, if_pos hground, hold]
  have hadd₀ : addThing types w₀ (.tile t) index x =
      (w₀.setParent x (some (.tile t))).setTile t
        { w₀.tiles t with
          ground := some x
          supportsHangable := (w₀.tiles t).supportsHangable ||
            ((w₀.items x).type types).supportHangable } := by
    simp only [addThing, Tile.addThing, if_neg (not_le.2 hacc.1), ge_iff_le, if_pos hground₀]
    rw [htile₀]
  refine .replaced w₀ old (by simp [replacedBy, hground, hold]) hmem (fun e => hx _ (e ▸ hmem)) htaken
    ((addThing_added hacc).congr (fun d => ?_) (fun y => ?_) ?_ (fun u => ?_))
  · rw [hadd, hadd₀, World.contents_setTile, World.contents_setTile, htile₀]
    split_ifs with hd
    · rfl
    · simp [htile, World.contents_setTile, hd]
  · rw [hadd, hadd₀]
    simp [htaken.body y]
  · rw [hadd, hadd₀]
    exact htaken.size.symm
  · rw [hadd, hadd₀, htile]
    rcases eq_or_ne u t with rfl | hu
    · simp [World.setTile]
    · simp [World.setTile, Function.update_of_ne hu]

theorem addThing_tile_spoiled (hw : w.WF types) {t : ℕ} {index : ℤ} {x : ℕ}
    (hx : ∀ d, x ∉ w.contents d) (h : ¬ Accepts types w (.tile t) index x) :
    Spoiled types w (addThing types w (.tile t) index x) (.tile t) x (replacedBy types w (.tile t) index x) := by
  by_cases hroom : (w.tiles t).downItems.length + (w.tiles t).topItems.length ≥ 0xFFFF
  · simp only [addThing, Tile.addThing, if_pos hroom]
    exact .dropped (fun _ => rfl) (fun _ => rfl) rfl (fun _ => ⟨rfl, rfl⟩)
  by_cases hground : ((w.items x).type types).group = .ITEM_GROUP_GROUND
  · cases hold : (w.tiles t).ground with
    | none => exact absurd ⟨not_le.1 hroom, by rw [if_pos hground, hold]⟩ h
    | some old => exact addThing_ground_spoiled hw hx (not_le.1 hroom) hground hold
  · simp only [addThing, Tile.addThing, if_neg hroom, if_neg hground]
    cases hold : replacedItem types w (w.tiles t) x with
    | none => exact absurd ⟨not_le.1 hroom, by rw [if_neg hground, hold]⟩ h
    | some old =>
      dsimp only
      split_ifs with hfield
      · exact .dropped (by simp) (by simp) rfl (fun _ => ⟨rfl, rfl⟩)
      · have hold' : replacedItem types (w.setParent x (some (.tile t)))
            ((w.setParent x (some (.tile t))).tiles t) x = some old := by
          simpa [replacedItem] using hold
        obtain ⟨hmem, htaken⟩ := replacedItem_taken (hw.setParent x _) hold'
        rw [World.contents_setParent] at hmem
        exact .replaced _ old (by simp [replacedBy, hground, hold]) hmem (fun e => hx _ (e ▸ hmem)) htaken.of_setParent
          (insertItem_added _ t x)

theorem addThing_player_spoiled (hw : w.WF types) {p : ℕ} {index : ℤ} {x : ℕ}
    (hx : ∀ d, x ∉ w.contents d) (h : ¬ Accepts types w (.player p) index x) :
    Spoiled types w (addThing types w (.player p) index x) (.player p) x
      (replacedBy types w (.player p) index x) := by
  by_cases hindex : index < CONST_SLOT_FIRST ∨ index > CONST_SLOT_LAST
  · simp only [addThing, Player.addThing, if_pos hindex]
    exact .dropped (fun _ => rfl) (fun _ => rfl) rfl (fun _ => ⟨rfl, rfl⟩)
  obtain ⟨hfirst, hlast⟩ := not_or.1 hindex
  have hrange : CONST_SLOT_FIRST ≤ index ∧ index ≤ CONST_SLOT_LAST :=
    ⟨not_lt.1 hfirst, not_lt.1 hlast⟩
  have hslot : index.toNat ∈ slots := by
    simp only [slots, List.mem_range'_1]
    omega
  obtain ⟨old, hold⟩ : ∃ old, (w.players p).inventory index.toNat = some old := by
    rw [← Option.ne_none_iff_exists']
    exact fun hfree => h ⟨hrange, hfree⟩
  have hmem : old ∈ w.contents (.player p) := w.mem_contents_player.2 ⟨_, hslot, hold⟩
  have htaken := setSlot_taken hw hslot hold
  have hacc : Accepts types ((w.setParent old none).setSlot p index.toNat none) (.player p) index
      x := ⟨hrange, by simp [World.setSlot, World.setPlayer]⟩
  refine .replaced _ old hold hmem (fun e => hx _ (e ▸ hmem)) htaken
    ((addThing_added hacc).congr (fun d => ?_) (fun y => ?_) ?_ (fun u => ?_))
  · simp only [addThing, Player.addThing, if_neg hindex]
    by_cases hd : d = .player p
    · subst hd
      simp [World.contents, World.setSlot, World.setPlayer]
    · rw [World.contents_setSlot_of_ne _ hd, World.contents_setSlot_of_ne _ hd,
        World.contents_setParent, World.contents_setParent, World.contents_setSlot_of_ne _ hd,
        World.contents_setParent]
  · simp only [addThing, Player.addThing, if_neg hindex]
    simp
  · simp only [addThing, Player.addThing, if_neg hindex]
    rfl
  · simp only [addThing, Player.addThing, if_neg hindex]
    exact ⟨rfl, rfl⟩

/-- **`addThing` loses an item** when the cylinder does not accept the one that it is to put in. -/
theorem addThing_spoiled (hw : w.WF types) {c : Cylinder} {index : ℤ} {x : ℕ}
    (hx : ∀ d, x ∉ w.contents d) (h : ¬ Accepts types w c index x) :
    Spoiled types w (addThing types w c index x) c x (replacedBy types w c index x) := by
  cases c with
  | item n =>
    simp only [addThing, Container.addThing]
    cases hk : (w.items n).container with
    | none => exact .dropped (fun _ => rfl) (fun _ => rfl) rfl (fun _ => ⟨rfl, rfl⟩)
    | some k =>
      dsimp only
      split_ifs with hindex
      · exact .dropped (fun _ => rfl) (fun _ => rfl) rfl (fun _ => ⟨rfl, rfl⟩)
      · exact absurd ⟨k, hk, not_le.1 hindex⟩ h
  | player p => exact addThing_player_spoiled hw hx h
  | tile t => exact addThing_tile_spoiled hw hx h

/-- `addThing` keeps all items as they are. -/
theorem body_addThing (hw : w.WF types) (c : Cylinder) (index : ℤ) {x : ℕ} (hx : ∀ d, x ∉ w.contents d) (y : ℕ) :
    ((addThing types w c index x).items y).body = (w.items y).body := by
  by_cases hacc : Accepts types w c index x
  · exact (addThing_added hacc).body y
  · exact (addThing_spoiled hw hx hacc).body y

/-- Whether `addThing` puts an item in at all, be it in the place of another. -/
def Enters (types : ItemTypes) (w : World) (c : Cylinder) (index : ℤ) (x : ℕ) : Prop :=
  match c with
  | .item n => ∃ k, (w.items n).container = some k ∧ index < k.maxSize
  | .player _ => CONST_SLOT_FIRST ≤ index ∧ index ≤ CONST_SLOT_LAST
  | .tile t =>
    (w.tiles t).downItems.length + (w.tiles t).topItems.length < 0xFFFF ∧
      (((w.items x).type types).group = .ITEM_GROUP_GROUND ∨
        ∀ old ∈ replacedItem types w (w.tiles t) x,
          ((w.items x).type types).alwaysOnTopOrder = 0 →
            ((w.items old).type types).replaceable = true)

theorem mem_addThing_iff {c : Cylinder} {index : ℤ} {x : ℕ} (hx : ∀ d, x ∉ w.contents d) :
    x ∈ (addThing types w c index x).contents c ↔ Enters types w c index x := by
  cases c with
  | item n =>
    by_cases hacc : Accepts types w (.item n) index x
    · exact iff_of_true (((addThing_added hacc).mem _ x).2 (Or.inr ⟨rfl, rfl⟩)) hacc
    · refine iff_of_false (fun h => ?_) hacc
      simp only [addThing, Container.addThing] at h
      cases hk : (w.items n).container with
      | none =>
        rw [hk] at h
        exact hx _ h
      | some k =>
        rw [hk] at h
        dsimp only at h
        rw [if_pos (not_lt.1 fun hlt => hacc ⟨k, hk, hlt⟩)] at h
        exact hx _ h
  | player p =>
    simp only [addThing, Player.addThing, Enters]
    split_ifs with hindex
    · exact iff_of_false (hx _) (by omega)
    · refine iff_of_true ((World.mem_contents_player _).2 ⟨index.toNat, ?_, ?_⟩) (by omega)
      · simp only [slots, List.mem_range'_1]
        omega
      · simp [World.setSlot, World.setPlayer]
  | tile t =>
    simp only [addThing, Tile.addThing, Enters]
    split_ifs with hroom hground
    · exact iff_of_false (hx _) (by omega)
    · refine iff_of_true ?_ ⟨by omega, Or.inl hground⟩
      cases (w.tiles t).ground <;> simp [World.contents_setTile]
    · cases hold : replacedItem types w (w.tiles t) x with
      | none =>
        refine iff_of_true (((insertItem_added _ t x).mem _ x).2 (Or.inr ⟨rfl, rfl⟩))
          ⟨by omega, Or.inr fun y hy => by cases hy⟩
      | some old =>
        dsimp only
        split_ifs with hfield
        · refine iff_of_false (by simpa using hx (.tile t)) fun h => ?_
          exact hfield.2 (h.2.resolve_left hground old rfl hfield.1)
        · refine iff_of_true (((insertItem_added _ t x).mem _ x).2 (Or.inr ⟨rfl, rfl⟩))
            ⟨by omega, Or.inr fun y hy horder => ?_⟩
          obtain rfl := Option.some.inj hy
          exact not_not.1 fun h => hfield ⟨horder, h⟩

/-- A cylinder accepts an item when it goes in and replaces none. -/
theorem replacedBy_of_accepts {c : Cylinder} {index : ℤ} {x : ℕ} (h : Accepts types w c index x) :
    replacedBy types w c index x = none := by
  cases c with
  | item n => rfl
  | player p => exact h.2
  | tile t =>
    have hfree := h.2
    unfold replacedBy
    dsimp only
    split_ifs at hfree ⊢ <;> exact hfree

/-- What does not go in changes no contents. -/
theorem contents_of_not_enters (hw : w.WF types) {c : Cylinder} {index : ℤ}
    {x : ℕ} (hx : ∀ d, x ∉ w.contents d) (h : ¬ Enters types w c index x) (d : Cylinder) :
    (addThing types w c index x).contents d = w.contents d := by
  have hout : x ∉ (addThing types w c index x).contents c := fun hmem =>
    h ((mem_addThing_iff hx).1 hmem)
  have hacc : ¬ Accepts types w c index x := fun hacc =>
    hout (((addThing_added hacc).mem c x).2 (Or.inr ⟨rfl, rfl⟩))
  cases addThing_spoiled hw hx hacc with
  | dropped hcontents _ _ _ => exact hcontents d
  | replaced w₀ y _ _ _ _ hadded => exact absurd ((hadded.mem c x).2 (Or.inr ⟨rfl, rfl⟩)) hout

/-- Worlds stay well-formed when nothing moves. -/
theorem World.WF.of_dropped (hw : w.WF types) (hcontents : ∀ d, w'.contents d = w.contents d)
    (hbody : ∀ y, (w'.items y).body = (w.items y).body) (hsize : w'.size = w.size)
    (hstack : ∀ t, (w'.tiles t).topItems = (w.tiles t).topItems ∧
      (w'.tiles t).downItems = (w.tiles t).downItems) : w'.WF types where
  nodup c := hcontents c ▸ hw.nodup c
  unique c d y hc hd := hw.unique c d y (hcontents c ▸ hc) (hcontents d ▸ hd)
  live c y hy := hsize ▸ hw.live c y (hcontents c ▸ hy)
  fresh n hn := Item.container_eq_none (hbody n) (hw.fresh n (hsize ▸ hn))
  stack y hy := Item.container_eq_none (hbody y)
    (hw.stack y (by rwa [← Item.isStackable_eq (hbody y)]))
  top t y hy := by
    rw [Item.type_eq (hbody y)]
    exact hw.top t y ((hstack t).1 ▸ hy)
  down t y hy := by
    rw [Item.type_eq (hbody y)]
    exact hw.down t y ((hstack t).2 ▸ hy)

/-- **Worlds stay well-formed under `addThing`** of an item that lies nowhere. -/
theorem World.WF.addThing (hw : w.WF types) (c : Cylinder) (index : ℤ) {x : ℕ}
    (hx : ∀ d, x ∉ w.contents d) (hlive : x < w.size) : (addThing types w c index x).WF types := by
  by_cases hacc : Accepts types w c index x
  · exact hw.of_added hx hlive (addThing_added hacc)
  · cases addThing_spoiled hw hx hacc with
    | dropped hcontents hbody hsize hstack => exact hw.of_dropped hcontents hbody hsize hstack
    | replaced w₀ y _ _ _ htaken hadded =>
      refine (hw.of_taken htaken).of_added (fun d hd => ?_) (htaken.size ▸ hlive) hadded
      exact hx d ((htaken.mem d x).1 hd).1

/-! ## New items -/

/-- A new item without contents changes no contents. -/
theorem World.WF.contents_create_empty (hw : w.WF types) {i : Item} (hi : ∀ c ∈ i.container, c.itemlist = [])
    (d : Cylinder) : (w.create i).contents d = w.contents d := by
  cases d with
  | item n =>
    by_cases hn : n = w.size
    · subst hn
      cases hc : i.container with
      | none => simp [World.contents, World.itemlist, World.create, hc, hw.fresh w.size le_rfl]
      | some c =>
        simp [World.contents, World.itemlist, World.create, hc, hw.fresh w.size le_rfl, hi c hc]
    · simp [World.contents, World.itemlist, World.create, hn]
  | player p => rfl
  | tile t => rfl

theorem World.WF.contents_create (hw : w.WF types) {i : Item} (hi : i.container = none)
    (d : Cylinder) : (w.create i).contents d = w.contents d :=
  hw.contents_create_empty (by simp [hi]) d

@[simp] theorem World.items_create_self (w : World) (i : Item) :
    (w.create i).items w.size = i := by simp [World.create]

theorem World.items_create_of_ne (w : World) (i : Item) {n : ℕ} (hn : n ≠ w.size) :
    (w.create i).items n = w.items n := by simp [World.create, Function.update_of_ne hn]

/-- Worlds stay well-formed when an item without contents is created. -/
theorem World.WF.create_empty (hw : w.WF types) {i : Item} (hi : ∀ c ∈ i.container, c.itemlist = [])
    (hstack : i.isStackable types = true → i.container = none) : (w.create i).WF types := by
  have hitem : ∀ c y, y ∈ w.contents c → (w.create i).items y = w.items y := fun c y hy =>
    w.items_create_of_ne i (hw.live c y hy).ne
  refine ⟨fun c => hw.contents_create_empty hi c ▸ hw.nodup c, fun c d y hc hd => ?_, fun c y hy => ?_,
    fun n hn => ?_, fun y hy => ?_, fun t y hy => ?_, fun t y hy => ?_⟩
  · rw [hw.contents_create_empty hi] at hc hd
    exact hw.unique c d y hc hd
  · rw [hw.contents_create_empty hi] at hy
    exact (hw.live c y hy).trans (Nat.lt_succ_self _)
  · have hn' : w.size < n := hn
    rw [w.items_create_of_ne i hn'.ne']
    exact hw.fresh n hn'.le
  · rcases eq_or_ne y w.size with rfl | hne
    · rw [w.items_create_self] at hy ⊢
      exact hstack hy
    · rw [w.items_create_of_ne i hne] at hy ⊢
      exact hw.stack y hy
  · rw [hitem (.tile t) y (w.mem_contents_tile.2 (Or.inr (Or.inl hy)))]
    exact hw.top t y hy
  · rw [hitem (.tile t) y (w.mem_contents_tile.2 (Or.inr (Or.inr hy)))]
    exact hw.down t y hy

theorem World.WF.create (hw : w.WF types) {i : Item} (hi : i.container = none) : (w.create i).WF types :=
  hw.create_empty (by simp [hi]) fun _ => hi

/-! ## No change brings back an item -/

theorem World.mem_contents_setItemlist {w : World} {n y : ℕ} {l : List ℕ} {d : Cylinder}
    (h : y ∈ (w.setItemlist n l).contents d) : y ∈ w.contents d ∨ d = .item n ∧ y ∈ l := by
  cases hn : (w.items n).container with
  | none =>
    have hsame : w.setItemlist n l = w.setItem n (w.items n) := by
      simp only [World.setItemlist, hn, Option.map_none]
      rw [← hn]
    rw [hsame, World.contents_setItem_of_container _ rfl] at h
    exact Or.inl h
  | some k =>
    rw [World.contents_setItemlist _ (by simp [hn])] at h
    split_ifs at h with hd
    · exact Or.inr ⟨hd, h⟩
    · exact Or.inl h

theorem World.mem_contents_setSlot {w : World} {p slot y : ℕ} {x : Option ℕ} {d : Cylinder}
    (h : y ∈ (w.setSlot p slot x).contents d) : y ∈ w.contents d ∨ x = some y := by
  by_cases hd : d = .player p
  · subst hd
    obtain ⟨i, hi, hy⟩ := (World.mem_contents_player _).1 h
    have hinv : ((w.setSlot p slot x).players p).inventory =
        Function.update (w.players p).inventory slot x := by
      simp [World.setSlot, World.setPlayer]
    rw [hinv] at hy
    rcases eq_or_ne i slot with rfl | hne
    · exact Or.inr (by simpa using hy)
    · rw [Function.update_of_ne hne] at hy
      exact Or.inl (w.mem_contents_player.2 ⟨i, hi, hy⟩)
  · exact Or.inl (w.contents_setSlot_of_ne hd slot x ▸ h)

/-- What is on a tile after an update was there or comes with the update. -/
theorem World.mem_contents_setTile {w : World} {t y : ℕ} {tile : Tile} {d : Cylinder}
    (h : y ∈ (w.setTile t tile).contents d) : y ∈ w.contents d ∨ d = .tile t ∧
      (tile.ground = some y ∨ y ∈ tile.topItems ∨ y ∈ tile.downItems) := by
  rw [World.contents_setTile] at h
  split_ifs at h with hd
  · exact Or.inr ⟨hd, by simpa [or_assoc] using h⟩
  · exact Or.inl h

theorem Tile.mem_of_removeThing {t x k y : ℕ} {d : Cylinder}
    (h : y ∈ (Tile.removeThing types w t x k).contents d) : y ∈ w.contents d := by
  have hparent : ∀ {tile : Tile}, y ∈ ((w.setParent x none).setTile t tile).contents d →
      (tile.ground = some y ∨ y ∈ tile.topItems ∨ y ∈ tile.downItems → y ∈ w.contents (.tile t)) →
        y ∈ w.contents d := by
    intro tile hy hsub
    rcases World.mem_contents_setTile hy with hold | ⟨rfl, hnew⟩
    · rwa [w.contents_setParent] at hold
    · exact hsub hnew
  unfold Tile.removeThing at h
  dsimp only at h
  split_ifs at h
  · exact h
  · refine hparent h fun hy => w.mem_contents_tile.2 ?_
    exact hy.elim nofun Or.inr
  · unfold Tile.removeItem at h
    dsimp only at h
    split_ifs at h
    · refine hparent h fun hy => w.mem_contents_tile.2 ?_
      exact hy.imp_right fun hy => hy.imp_left List.mem_of_mem_erase
    · exact h
    · rwa [World.contents_setItem_of_container] at h
      rfl
    · refine hparent h fun hy => w.mem_contents_tile.2 ?_
      exact hy.imp_right fun hy => hy.imp_right List.mem_of_mem_erase
    · exact h

/-- `removeThing` puts nothing anywhere. -/
theorem mem_of_removeThing {c d : Cylinder} {x k y : ℕ}
    (h : y ∈ (removeThing types w c x k).contents d) : y ∈ w.contents d := by
  cases c with
  | item n =>
    simp only [removeThing] at h
    split_ifs at h
    · exact h
    · rwa [World.contents_setItem_of_container] at h
      rfl
    · rcases World.mem_contents_setItemlist h with hold | ⟨rfl, hnew⟩
      · rwa [w.contents_setParent] at hold
      · exact List.mem_of_mem_erase hnew
  | player p =>
    simp only [removeThing] at h
    split_ifs at h
    · exact h
    · rwa [World.contents_setItem_of_container] at h
      rfl
    · rcases World.mem_contents_setSlot h with h | h
      · rwa [w.contents_setParent] at h
      · exact absurd h nofun
  | tile t => exact Tile.mem_of_removeThing h

theorem Tile.mem_of_insertItem {t x y : ℕ} {d : Cylinder}
    (h : y ∈ (Tile.insertItem types w t x).contents d) : y ∈ w.contents d ∨ y = x :=
  (((insertItem_added w t x).mem d y).1 h).imp_right fun h => h.2

theorem Tile.mem_of_addThing {t x y : ℕ} {d : Cylinder}
    (h : y ∈ (Tile.addThing types w t x).contents d) : y ∈ w.contents d ∨ y = x := by
  have hground : ∀ {w' : World} {tile : Tile}, y ∈ (w'.setTile t tile).contents d →
      (y ∈ w'.contents d → y ∈ w.contents d) → tile.topItems = (w.tiles t).topItems →
        tile.downItems = (w.tiles t).downItems → tile.ground = some x →
          y ∈ w.contents d ∨ y = x := by
    intro w' tile hy hsub htop hdown hx
    rcases World.mem_contents_setTile hy with hold | ⟨rfl, hnew⟩
    · exact Or.inl (hsub hold)
    · rw [hx, htop, hdown] at hnew
      rcases hnew with hnew | hnew
      · exact Or.inr (Option.some.inj hnew).symm
      · exact Or.inl (w.mem_contents_tile.2 (Or.inr hnew))
  unfold Tile.addThing at h
  dsimp only at h
  split_ifs at h
  · exact Or.inl h
  · cases hold : (w.tiles t).ground with
    | none =>
      rw [hold] at h
      exact hground h (by simp) rfl rfl rfl
    | some old =>
      rw [hold] at h
      exact hground h (by simp) rfl rfl rfl
  · cases hold : replacedItem types w (w.tiles t) x with
    | none =>
      rw [hold] at h
      simpa using Tile.mem_of_insertItem h
    | some old =>
      rw [hold] at h
      dsimp only at h
      split_ifs at h
      · simpa using Or.inl h
      · rcases Tile.mem_of_insertItem h with h | h
        · rw [World.contents_setParent] at h
          simpa using Or.inl (Tile.mem_of_removeThing h)
        · exact Or.inr h

/-- `addThing` puts nothing in but its item. -/
theorem mem_of_addThing {c d : Cylinder} {index : ℤ} {x y : ℕ}
    (h : y ∈ (addThing types w c index x).contents d) : y ∈ w.contents d ∨ y = x := by
  cases c with
  | item n =>
    simp only [addThing, Container.addThing] at h
    cases hn : (w.items n).container with
    | none =>
      rw [hn] at h
      exact Or.inl h
    | some k =>
      rw [hn] at h
      dsimp only at h
      split_ifs at h
      · exact Or.inl h
      · rcases World.mem_contents_setItemlist h with hold | ⟨rfl, hnew⟩
        · rw [w.contents_setParent] at hold
          exact Or.inl hold
        · rcases List.mem_cons.1 hnew with hnew | hnew
          · exact Or.inr hnew
          · exact Or.inl (by simpa [World.contents, World.itemlist, hn] using hnew)
  | player p =>
    simp only [addThing, Player.addThing] at h
    split_ifs at h
    · exact Or.inl h
    · rcases World.mem_contents_setSlot h with h | h
      · rw [w.contents_setParent] at h
        exact Or.inl h
      · exact Or.inr (Option.some.inj h).symm
  | tile t => exact Tile.mem_of_addThing h

theorem Item.container_setSubType (x : Item) (types : ItemTypes) (n : ℕ) :
    (x.setSubType types n).container = x.container := by
  simp only [Item.setSubType]
  split_ifs <;> rfl

/-- `updateThing` moves nothing. -/
theorem mem_of_updateThing {c d : Cylinder} {x id n y : ℕ}
    (h : y ∈ (updateThing types w c x id n).contents d) : y ∈ w.contents d := by
  have hitem : ∀ d, (w.setItem x ({ w.items x with id := id }.setSubType types n)).contents d =
      w.contents d := fun d =>
    World.contents_setItem_of_container w
      (Item.container_setSubType { w.items x with id := id } types n) d
  unfold updateThing at h
  split_ifs at h
  · exact h
  · cases c with
    | item m => exact hitem d ▸ h
    | player p => exact hitem d ▸ h
    | tile t =>
      rcases World.mem_contents_setTile h with hold | ⟨rfl, hnew⟩
      · exact hitem d ▸ hold
      · exact w.mem_contents_tile.2 hnew

/-- A new item lies nowhere. -/
theorem World.mem_of_create {i : Item} (hi : i.container = none) {d : Cylinder} {y : ℕ}
    (h : y ∈ (w.create i).contents d) : y ∈ w.contents d := by
  rw [w.contents_create hi] at h
  split_ifs at h
  · exact absurd h List.not_mem_nil
  · exact h

/-- `updateThing` changes no floors. -/
theorem floorChange_updateThing (c : Cylinder) (x id n t : ℕ) :
    ((updateThing types w c x id n).tiles t).floorChange = (w.tiles t).floorChange := by
  simp only [updateThing]
  split_ifs
  · rfl
  · cases c with
    | item m => rfl
    | player p => rfl
    | tile u =>
      rcases eq_or_ne t u with rfl | hu
      · simp [World.setTile]
      · simp [World.setTile, Function.update_of_ne hu]
        rfl

/-- Only `create` makes the heap larger. -/
@[simp] theorem size_removeThing (w : World) (c : Cylinder) (x k : ℕ) :
    (removeThing types w c x k).size = w.size := by
  cases c with
  | item n =>
    simp only [removeThing]
    split_ifs <;> rfl
  | player p =>
    simp only [removeThing]
    split_ifs <;> rfl
  | tile t =>
    simp only [removeThing, Tile.removeThing, Tile.removeItem]
    split_ifs <;> rfl

@[simp] theorem size_addThing (w : World) (c : Cylinder) (index : ℤ) (x : ℕ) :
    (addThing types w c index x).size = w.size := by
  cases c with
  | item n =>
    simp only [addThing, Container.addThing]
    cases (w.items n).container with
    | none => rfl
    | some k =>
      dsimp only
      split_ifs <;> rfl
  | player p =>
    simp only [addThing, Player.addThing]
    split_ifs <;> rfl
  | tile t =>
    have hinsert : ∀ w' : World, (Tile.insertItem types w' t x).size = w'.size := by
      intro w'
      simp only [Tile.insertItem]
      split_ifs <;> rfl
    have hremove : ∀ (w' : World) y k, (Tile.removeThing types w' t y k).size = w'.size :=
      fun w' y k => size_removeThing w' (.tile t) y k
    simp only [addThing, Tile.addThing]
    split_ifs
    · rfl
    · cases (w.tiles t).ground <;> rfl
    · cases replacedItem types w (w.tiles t) x with
      | none => exact hinsert _
      | some old =>
        dsimp only
        split_ifs
        · rfl
        · rw [hinsert, World.size_setParent, hremove, World.size_setParent]

@[simp] theorem size_updateThing (w : World) (c : Cylinder) (x id n : ℕ) :
    (updateThing types w c x id n).size = w.size := by
  simp only [updateThing]
  split_ifs
  · rfl
  · cases c <;> rfl

end TiabloServer.Items
