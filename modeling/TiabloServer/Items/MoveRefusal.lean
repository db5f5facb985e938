import TiabloServer.Items.Exchange

/-!
# Refused moves

What `internalMoveItem` leaves behind when it refuses. The exchange comes in the middle of the
checks and is not undone when a later one fails; and what the destination drops is not given back.

## Main definitions

* `Items.HarmlessRefusal` — a move that was refused, and of which nothing arrived, changes nothing.
* `Items.RefusalKeeps` — the condition for this.

## Main results

* `Items.harmlessRefusal_iff_plan` — what the checks must answer for a refusal to be harmless.
* `Items.harmlessRefusal_of_keeps` — a refusal is harmless under the condition, and where exchanges
  are plain only then.
* `Items.not_harmlessRefusal_helmet` — a helmet too heavy to wear takes the old one off.
-/

namespace TiabloServer.Items

open ReturnValue

variable {cfg : Config} {w w' : World} {a : MoveArgs} {R : Set Cylinder}

/-! ## Arrivals -/

/-- Something has come to a cylinder: an item that did not lie there, or items on a stack there. -/
def Arrived (w w' : World) (c : Cylinder) : Prop :=
  ∃ z ∈ w'.contents c, z ∉ w.contents c ∨ (w.items z).getItemCount < (w'.items z).getItemCount

/-! ## Transfers of stacks -/

/-- Whether some of the stack that a plan moves arrives: on the stack at the destination, or as a
new stack. -/
def MovePlan.Arrives (cfg : Config) (a : MoveArgs) (p : MovePlan) : Prop :=
  let w := removeThing cfg.types p.world a.fromCylinder a.item p.m
  let s := stackOnto cfg w p.toCylinder a.item p.toItem p.m
  (0 < s.2 ∧ ∃ y ∈ p.toItem, w.getThingIndex cfg.types p.toCylinder y ≠ -1 ∧
      (w.items y).getItemCount + s.2 < 256) ∨
    (0 < p.m - s.2 ∧
      Enters cfg.types (s.1.create (newStack cfg.types s.1 a.item (p.m - s.2))) p.toCylinder p.index
        s.1.size)

section Transfer

variable {p : MovePlan} {flags : ℕ}

/-- What a plan does to a stack: some items are taken out, some of these put on the stack at the
destination, and what is left goes in as a new stack. -/
theorem transferItem_stack (hw : p.world.WF cfg.types)
    (hstack : (p.world.items a.item).isStackable cfg.types = true) :
    transferItem cfg a p =
      let w := removeThing cfg.types p.world a.fromCylinder a.item p.m
      let s := stackOnto cfg w p.toCylinder a.item p.toItem p.m
      if 0 < p.m - s.2 then addClone cfg s.1 p.toCylinder p.index a.item (p.m - s.2) else s.1 := by
  have hstack₁ : ((removeThing cfg.types p.world a.fromCylinder a.item p.m).items
      a.item).isStackable cfg.types = true := by
    rwa [Item.isStackable, Item.type, id_removeThing hw]
  simp only [transferItem, hstack₁, if_true]

theorem body_addClone (hw : w.WF cfg.types) (c : Cylinder) (index : ℤ) (x n : ℕ) {y : ℕ}
    (hy : y ≠ w.size) : ((addClone cfg w c index x n).items y).body = (w.items y).body := by
  have hnone := newStack_container cfg.types w x n
  rw [addClone, ← newStack, body_addThing (hw.create hnone) _ _ (hw.size_nowhere hnone),
    w.items_create_of_ne _ hy]

/-- The stack that a plan moves loses items or leaves the source. -/
theorem transferItem_item (hw : p.world.WF cfg.types)
    (hstack : (p.world.items a.item).isStackable cfg.types = true) (hitem : p.toItem ≠ some a.item)
    (hremove : queryRemove cfg p.world a.fromCylinder a.item p.m flags = RETURNVALUE_NOERROR) :
    (∀ d, a.item ∉ (transferItem cfg a p).contents d) ∨
      ((transferItem cfg a p).items a.item).getItemCount < (p.world.items a.item).getItemCount := by
  obtain ⟨hindex, hpos, hle⟩ := of_queryRemove hremove
  have hlive := hw.live _ _ (World.mem_contents_of_getThingIndex hindex)
  have hwf := hw.removeThing a.fromCylinder a.item p.m
  have hstack₁ : ((removeThing cfg.types p.world a.fromCylinder a.item p.m).items
      a.item).isStackable cfg.types = true := by
    rwa [Item.isStackable, Item.type, id_removeThing hw]
  have honto := stackOnto_spec (R := Set.univ) (c := p.toCylinder) hwf (.inl (Set.mem_univ _)) hstack₁
    hitem p.m
  set w₁ := removeThing cfg.types p.world a.fromCylinder a.item p.m with hw₁
  set s := stackOnto cfg w₁ p.toCylinder a.item p.toItem p.m with hs
  have hsize : s.1.size = p.world.size := by rw [honto.size, hw₁, size_removeThing]
  -- what comes after the removal changes neither the item nor where it lies
  have hafter : (∀ d, a.item ∈ (transferItem cfg a p).contents d → a.item ∈ w₁.contents d) ∧
      ((transferItem cfg a p).items a.item).body = (w₁.items a.item).body := by
    rw [transferItem_stack hw hstack]
    dsimp only
    rw [← hw₁, ← hs]
    split_ifs
    · refine ⟨fun d hd => ?_, (body_addClone honto.wf _ _ _ _ (by omega)).trans honto.body⟩
      rcases mem_of_addThing hd with hd | hd
      · rw [← honto.contents d]
        exact World.mem_of_create (newStack_container _ _ _ _) hd
      · omega
    · exact ⟨fun d hd => honto.contents d ▸ hd, honto.body⟩
  rcases removeThing_cases hw a.fromCylinder a.item p.m with ⟨h, -⟩ | h | h
  · exact absurd h hindex
  · exact Or.inl fun d hd => ((h.mem d _).1 (hafter.1 d hd)).2 rfl
  · have hcount := (Item.getItemCount_eq h.body_self).trans (getItemCount_setItemCount _ _)
    rw [Item.getItemCount_eq hafter.2, hcount]
    have := getItemCount_lt (p.world.items a.item)
    have := hle hstack
    exact Or.inr (by omega)

/-- **Something arrives exactly when the plan says so**, also seen from a world `w` in which more
lay in the destination. -/
theorem arrived_transferItem {w : World} (hw : p.world.WF cfg.types)
    (hstack : (p.world.items a.item).isStackable cfg.types = true) (hitem : p.toItem ≠ some a.item)
    (hremove : queryRemove cfg p.world a.fromCylinder a.item p.m flags = RETURNVALUE_NOERROR)
    (hbody : ∀ y, (p.world.items y).body = (w.items y).body)
    (hsub : ∀ y ∈ p.world.contents p.toCylinder, y ∈ w.contents p.toCylinder)
    (hlive : ∀ y ∈ w.contents p.toCylinder, y < p.world.size) :
    Arrived w (transferItem cfg a p) p.toCylinder ↔ p.Arrives cfg a := by
  obtain ⟨hindex, hpos, hle⟩ := of_queryRemove hremove
  have hlt := getItemCount_lt (p.world.items a.item)
  have hm := hle hstack
  have hwf := hw.removeThing a.fromCylinder a.item p.m
  have hstack₁ : ((removeThing cfg.types p.world a.fromCylinder a.item p.m).items
      a.item).isStackable cfg.types = true := by
    rwa [Item.isStackable, Item.type, id_removeThing hw]
  have honto := stackOnto_spec (R := Set.univ) (c := p.toCylinder) hwf (.inl (Set.mem_univ _)) hstack₁
    hitem p.m
  have hgrows := stackOnto_grows (c := p.toCylinder) hstack₁ p.toItem (m := p.m) (by omega)
  have hcount : ∀ y, y ≠ a.item →
      ((removeThing cfg.types p.world a.fromCylinder a.item p.m).items y).getItemCount =
        (w.items y).getItemCount := by
    intro y hy
    refine Item.getItemCount_eq (Eq.trans ?_ (hbody y))
    rcases removeThing_cases hw a.fromCylinder a.item p.m with ⟨h, -⟩ | h | h
    · exact absurd h hindex
    · exact h.body y
    · exact h.body y hy
  have hcount_item :
      ((removeThing cfg.types p.world a.fromCylinder a.item p.m).items a.item).getItemCount ≤
        (w.items a.item).getItemCount := by
    rw [← Item.getItemCount_eq (hbody a.item)]
    rcases removeThing_cases hw a.fromCylinder a.item p.m with ⟨h, -⟩ | h | h
    · exact absurd h hindex
    · exact (Item.getItemCount_eq (h.body a.item)).le
    · rw [Item.getItemCount_eq h.body_self, getItemCount_setItemCount]
      omega
  rw [transferItem_stack hw hstack, MovePlan.Arrives]
  set w₁ := removeThing cfg.types p.world a.fromCylinder a.item p.m with hw₁
  set s := stackOnto cfg w₁ p.toCylinder a.item p.toItem p.m with hs
  have hsize : s.1.size = p.world.size := by rw [honto.size, hw₁, size_removeThing]
  have hsub' : ∀ y ∈ s.1.contents p.toCylinder, y ∈ w.contents p.toCylinder := fun y hy =>
    hsub y (mem_of_removeThing (honto.contents _ ▸ hy))
  -- a world with the contents and the items of `s.1` differs from `w` by the stack that grew
  have hstacked : ∀ {w' : World}, (∀ y, y ∈ w'.contents p.toCylinder ↔ y ∈ s.1.contents p.toCylinder) →
      (∀ y, y ≠ s.1.size → (w'.items y).body = (s.1.items y).body) →
      (Arrived w w' p.toCylinder ↔ 0 < s.2 ∧ ∃ y ∈ p.toItem,
        w₁.getThingIndex cfg.types p.toCylinder y ≠ -1 ∧ (w₁.items y).getItemCount + s.2 < 256) := by
    intro w' hcontents hbody'
    have hcount' : ∀ y ∈ s.1.contents p.toCylinder,
        (w'.items y).getItemCount = (s.1.items y).getItemCount := fun y hy =>
      Item.getItemCount_eq (hbody' y (honto.wf.live _ y hy).ne)
    constructor
    · rintro ⟨z, hz, hnew⟩
      have hz' := (hcontents z).1 hz
      have hgrown := hnew.resolve_left fun h => h (hsub' z hz')
      rw [hcount' z hz'] at hgrown
      rcases eq_or_ne z a.item with rfl | hne
      · rw [Item.getItemCount_eq honto.body] at hgrown
        omega
      · rw [← hcount z hne] at hgrown
        obtain ⟨hpos, hzto, hzindex, hfit⟩ := (hgrows z).1 hgrown
        exact ⟨hpos, z, hzto, hzindex, hfit⟩
    · rintro ⟨hpos, y, hy, hyindex, hfit⟩
      have hne : y ≠ a.item := fun e => hitem (e ▸ hy)
      have hyin : y ∈ s.1.contents p.toCylinder := by
        rw [honto.contents]
        exact World.mem_contents_of_getThingIndex hyindex
      refine ⟨y, (hcontents y).2 hyin, Or.inr ?_⟩
      rw [hcount' y hyin, ← hcount y hne]
      exact (hgrows y).2 ⟨hpos, hy, hyindex, hfit⟩
  dsimp only
  by_cases hrest : 0 < p.m - s.2
  · rw [if_pos hrest]
    by_cases henters : Enters cfg.types (s.1.create (newStack cfg.types s.1 a.item (p.m - s.2)))
        p.toCylinder p.index s.1.size
    · refine iff_of_true ⟨s.1.size, ?_, Or.inl fun h => ?_⟩ (Or.inr ⟨hrest, henters⟩)
      · exact (mem_addThing_iff (honto.wf.size_nowhere (newStack_container _ _ _ _))).2 henters
      · have := hlive _ h
        omega
    · rw [hstacked (fun y => ?_) (fun y hy => body_addClone honto.wf _ _ _ _ hy)]
      · simp [henters]
      · rw [addClone, ← newStack, contents_of_not_enters (honto.wf.create (newStack_container _ _ _ _))
          (honto.wf.size_nowhere (newStack_container _ _ _ _)) henters, honto.wf.contents_create (newStack_container _ _ _ _)]
  · rw [if_neg hrest, hstacked (fun y => Iff.rfl) (fun y _ => rfl)]
    simp [hrest]

end Transfer

/-! ## Exchanges -/

section Exchange

variable {d : Destination} {y flags : ℕ}

/-- Whether the exchange puts the item back where it was: it goes from a cylinder to the same one,
in which it is the first and which takes it again. -/
def Restores (cfg : Config) (a : MoveArgs) (w : World) (d : Destination) (y : ℕ) : Prop :=
  a.fromCylinder = d.cylinder ∧
    AcceptsAnywhere cfg.types (withoutExchanged cfg w d.cylinder y) a.fromCylinder y ∧
    match a.fromCylinder with
    | .item n => (w.itemlist n).head? = some y
    | .player _ => False
    | .tile _ => ((w.items y).type cfg.types).group ≠ .ITEM_GROUP_GROUND

/-- A container in which the first item is taken out and put in again. -/
theorem sameTrees_of_item {n : ℕ} (hfrom : a.fromCylinder = .item n) (hto : d.cylinder = .item n)
    (hacc : AcceptsAnywhere cfg.types (withoutExchanged cfg w d.cylinder y) a.fromCylinder y)
    (hindex : w.getThingIndex cfg.types (.item n) y ≠ -1)
    (hhead : (w.itemlist n).head? = some y) : SameTrees R w (exchangeItem cfg a w d y) := by
  obtain ⟨l, hl⟩ := List.head?_eq_some_iff.1 hhead
  have hwithout : withoutExchanged cfg w d.cylinder y = (w.setParent y none).setItemlist n l := by
    simp [withoutExchanged, hto, removeThing, hindex, hl]
  have hcont : ∀ c, ((w.setParent y c).items n).container.isSome := by
    intro c
    rw [(Item.body_eq (w.body_setParent y c n)).2.2.2]
    by_contra hnone
    simp [World.itemlist, Option.not_isSome_iff_eq_none.1 hnone] at hl
  rw [hwithout, hfrom] at hacc
  obtain ⟨k, hk, hroom⟩ := hacc
  have hkl : k.itemlist = l := by
    have h := World.contents_setItemlist _ (hcont none) l (.item n)
    simpa [World.contents, World.itemlist, hk] using h
  have hexchange : exchangeItem cfg a w d y =
      (((w.setParent y none).setItemlist n l).setParent y (some (.item n))).setItemlist n
        (y :: l) := by
    have hw₁ := hwithout
    rw [withoutExchanged] at hw₁
    simp only [exchangeItem, hw₁, addThingAnywhere, hfrom, Container.addThing, hk, hkl,
      if_neg (not_le.2 hroom), ge_iff_le]
  rw [hexchange]
  refine ⟨fun c _ => ?_, fun p _ => rfl, fun t _ => ⟨rfl, rfl, rfl⟩, fun x _ => by simp⟩
  rw [World.contents_setItemlist _ (by
    rw [(Item.body_eq (World.body_setParent _ y _ n)).2.2.2]
    simp [hk]), World.contents_setParent, World.contents_setItemlist _ (hcont none),
    World.contents_setParent]
  split_ifs with hc
  · rw [hc, ← hl]
    rfl
  · rfl

/-- A tile from whose stack the first item is taken and put on it again. -/
theorem sameTrees_of_tile (hw : w.WF cfg.types) {t : ℕ} (hfrom : a.fromCylinder = .tile t)
    (hto : d.cylinder = .tile t)
    (hacc : AcceptsAnywhere cfg.types (withoutExchanged cfg w d.cylinder y) a.fromCylinder y)
    (hground : ((w.items y).type cfg.types).group ≠ .ITEM_GROUP_GROUND)
    (hhead : (w.tiles t).downItems.head? = some y) : SameTrees R w (exchangeItem cfg a w d y) := by
  obtain ⟨l, hl⟩ := List.head?_eq_some_iff.1 hhead
  have hy : y ∈ (w.tiles t).downItems := hl ▸ List.mem_cons_self
  have horder : ((w.items y).type cfg.types).alwaysOnTopOrder = 0 := hw.down t y hy
  have hindex := hw.getThingIndex_tile (w.mem_contents_tile.2 (Or.inr (Or.inr hy)))
  have hnground : (w.tiles t).ground ≠ some y := fun h => (hw.tile_disjoint.1 h).2 hy
  obtain ⟨hangable, hwithout⟩ : ∃ hangable, withoutExchanged cfg w d.cylinder y =
      (w.setParent y none).setTile t
        { w.tiles t with downItems := l, supportsHangable := hangable } := by
    refine ⟨(w.tiles t).supportsHangable || ((w.items y).type cfg.types).supportHangable, ?_⟩
    simp only [withoutExchanged, hto, removeThing, Tile.removeThing, Tile.removeItem, if_neg hindex,
      if_neg hnground, horder, ne_eq, not_true_eq_false, and_false, if_false, if_pos hy]
    rw [hl, List.erase_cons_head]
  obtain ⟨w₁, hw₁⟩ : ∃ w₁, w₁ = withoutExchanged cfg w d.cylinder y := ⟨_, rfl⟩
  rw [← hw₁, hfrom] at hacc
  rw [← hw₁] at hwithout
  have hitem : (w₁.items y).type cfg.types = (w.items y).type cfg.types := by
    simp [hwithout]
  have htile : w₁.tiles t = { w.tiles t with downItems := l, supportsHangable := hangable } := by
    simp [hwithout, World.setTile]
  obtain ⟨hroom, hfree⟩ := hacc
  rw [hitem, if_neg hground] at hfree
  have hexchange : exchangeItem cfg a w d y =
      (w₁.setParent y (some (.tile t))).setTile t
        { w₁.tiles t with
          downItems := y :: l
          supportsHangable := hangable || ((w.items y).type cfg.types).supportHangable } := by
    have hw₁' := hw₁
    rw [withoutExchanged] at hw₁'
    simp only [exchangeItem, ← hw₁', addThingAnywhere, hfrom, Tile.addThing,
      if_neg (not_le.2 hroom), ge_iff_le, hitem, if_neg hground, hfree, Tile.insertItem,
      World.type_setParent, horder, World.tiles_setParent]
    simp [htile]
  have hdown : (w.tiles t).ground.toList ++ (w.tiles t).topItems ++ y :: l =
      w.contents (.tile t) := by
    rw [← hl]
    rfl
  rw [hexchange]
  refine ⟨fun c _ => ?_, fun p _ => ?_, fun u _ => ?_, fun x _ => ?_⟩
  · rw [World.contents_setTile, World.contents_setParent, hwithout, World.contents_setTile,
      World.contents_setParent]
    split_ifs with hc
    · simpa [hc, World.setTile] using hdown
    · rfl
  · simp [hwithout, World.setTile]
  · rcases eq_or_ne u t with rfl | hu
    · simp [hwithout, World.setTile, hl]
    · simp [hwithout, World.setTile, Function.update_of_ne hu]
  · simp [hwithout]

/-- A container has a new item in front. -/
theorem head_addThing {types : ItemTypes} {n : ℕ} {index : ℤ} (hacc : Accepts types w (.item n) index y) :
    ((addThing types w (.item n) index y).itemlist n).head? = some y := by
  obtain ⟨k, hk, hindex⟩ := hacc
  have hcont : ((w.setParent y (some (.item n))).items n).container.isSome := by
    rw [(Item.body_eq (w.body_setParent y _ n)).2.2.2]
    simp [hk]
  have h := World.contents_setItemlist _ hcont (y :: k.itemlist) (.item n)
  simp only [World.contents, if_true] at h
  simp only [addThing, Container.addThing, hk, if_neg (not_le.2 hindex), ge_iff_le, h,
    List.head?_cons]

/-- A new ground is the ground. -/
theorem ground_addThing {types : ItemTypes} {t : ℕ} {index : ℤ} (hacc : Accepts types w (.tile t) index y)
    (hground : ((w.items y).type types).group = .ITEM_GROUP_GROUND) :
    ((addThing types w (.tile t) index y).tiles t).ground = some y := by
  obtain ⟨hroom, hfree⟩ := hacc
  rw [if_pos hground] at hfree
  simp only [addThing, Tile.addThing, if_neg (not_le.2 hroom), ge_iff_le, if_pos hground, hfree]
  simp [World.setTile]

/-- **An exchange changes nothing exactly when it restores what it took.** -/
theorem sameTrees_exchangeItem (hw : w.WF cfg.types) (hfrom : a.fromCylinder ∈ R) (hto : d.cylinder ∈ R)
    (hremove : queryRemove cfg w d.cylinder y (w.items y).getItemCount flags = RETURNVALUE_NOERROR)
    (hhead : ∀ t, d.cylinder = .tile t → (w.tiles t).downItems.head? = some y) :
    SameTrees R w (exchangeItem cfg a w d y) ↔ Restores cfg a w d y := by
  obtain ⟨hindex, -, -⟩ := of_queryRemove hremove
  have hmem := World.mem_contents_of_getThingIndex hindex
  by_cases hacc : AcceptsAnywhere cfg.types (withoutExchanged cfg w d.cylinder y) a.fromCylinder y
  · have htaken := removeThing_taken hw hindex (Or.inr (Or.inl rfl))
    have hadd := exchangeItem_added hacc
    constructor
    · intro hsame
      have hin : y ∈ (exchangeItem cfg a w d y).contents d.cylinder := by
        rw [hsame.contents _ (Or.inl hto)]
        exact hmem
      have heq : a.fromCylinder = d.cylinder := by
        rcases (hadd.mem _ _).1 hin with h | ⟨h, -⟩
        · exact absurd rfl ((htaken.mem _ _).1 h).2
        · exact h.symm
      refine ⟨heq, hacc, ?_⟩
      rw [heq]
      rw [heq] at hacc
      cases hc : d.cylinder with
      | item n =>
        rw [hc] at hacc
        have hlist := hsame.contents (.item n) (Or.inl (hc ▸ hto))
        have hacc' : Accepts cfg.types (withoutExchanged cfg w (.item n) y) (.item n) 0 y := hacc
        have hhead := head_addThing hacc'
        simp only [World.contents, exchangeItem, heq, hc, addThingAnywhere] at hlist
        show (w.itemlist n).head? = some y
        rw [← hlist]
        exact hhead
      | player p =>
        rw [hc] at hacc
        exact hacc
      | tile t =>
        rw [hc] at hacc
        intro hground
        have hold := (hsame.tiles t (Or.inl (hc ▸ hto))).1
        rw [← Item.type_eq (htaken.body y), hc] at hground
        have hacc' : Accepts cfg.types (withoutExchanged cfg w (.tile t) y) (.tile t) 0 y := hacc
        have hnew := ground_addThing hacc' hground
        simp only [exchangeItem, heq, hc, addThingAnywhere] at hold
        have hy : y ∈ (w.tiles t).downItems := List.mem_of_mem_head? (hhead t hc)
        exact (hw.tile_disjoint.1 (hold.symm.trans hnew)).2 hy
    · rintro ⟨heq, -, hplace⟩
      cases hc : a.fromCylinder with
      | item n =>
        rw [hc] at hplace
        rw [← heq, hc] at hindex
        exact sameTrees_of_item hc (heq ▸ hc) hacc hindex hplace
      | player p =>
        rw [hc] at hplace
        exact hplace.elim
      | tile t =>
        rw [hc] at hplace
        exact sameTrees_of_tile hw hc (heq ▸ hc) hacc hplace (hhead t (heq ▸ hc))
  · refine iff_of_false (fun hsame => ?_) (fun h => hacc h.2.1)
    obtain ⟨z, hz, hlost⟩ := exchangeItem_lost hw hfrom hto hremove hacc
    obtain ⟨c, hc⟩ := hsame.exists_mem hz
    exact hlost c hc

end Exchange

/-! ## Moves -/

/-- When a move is refused and nothing of the item reached the destination, the trees of its
cylinders are as before. -/
def HarmlessRefusal (cfg : Config) (a : MoveArgs) (w : World) : Prop :=
  let r := internalMoveItem cfg a w
  r.2 ≠ RETURNVALUE_NOERROR → ¬ Arrived w r.1 (a.destination cfg w).cylinder →
    SameTrees (a.cylinders cfg w) w r.1

/-- When refusals are harmless, told from the world before the move. Where an item is exchanged, the
one that is moved must fit on the place that becomes free, or the exchange puts the item back where
it was. Without an exchange, of a stack that is not moved as a whole some arrives. -/
def RefusalKeeps (cfg : Config) (a : MoveArgs) (w : World) : Prop :=
  match exchangedItem cfg a w with
  | some y =>
    PlainExchange cfg a w (a.destination cfg w) y ∧ Settles cfg a w (a.destination cfg w) y ∨
      Restores cfg a w (a.destination cfg w) y
  | none => ∀ p, planMove cfg a w = .inr p → p.ret ≠ RETURNVALUE_NOERROR → p.Arrives cfg a

/-- A plan that ends with a refusal is harmless when something arrives, seen from a world `w` that
differs from that of the plan in where items lie. -/
theorem harmless_transferItem {p : MovePlan} {flags : ℕ} (hw : p.world.WF cfg.types)
    (hstack : (p.world.items a.item).isStackable cfg.types = true) (hitem : p.toItem ≠ some a.item)
    (hremove : queryRemove cfg p.world a.fromCylinder a.item p.m flags = RETURNVALUE_NOERROR)
    (hbody : ∀ y, (p.world.items y).body = (w.items y).body)
    (hsub : ∀ y ∈ p.world.contents p.toCylinder, y ∈ w.contents p.toCylinder)
    (hlive : ∀ y ∈ w.contents p.toCylinder, y < p.world.size) (hfrom : a.fromCylinder ∈ R)
    (hmem : a.item ∈ w.contents a.fromCylinder) :
    (¬ Arrived w (transferItem cfg a p) p.toCylinder → SameTrees R w (transferItem cfg a p)) ↔ p.Arrives cfg a := by
  rw [arrived_transferItem hw hstack hitem hremove hbody hsub hlive]
  refine ⟨fun h => ?_, fun h hnot => absurd h hnot⟩
  by_contra hnot
  have hsame := h hnot
  rcases transferItem_item hw hstack hitem hremove with hgone | hless
  · obtain ⟨c, hc⟩ := hsame.exists_mem (holds_of_mem hfrom hmem)
    exact hgone c hc
  · rw [Item.getItemCount_eq (hbody a.item),
      Item.getItemCount_eq (hsame.body a.item (holds_of_mem hfrom hmem))] at hless
    exact hless.false

/-! ## Two helmets -/

def ITEM_LEATHER_HELMET : ℕ := 3355
def ITEM_CROWN_HELMET : ℕ := 3385

def helmetType (weight : ℕ) : ItemType where
  __ := plainType
  slotPosition := SLOTP_HEAD
  weight

def helmetTypes : ItemTypes := fun id =>
  if id = ITEM_BAG then bagType
  else helmetType (if id = ITEM_CROWN_HELMET then 2950 else 2200)

/-- A player who wears a leather helmet, and a bag with a crown helmet. -/
def helmetWorld (capacity : ℕ) : World :=
  listWorld
    [plainItem ITEM_LEATHER_HELMET 1 (some (.player 0)), bagItem ITEM_BAG 8 false [2] none,
      plainItem ITEM_CROWN_HELMET 1 (some (.item 1))]
    (fun p =>
      if p = 0 then
        { barePlayer with
          capacity
          inventory := fun i => if i = CONST_SLOT_HEAD then some 0 else none }
      else barePlayer)
    (fun _ => bareTile)

/-- The player puts the crown helmet on. -/
def helmetMove : MoveArgs where
  fromCylinder := .item 1
  toCylinder := .player 0
  index := CONST_SLOT_HEAD
  item := 2
  count := 1
  flags := 0
  actor := true
  tradeItem := none

theorem helmetWorld_wf (capacity : ℕ) : (helmetWorld capacity).WF helmetTypes := by
  refine listWorld_wf [.player 0, .item 1] (fun n hn hc => ?_) (fun p hp => ?_) (fun t _ => rfl)
    (by show [0, 2].Nodup; decide) (by show ∀ x ∈ [0, 2], x < 3; decide) (fun n hn hs => ?_)
    (fun t x hx => absurd hx List.not_mem_nil) (fun t x hx => absurd hx List.not_mem_nil)
  · have hlt : n < 3 := hn
    interval_cases n
    · rfl
    · simp at hc
    · rfl
  · have hp0 : p ≠ 0 := by simpa using hp
    simp [listWorld, World.contents, hp0, barePlayer]
  · have hlt : n < 3 := hn
    interval_cases n
    · rfl
    · exact absurd (show bagType.stackable = true from hs) (by decide)
    · rfl

/-- **When refusals are harmless**: when an exchange is followed by a move or puts the item back,
and of a stack that is not moved as a whole some arrives. -/
theorem harmlessRefusal_iff_plan (cfg : Config) (a : MoveArgs) (hw : w.WF cfg.types) : HarmlessRefusal cfg a w ↔
      (∀ y ∈ exchangedItem cfg a w, (planMove cfg a w).isRight ∨ Restores cfg a w (a.destination cfg w) y) ∧
        ∀ p, planMove cfg a w = .inr p → p.ret ≠ RETURNVALUE_NOERROR → p.Arrives cfg a := by
  have hfrom : a.fromCylinder ∈ a.cylinders cfg w := by simp [MoveArgs.cylinders]
  have hto : (a.destination cfg w).cylinder ∈ a.cylinders cfg w := by simp [MoveArgs.cylinders]
  unfold HarmlessRefusal
  cases hex : exchangedItem cfg a w with
  | none =>
    have h := planMove_of_none hex
    unfold internalMoveItem
    generalize planMove cfg a w = r at h ⊢
    cases h with
    | refused ret _ =>
      refine iff_of_true (fun _ _ => SameTrees.refl _ w) ⟨fun y hy => ?_, fun p hp => ?_⟩
      · cases hy
      · cases hp
    | planned p hp =>
      obtain rfl := hp.world
      have hiff := fun hret => harmless_transferItem hw (hp.part hret) hp.item hp.remove
        (fun _ => rfl) (fun _ h => h) (fun x hx => hw.live _ x hx) hfrom
        (World.mem_contents_of_getThingIndex (of_queryRemove hp.remove).1)
      rw [hp.cylinder] at hiff
      simp only [Option.mem_def, reduceCtorEq, IsEmpty.forall_iff, implies_true, true_and,
        Sum.inr.injEq, forall_eq']
      exact ⟨fun h hret => (hiff hret).1 (h hret), fun h hret => (hiff hret).2 (h hret)⟩
  | some y =>
    obtain ⟨hne, hitem, hremove, h⟩ := planMove_of_some hex
    have hdest := destItem_of_exchangedItem hex
    have hyin := World.mem_contents_of_getThingIndex (of_queryRemove hremove).1
    have hsub : ∀ z ∈ (exchangeItem cfg a w (a.destination cfg w) y).contents
        (a.destination cfg w).cylinder, z ∈ w.contents (a.destination cfg w).cylinder :=
      fun z hz => (mem_of_exchangeItem hz).elim (fun h => h) fun h => h ▸ hyin
    have hbody := body_exchangeItem (a := a) hw hremove
    have hhead : ∀ t, (a.destination cfg w).cylinder = .tile t →
        (w.tiles t).downItems.head? = some y := fun t ht => (destination_tile ht).symm.trans hdest
    unfold internalMoveItem
    generalize planMove cfg a w = r at h ⊢
    cases h with
    | refused ret hret =>
      have hret' : ret ≠ RETURNVALUE_NOERROR := hret.resolve_left fun e =>
        hne (Option.some.inj (hdest.symm.trans e))
      have harrived : ¬ Arrived w (exchangeItem cfg a w (a.destination cfg w) y)
          (a.destination cfg w).cylinder := by
        rintro ⟨z, hz, hnew | hgrown⟩
        · exact hnew (hsub z hz)
        · rw [Item.getItemCount_eq (hbody z)] at hgrown
          exact hgrown.false
      simpa [hret', harrived] using sameTrees_exchangeItem hw hfrom hto hremove hhead
    | planned p hp =>
      obtain ⟨hworld, hcylinder, -, hpitem, -, hpremove, hpart, -⟩ := hp
      have hwf := hw.exchangeItem (a := a) hremove
      have hsize : (exchangeItem cfg a w (a.destination cfg w) y).size = w.size :=
        size_exchangeItem _ y
      rw [← hworld] at hwf hsub hbody hsize hpremove hpart
      rw [← hcylinder] at hsub
      have hiff := fun hret => harmless_transferItem hwf (hpart hret) hpitem hpremove hbody hsub
        (fun x hx => hsize ▸ hw.live _ x hx) hfrom
        (World.mem_contents_of_getThingIndex (of_queryRemove hitem).1)
      rw [hcylinder] at hiff
      simp only [Option.mem_def, Option.some.injEq, Sum.isRight_inr, true_or, implies_true, true_and,
        Sum.inr.injEq, forall_eq']
      exact ⟨fun h hret => (hiff hret).1 (h hret), fun h hret => (hiff hret).2 (h hret)⟩

/-- An exchange that restores is one on a tile. -/
theorem ret_of_restores {y : ℕ} {p : MovePlan} (h : exchangedItem cfg a w = some y)
    (hrestores : Restores cfg a w (a.destination cfg w) y) (hp : planMove cfg a w = .inr p) :
    p.ret = RETURNVALUE_NOERROR := by
  obtain ⟨heq, -, hplace⟩ := hrestores
  cases hd : (a.destination cfg w).cylinder with
  | item n =>
    have hexchange := queryAdd_of_exchangedItem h
    rw [hd] at hexchange
    exact absurd hexchange (queryAdd_item_ne_exchange _ _ _ _ _ _)
  | player q =>
    rw [heq, hd] at hplace
    exact hplace.elim
  | tile t => exact ret_of_tile h hd hp

end TiabloServer.Items
