import TiabloServer.Items.MovePlan
import TiabloServer.Lib.Containment

/-!
# Parents

Every item names the cylinder in which it lies as its parent. This file shows that moves keep it so.

## Main definitions

* `Items.World.Linked` — every item that lies in a cylinder has it as its parent.

## Main results

* `Items.World.Linked.internalMoveItem` — moves keep the parents.
-/

namespace TiabloServer.Items

variable {types : ItemTypes} {w w' : World} {c : Cylinder} {x : ℕ}

/-- Every item that lies in a cylinder has it as its parent. -/
def World.Linked (w : World) : Prop := ∀ c x, x ∈ w.contents c → (w.items x).parent = some c

/-- Nothing new lies anywhere, and what lies somewhere keeps its parent. -/
theorem World.Linked.of_sub (h : w.Linked) (hmem : ∀ d y, y ∈ w'.contents d → y ∈ w.contents d)
    (hparent : ∀ d y, y ∈ w'.contents d → (w'.items y).parent = (w.items y).parent) : w'.Linked :=
  fun d y hy => (hparent d y hy).trans (h d y (hmem d y hy))

/-! ## Parents under the changes -/

theorem parent_setParent_of_ne {y : ℕ} (hy : y ≠ x) (d : Option Cylinder) :
    ((w.setParent x d).items y).parent = (w.items y).parent := by
  simp [World.setParent, World.setItem, Function.update_of_ne hy]

@[simp] theorem parent_setParent_self (d : Option Cylinder) : ((w.setParent x d).items x).parent = d := by
  simp [World.setParent, World.setItem]

@[simp] theorem parent_setItemlist (n : ℕ) (l : List ℕ) (y : ℕ) :
    ((w.setItemlist n l).items y).parent = (w.items y).parent := by
  rcases eq_or_ne y n with rfl | hy
  · simp [World.setItemlist, World.setItem]
  · simp [World.setItemlist, World.setItem, Function.update_of_ne hy]

theorem parent_setItem (i : Item) (hi : i.parent = (w.items x).parent) (y : ℕ) :
    ((w.setItem x i).items y).parent = (w.items y).parent := by
  rcases eq_or_ne y x with rfl | hy
  · simpa [World.setItem] using hi
  · simp [World.setItem, Function.update_of_ne hy]

theorem Item.parent_setSubType (i : Item) (types : ItemTypes) (n : ℕ) :
    (i.setSubType types n).parent = i.parent := by
  simp only [Item.setSubType]
  split_ifs <;> rfl

/-- `removeThing` changes no parent but that of its item. -/
theorem parent_removeThing {y : ℕ} (hy : y ≠ x) (c : Cylinder) (k : ℕ) :
    ((removeThing types w c x k).items y).parent = (w.items y).parent := by
  cases c with
  | item n =>
    simp only [removeThing]
    split_ifs
    · rfl
    · exact parent_setItem ((w.items x).setItemCount _) rfl y
    · rw [parent_setItemlist, parent_setParent_of_ne hy]
  | player p =>
    simp only [removeThing]
    split_ifs
    · rfl
    · exact parent_setItem ((w.items x).setItemCount _) rfl y
    · exact parent_setParent_of_ne hy none
  | tile t =>
    simp only [removeThing, Tile.removeThing, Tile.removeItem]
    split_ifs
    · rfl
    · exact parent_setParent_of_ne hy none
    · exact parent_setParent_of_ne hy none
    · rfl
    · exact parent_setItem ((w.items x).setItemCount _) rfl y
    · exact parent_setParent_of_ne hy none
    · rfl

/-- An item that `removeThing` leaves somewhere keeps its parent. -/
theorem parent_removeThing_self (hw : w.WF types) {d : Cylinder} {k : ℕ}
    (hx : x ∈ (removeThing types w c x k).contents d) :
    ((removeThing types w c x k).items x).parent = (w.items x).parent := by
  by_cases hindex : w.getThingIndex types c x = -1
  · rw [removeThing_of_index hindex]
  by_cases hk : (w.items x).isStackable types = false ∨ k = (w.items x).getItemCount ∨
      TakesAll types w c x
  · exact absurd rfl (((removeThing_taken hw hindex hk).mem d x).1 hx).2
  · obtain ⟨hstack, hpart⟩ := not_or.1 hk
    obtain ⟨hk, hall⟩ := not_or.1 hpart
    rw [removeThing_part hw hindex (by simpa using hstack) hk hall]
    exact parent_setItem ((w.items x).setItemCount _) rfl x

theorem World.Linked.removeThing (h : w.Linked) (hw : w.WF types) (c : Cylinder) (x k : ℕ) :
    (removeThing types w c x k).Linked := by
  refine h.of_sub (fun d y hy => mem_of_removeThing hy) fun d y hy => ?_
  rcases eq_or_ne y x with rfl | hne
  · exact parent_removeThing_self hw hy
  · exact parent_removeThing hne c k

theorem World.Linked.updateThing (h : w.Linked) (c : Cylinder) (x id n : ℕ) :
    (updateThing types w c x id n).Linked := by
  refine h.of_sub (fun d y hy => mem_of_updateThing hy) fun d y _ => ?_
  have hitem := parent_setItem (w := w) (x := x) _
    (Item.parent_setSubType { w.items x with id := id } types n) y
  unfold Items.updateThing
  split_ifs
  · rfl
  · cases c with
    | item m => exact hitem
    | player p => exact hitem
    | tile t => exact hitem

theorem World.Linked.create (h : w.Linked) (hw : w.WF types) {i : Item} (hi : i.container = none) :
    (w.create i).Linked := by
  refine h.of_sub (fun d y hy => World.mem_of_create hi hy) fun d y hy => ?_
  rw [w.items_create_of_ne i (hw.live d y (World.mem_of_create hi hy)).ne]

/-! ## Putting in -/

/-- A tile that takes an item in as it is becomes its parent. -/
theorem parent_insertItem (w : World) (t x y : ℕ) :
    ((Tile.insertItem types w t x).items y).parent = (w.items y).parent := by
  simp only [Tile.insertItem]
  split_ifs <;> rfl

/-- `addThing` changes no parent but those of its item and of the item that it replaces. -/
theorem parent_addThing {y : ℕ} (hy : y ≠ x) {index : ℤ}
    (hold : Enters types w c index x → y ∉ replacedBy types w c index x) :
    ((addThing types w c index x).items y).parent = (w.items y).parent := by
  cases c with
  | item n =>
    simp only [addThing, Container.addThing]
    cases (w.items n).container with
    | none => rfl
    | some k =>
      dsimp only
      split_ifs
      · rfl
      · rw [parent_setItemlist, parent_setParent_of_ne hy]
  | player p =>
    simp only [addThing, Player.addThing]
    split_ifs
    · rfl
    · exact parent_setParent_of_ne hy _
  | tile t =>
    simp only [addThing, Tile.addThing]
    by_cases hfull : (w.tiles t).downItems.length + (w.tiles t).topItems.length ≥ 0xFFFF
    · rw [if_pos hfull]
    by_cases hground : ((w.items x).type types).group = .ITEM_GROUP_GROUND
    · rw [if_neg hfull, if_pos hground]
      have hold := hold ⟨not_le.1 hfull, Or.inl hground⟩
      simp only [replacedBy, if_pos hground] at hold
      cases htile : (w.tiles t).ground with
      | none => exact parent_setParent_of_ne hy (some (.tile t))
      | some old =>
        have hne : y ≠ old := fun e => hold (e ▸ htile)
        exact (parent_setParent_of_ne hne none).trans (parent_setParent_of_ne hy (some (.tile t)))
    · rw [if_neg hfull, if_neg hground]
      cases hreplaced : replacedItem types w (w.tiles t) x with
      | none => exact (parent_insertItem _ t x y).trans (parent_setParent_of_ne hy _)
      | some old =>
        dsimp only
        split_ifs with hstays
        · exact parent_setParent_of_ne hy none
        · have henters : Enters types w (.tile t) index x := by
            refine ⟨not_le.1 hfull, Or.inr fun z hz hdown => ?_⟩
            obtain rfl := Option.some.inj (hreplaced.symm.trans hz)
            by_contra hnot
            exact hstays ⟨hdown, hnot⟩
          have hold := hold henters
          simp only [replacedBy, if_neg hground] at hold
          have hne : y ≠ old := fun e => hold (e ▸ hreplaced)
          rw [parent_insertItem, parent_setParent_of_ne hne]
          exact (parent_removeThing hne (.tile t) 1).trans (parent_setParent_of_ne hy _)

/-- The cylinder that `addThing` puts its item in becomes the parent of the item. -/
theorem parent_addThing_self (hw : w.WF types) (hx : ∀ d, x ∉ w.contents d) {index : ℤ} {d : Cylinder}
    (hin : x ∈ (addThing types w c index x).contents d) :
    ((addThing types w c index x).items x).parent = some c := by
  cases c with
  | item n =>
    simp only [addThing, Container.addThing] at hin ⊢
    cases hn : (w.items n).container with
    | none =>
      rw [hn] at hin
      exact absurd hin (hx d)
    | some k =>
      rw [hn] at hin
      dsimp only at hin ⊢
      split_ifs at hin ⊢
      · exact absurd hin (hx d)
      · rw [parent_setItemlist, parent_setParent_self]
  | player p =>
    simp only [addThing, Player.addThing] at hin ⊢
    split_ifs at hin ⊢
    · exact absurd hin (hx d)
    · exact parent_setParent_self _
  | tile t =>
    simp only [addThing, Tile.addThing] at hin ⊢
    by_cases hfull : (w.tiles t).downItems.length + (w.tiles t).topItems.length ≥ 0xFFFF
    · rw [if_pos hfull] at hin
      exact absurd hin (hx d)
    by_cases hground : ((w.items x).type types).group = .ITEM_GROUP_GROUND
    · rw [if_neg hfull, if_pos hground]
      cases htile : (w.tiles t).ground with
      | none => exact parent_setParent_self _
      | some old =>
        have hne : x ≠ old := fun e => hx (.tile t) (w.mem_contents_tile.2 (Or.inl (e ▸ htile)))
        exact (parent_setParent_of_ne hne none).trans (parent_setParent_self _)
    · rw [if_neg hfull, if_neg hground] at hin ⊢
      cases hreplaced : replacedItem types w (w.tiles t) x with
      | none => exact (parent_insertItem _ t x x).trans (parent_setParent_self _)
      | some old =>
        rw [hreplaced] at hin
        have hne : x ≠ old := fun e =>
          hx (.tile t) (e ▸ (replacedItem_taken hw hreplaced).1)
        dsimp only at hin ⊢
        split_ifs at hin ⊢
        · rw [World.contents_setParent] at hin
          exact absurd hin (hx d)
        · rw [parent_insertItem, parent_setParent_of_ne hne]
          exact (parent_removeThing hne (.tile t) 1).trans (parent_setParent_self _)

theorem World.Linked.addThing (h : w.Linked) (hw : w.WF types) (hx : ∀ d, x ∉ w.contents d)
    (hlive : x < w.size) (c : Cylinder) (index : ℤ) : (addThing types w c index x).Linked := by
  intro d y hy
  by_cases henters : Enters types w c index x
  · rcases eq_or_ne y x with rfl | hne
    · have hc : y ∈ (Items.addThing types w c index y).contents c := (mem_addThing_iff hx).2 henters
      rw [parent_addThing_self hw hx hy, (hw.addThing c index hx hlive).unique d c y hy hc]
    · have hold : y ∉ replacedBy types w c index x := by
        intro hreplaced
        by_cases hacc : Accepts types w c index x
        · rw [replacedBy_of_accepts hacc] at hreplaced
          exact nomatch hreplaced
        · cases addThing_spoiled hw hx hacc with
          | dropped hcontents _ _ _ =>
            exact hx c (hcontents c ▸ (mem_addThing_iff hx).2 henters)
          | replaced w₀ z hz _ _ htaken hadded =>
            obtain rfl := Option.some.inj (hz.symm.trans hreplaced)
            rcases (hadded.mem d z).1 hy with hy | ⟨-, hy⟩
            · exact ((htaken.mem d z).1 hy).2 rfl
            · exact hne hy
      rw [parent_addThing hne fun _ => hold]
      exact h d y ((mem_of_addThing hy).resolve_right hne)
  · rw [contents_of_not_enters hw hx henters] at hy
    have hne : y ≠ x := fun e => hx d (e ▸ hy)
    rw [parent_addThing hne fun h => absurd h henters]
    exact h d y hy

/-! ## Moves -/

section Moves

variable {cfg : Config} {a : MoveArgs}

theorem World.Linked.stackOnto (h : w.Linked) (c : Cylinder) (x m : ℕ) (toItem : Option ℕ) :
    (stackOnto cfg w c x toItem m).1.Linked := by
  unfold Items.stackOnto
  split
  · exact h
  · exact h.updateThing _ _ _ _

theorem World.Linked.addClone (h : w.Linked) (hw : w.WF cfg.types) (c : Cylinder) (index : ℤ)
    (x n : ℕ) : (addClone cfg w c index x n).Linked := by
  have hnone := newStack_container cfg.types w x n
  exact (h.create hw hnone).addThing (hw.create hnone) (hw.size_nowhere hnone)
    (Nat.lt_succ_self w.size) c index

theorem World.Linked.transferItem {p : MovePlan} (h : p.world.Linked) (hw : p.world.WF cfg.types) {flags : ℕ}
    (hremove : queryRemove cfg p.world a.fromCylinder a.item p.m flags = .RETURNVALUE_NOERROR) :
    (transferItem cfg a p).Linked := by
  have hwf := hw.removeThing a.fromCylinder a.item p.m
  have hlinked := h.removeThing hw a.fromCylinder a.item p.m
  unfold Items.transferItem
  dsimp only
  split_ifs with hstack hrest
  · exact (hlinked.stackOnto _ _ _ _).addClone (hwf.stackOnto hstack _ _ _) _ _ _ _
  · exact hlinked.stackOnto _ _ _ _
  · rw [Item.isStackable, Item.type, id_removeThing hw] at hstack
    refine hlinked.addThing hwf
      (nowhere_of_removed hw hremove (Or.inl (Bool.eq_false_iff.2 hstack))) ?_ _ _
    rw [size_removeThing]
    exact hw.live _ _ (World.mem_contents_of_getThingIndex (of_queryRemove hremove).1)

theorem World.Linked.exchangeItem (h : w.Linked) (hw : w.WF cfg.types) {d : Destination}
    {y flags : ℕ} (hremove : queryRemove cfg w d.cylinder y (w.items y).getItemCount flags =
      .RETURNVALUE_NOERROR) : (exchangeItem cfg a w d y).Linked := by
  have hlive : y < (Items.removeThing cfg.types w d.cylinder y (w.items y).getItemCount).size := by
    rw [size_removeThing]
    exact hw.live _ y (World.mem_contents_of_getThingIndex (of_queryRemove hremove).1)
  have hwf := hw.removeThing d.cylinder y (w.items y).getItemCount
  have hlinked := h.removeThing hw d.cylinder y (w.items y).getItemCount
  have hnowhere := nowhere_of_removed hw hremove (Or.inr rfl)
  unfold Items.exchangeItem addThingAnywhere
  cases a.fromCylinder with
  | item n => exact hlinked.addThing hwf hnowhere hlive (.item n) 0
  | player p => exact hlinked
  | tile t => exact hlinked.addThing hwf hnowhere hlive (.tile t) 0

/-- **Moves keep the parents.** -/
theorem World.Linked.internalMoveItem (cfg : Config) (h : w.Linked) (hw : w.WF cfg.types) (a : MoveArgs) :
    (internalMoveItem cfg a w).1.Linked := by
  have houtcome : ∀ {w₁ d}, w₁.WF cfg.types → w₁.Linked →
      PlanOutcome cfg a w₁ d (planMove cfg a w) → (Items.internalMoveItem cfg a w).1.Linked := by
    intro w₁ d hw₁ h₁ houtcome
    unfold Items.internalMoveItem
    generalize planMove cfg a w = r at houtcome ⊢
    cases houtcome with
    | refused ret _ => exact h₁
    | planned p hp =>
      obtain rfl := hp.world
      exact h₁.transferItem hw₁ hp.remove
  cases hex : exchangedItem cfg a w with
  | none => exact houtcome hw h (planMove_of_none hex)
  | some y =>
    obtain ⟨-, -, hremove, hplan⟩ := planMove_of_some hex
    exact houtcome (hw.exchangeItem hremove) (h.exchangeItem hw hremove) hplan

end Moves

end TiabloServer.Items
