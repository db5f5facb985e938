import TiabloServer.Items.Holding
import TiabloServer.Items.Move

/-!
# Parts of stacks

The three steps by which a move or an addition shifts a part of a stack: it is taken out of one
stack, put on another, and what is left goes in as a new stack. Each step may lose units, and this
file says exactly when.

## Main definitions

* `Items.Lessened` — the effect of taking items out of a stack.
* `Items.Fits` — whether a new stack arrives as it is.

## Main results

* `Items.removeThing_lessened` — taking out.
* `Items.updateThing_balanced` — putting on.
* `Items.addClone_fits`, `Items.addClone_not_fits` — going in as a new stack.
-/

namespace TiabloServer.Items

variable {types : ItemTypes} {w w' : World} {R : Set Cylinder} {x : ℕ}

/-! ## Taking out -/

/-- Of the stack `x` `m` items are taken out, or more unless `P` holds, and that is all. -/
structure Lessened (types : ItemTypes) (R : Set Cylinder) (w w' : World) (x m : ℕ) (P : Prop) :
    Prop where
  wf : w'.WF types
  size : w'.size = w.size
  mem : ∀ d y, y ∈ w'.contents d → y ∈ w.contents d
  holds : ∀ y, y ≠ x → (Holds w' R y ↔ Holds w R y)
  body : ∀ y, y ≠ x → (w'.items y).body = (w.items y).body
  id : (w'.items x).id = (w.items x).id
  balanced : Balanced types R (w.items x).id (-m) P w w'
  left : Holds w' R x → 0 < (w'.items x).getItemCount

theorem getItemCount_lt (i : Item) : i.getItemCount < 256 := i.count.toNat_lt

theorem getItemCount_setItemCount (i : Item) (n : ℕ) : (i.setItemCount n).getItemCount = n % 256 := by
  simp [Item.getItemCount, Item.setItemCount, UInt8.toNat_ofNat']

/-- **`removeThing` of `m` items of a stack** leaves the others, or none where it takes all. -/
theorem removeThing_lessened (hw : w.WF types) {b : Cylinder} (hb : Within w R b)
    (hx : w.getThingIndex types b x ≠ -1) (hstack : (w.items x).isStackable types = true) {m : ℕ}
    (hm : m ≤ (w.items x).getItemCount) : Lessened types R w (removeThing types w b x m) x m
      (TakesAll types w b x → m = (w.items x).getItemCount) := by
  have hmem := World.mem_contents_of_getThingIndex hx
  have hheld : Holds w R x := hb.holds hmem
  have hlive := hw.live b x hmem
  by_cases hall : m = (w.items x).getItemCount ∨ TakesAll types w b x
  · have h := removeThing_taken hw hx (Or.inr hall)
    have hempty := hw.contents_stack hstack
    have hunits := h.units_add types hempty hlive hheld
    simp only [unitsOf_stack hstack] at hunits
    have hself := hunits (w.items x).id
    rw [if_pos rfl] at hself
    refine ⟨hw.of_taken h, h.size, fun d y hy => ((h.mem d y).1 hy).1,
      fun y hy => (h.holds_iff hempty).trans (and_iff_left hy), fun y _ => h.body y,
      (Item.body_eq (h.body x)).1,
      ⟨⟨by omega, ⟨fun heq _ => by omega, fun h0 => ?_⟩⟩, fun j hj => ?_⟩,
      fun hx' => absurd rfl ((h.holds_iff hempty).1 hx').2⟩
    · have hmeq : m = (w.items x).getItemCount := hall.elim (fun h => h) h0
      omega
    · simpa [hj.symm] using hunits j
  · obtain ⟨hne, hnall⟩ := not_or.1 hall
    have h := removeThing_recounted hw hx hstack hne hnall
    have hid : ((removeThing types w b x m).items x).id = (w.items x).id :=
      (Item.body_eq h.body_self).1
    have hcount : ((removeThing types w b x m).items x).getItemCount =
        (w.items x).getItemCount - m := by
      rw [Item.getItemCount_eq h.body_self, getItemCount_setItemCount, Nat.mod_eq_of_lt]
      have := getItemCount_lt (w.items x)
      omega
    have hstack' : ((removeThing types w b x m).items x).isStackable types = true := by
      rwa [Item.isStackable_eq h.body_self]
    have hunits := h.units_add types hlive hheld
    simp only [unitsOf_stack hstack, unitsOf_stack hstack', hcount, hid] at hunits
    have hself := hunits (w.items x).id
    rw [if_pos rfl, if_pos rfl] at hself
    refine ⟨hw.of_recounted h, h.size, fun d y hy => h.contents d ▸ hy, fun y _ => h.holds_iff,
      h.body, hid, ⟨⟨by omega, ⟨fun _ h => absurd h hnall, fun _ => by omega⟩⟩, fun j hj => ?_⟩,
      fun _ => by omega⟩
    simpa [hj.symm] using hunits j

/-! ## Putting on -/

/-- The worlds differ in the count of one stack at most. -/
structure Restacked (types : ItemTypes) (w w' : World) (y : ℕ) : Prop where
  wf : w'.WF types
  size : w'.size = w.size
  contents : ∀ d, w'.contents d = w.contents d
  body : ∀ z, z ≠ y → (w'.items z).body = (w.items z).body
  id : ∀ z, (w'.items z).id = (w.items z).id

theorem Restacked.refl (hw : w.WF types) (y : ℕ) : Restacked types w w y :=
  ⟨hw, rfl, fun _ => rfl, fun _ _ => rfl, fun _ => rfl⟩

theorem Recounted.restacked (hw : w.WF types) {y n : ℕ} (h : Recounted w w' y n) : Restacked types w w' y := by
  refine ⟨hw.of_recounted h, h.size, h.contents, h.body, fun z => ?_⟩
  rcases eq_or_ne z y with rfl | hz
  · exact (Item.body_eq h.body_self).1
  · exact (Item.body_eq (h.body z hz)).1

theorem updateThing_restacked (hw : w.WF types) {c : Cylinder} {y : ℕ}
    (hstack : (w.items y).isStackable types = true) (n : ℕ) :
    Restacked types w (updateThing types w c y (w.items y).id n) y := by
  by_cases hindex : w.getThingIndex types c y = -1
  · rw [updateThing_of_index hindex]
    exact .refl hw y
  · exact (updateThing_recounted hindex hstack).restacked hw

/-- **`updateThing` with `n` items more** puts them on the stack when it lies in the cylinder and
its count does not go beyond a byte. -/
theorem updateThing_balanced (hw : w.WF types) {c : Cylinder} (hc : Within w R c) {y : ℕ}
    (hstack : (w.items y).isStackable types = true) (n : ℕ) : Balanced types R (w.items y).id n
      (0 < n → w.getThingIndex types c y ≠ -1 ∧ (w.items y).getItemCount + n < 256) w
      (updateThing types w c y (w.items y).id ((w.items y).getItemCount + n)) := by
  by_cases hindex : w.getThingIndex types c y = -1
  · rw [updateThing_of_index hindex]
    refine ⟨⟨by omega, ⟨fun heq hn => by omega, fun h => ?_⟩⟩, fun j _ => rfl⟩
    by_contra hne
    exact (h (by omega)).1 hindex
  · have hmem := World.mem_contents_of_getThingIndex hindex
    have h := updateThing_recounted (n := (w.items y).getItemCount + n) hindex hstack
    have hunits := h.units_add types (hw.live c y hmem) (hc.holds hmem)
    have hid := (Item.body_eq h.body_self).1
    have hstack' := (Item.isStackable_eq h.body_self types).trans hstack
    have hcount := (Item.getItemCount_eq h.body_self).trans (getItemCount_setItemCount _ _)
    have hlt := getItemCount_lt (w.items y)
    simp only [unitsOf_stack hstack, unitsOf_stack hstack', hcount, hid] at hunits
    have hself := hunits (w.items y).id
    simp only [Item.setItemCount, if_true] at hself
    refine ⟨⟨by omega, ⟨fun heq hn => ⟨hindex, by omega⟩, fun h => ?_⟩⟩, fun j hj => ?_⟩
    · rcases Nat.eq_zero_or_pos n with hn | hn
      · omega
      · have := (h hn).2
        omega
    · simpa [Item.setItemCount, hj.symm] using hunits j

/-! ## Putting a part on the stack at the destination -/

section Onto

variable {cfg : Config} {c : Cylinder}

/-- Items that may be stacked have one id. -/
theorem Item.id_eq_of_equals {i j : Item} (h : i.equals j = true) : i.id = j.id := by
  simp only [Item.equals, Bool.and_eq_true, beq_iff_eq] at h
  exact h.1.1.1

theorem Item.isStackable_of_equals {i j : Item} (h : i.equals j = true)
    (hstack : i.isStackable types = true) : j.isStackable types = true := by
  rwa [Item.isStackable, Item.type, ← Item.id_eq_of_equals h]

/-- The part of a stack that goes on the one at the destination arrives: this stack lies in the
destination, and its count does not go beyond a byte. -/
def Merges (types : ItemTypes) (w : World) (c : Cylinder) (toItem : Option ℕ) (n : ℕ) : Prop :=
  0 < n → ∀ y ∈ toItem, w.getThingIndex types c y ≠ -1 ∧ (w.items y).getItemCount + n < 256

/-- What `stackOnto` does to a world. -/
structure StackedOnto (types : ItemTypes) (R : Set Cylinder) (w : World) (x m : ℕ) (P : ℕ → Prop)
    (s : World × ℕ) : Prop where
  wf : s.1.WF types
  size : s.1.size = w.size
  contents : ∀ d, s.1.contents d = w.contents d
  body : (s.1.items x).body = (w.items x).body
  le : s.2 ≤ m
  balanced : Balanced types R (w.items x).id s.2 (P s.2) w s.1

theorem stackOnto_spec (hw : w.WF cfg.types) (hc : Within w R c)
    (hstack : (w.items x).isStackable cfg.types = true) {toItem : Option ℕ} (hitem : toItem ≠ some x) (m : ℕ) :
    StackedOnto cfg.types R w x m (Merges cfg.types w c toItem) (stackOnto cfg w c x toItem m) := by
  unfold stackOnto
  cases hfilter : toItem.filter fun y => (w.items x).equals (w.items y) with
  | none =>
    refine ⟨hw, rfl, fun _ => rfl, rfl, Nat.zero_le m, ?_⟩
    exact (Balanced.of_units_eq fun _ => rfl).congr rfl (by simp [Merges])
  | some y =>
    obtain ⟨hy, hequals⟩ := Option.filter_eq_some_iff.1 hfilter
    have hid := Item.id_eq_of_equals hequals
    have hstack' := Item.isStackable_of_equals hequals hstack
    have h := updateThing_restacked hw (c := c) hstack'
      ((w.items y).getItemCount + stackedCount cfg w y m)
    have hxy : x ≠ y := fun e => hitem (e ▸ hy)
    refine ⟨h.wf, h.size, h.contents, h.body x hxy, min_le_right _ _, hid ▸ ?_⟩
    refine (updateThing_balanced hw hc hstack' _).congr rfl ?_
    simp [Merges, hy]

/-- The stacks that grow when a part is put on the one at the destination. -/
theorem stackOnto_grows (hstack : (w.items x).isStackable cfg.types = true) (toItem : Option ℕ)
    {m : ℕ} (hm : m < 256) (z : ℕ) :
    (w.items z).getItemCount < ((stackOnto cfg w c x toItem m).1.items z).getItemCount ↔
      0 < (stackOnto cfg w c x toItem m).2 ∧ z ∈ toItem ∧ w.getThingIndex cfg.types c z ≠ -1 ∧
          (w.items z).getItemCount + (stackOnto cfg w c x toItem m).2 < 256 := by
  unfold stackOnto
  cases hfilter : toItem.filter fun y => (w.items x).equals (w.items y) with
  | none => simp
  | some y =>
    obtain ⟨hy, hequals⟩ := Option.filter_eq_some_iff.1 hfilter
    have hstack' := Item.isStackable_of_equals hequals hstack
    dsimp only
    set n := stackedCount cfg w y m with hn
    by_cases hindex : w.getThingIndex cfg.types c y = -1
    · rw [updateThing_of_index hindex]
      refine iff_of_false (lt_irrefl _) fun ⟨_, hz, hz', _⟩ => hz' ?_
      rwa [← Option.some.inj (hy.symm.trans hz)]
    · have h := updateThing_recounted (n := (w.items y).getItemCount + n) hindex hstack'
      rcases eq_or_ne z y with rfl | hzy
      · have hcount := (Item.getItemCount_eq h.body_self).trans (getItemCount_setItemCount _ _)
        have hlt := getItemCount_lt (w.items z)
        have hle : n ≤ m := min_le_right _ _
        rw [hcount]
        simp only [hy, Option.mem_def, true_and, hindex, ne_eq, not_false_eq_true]
        constructor
        · intro h
          omega
        · intro h
          omega
      · rw [Item.getItemCount_eq (h.body z hzy)]
        exact iff_of_false (lt_irrefl _) fun hz => hzy (Option.some.inj (hz.2.1.symm.trans hy))

end Onto

/-! ## Going in as a new stack -/

/-- The new stack of `n` items that a move or an addition makes of `x`. -/
def newStack (types : ItemTypes) (w : World) (x n : ℕ) : Item :=
  ((w.items x).clone types).setItemCount n

/-- Whether a new stack made of `x` arrives as it is: it has the id of `x`, and the cylinder accepts
it. -/
def Fits (types : ItemTypes) (w : World) (c : Cylinder) (index : ℤ) (x n : ℕ) : Prop :=
  createdId types (w.items x).id = (w.items x).id ∧
    Accepts types (w.create (newStack types w x n)) c index w.size

theorem newStack_id (w : World) (x n : ℕ) : (newStack types w x n).id = createdId types (w.items x).id := by
  simp only [newStack, Item.clone]
  split_ifs <;> rfl

theorem newStack_container (types : ItemTypes) (w : World) (x n : ℕ) : (newStack types w x n).container = none := by
  simp only [newStack, Item.clone]
  split_ifs <;> rfl

theorem newStack_count (w : World) (x n : ℕ) : (newStack types w x n).getItemCount = n % 256 := by
  rw [newStack, getItemCount_setItemCount]

/-- The units of a new stack. -/
theorem unitsOf_newStack (w₁ : World) {n : ℕ} (hstack : (w.items x).isStackable types = true)
    (hn : n < 256) :
    unitsOf types (w₁.create (newStack types w x n)) (w.items x).id w₁.size =
      if createdId types (w.items x).id = (w.items x).id then n else 0 := by
  simp only [unitsOf, World.items_create_self, newStack_id, newStack_count, Nat.mod_eq_of_lt hn]
  split_ifs with hid hs
  · rfl
  · simp only [Item.isStackable, Item.type, newStack_id, hid] at hs
    exact absurd hstack hs
  · rfl

theorem World.contents_of_container_none (h : (w.items x).container = none) :
    w.contents (.item x) = [] := by simp [World.contents, World.itemlist, h]

/-- Nothing lies in a new item. -/
theorem inner_create (w : World) (R : Set Cylinder) {i : Item} (hi : i.container = none) :
    Inner (w.create i) R w.size :=
  Or.inr (World.contents_of_container_none (by simpa using hi))

/-- A new item lies nowhere before it goes in. -/
theorem World.WF.size_nowhere (hw : w.WF types) {i : Item} (hi : i.container = none)
    (d : Cylinder) : w.size ∉ (w.create i).contents d := by
  intro hd
  rw [hw.contents_create hi] at hd
  exact (hw.live d _ hd).false

theorem World.WF.within_create (hw : w.WF types) {i : Item} (hi : i.container = none) {c : Cylinder}
    (hc : Within w R c) : Within (w.create i) R c := hc.mono fun _ hy => (hw.holds_create hi).2 hy

/-- **A new stack that fits arrives**, and nothing else changes. -/
theorem addClone_fits (hw : w.WF types) {c : Cylinder} (hc : Within w R c) {index : ℤ} {n : ℕ}
    (hstack : (w.items x).isStackable types = true) (hn : n < 256) (h : Fits types w c index x n) :
    Balanced types R (w.items x).id n True w (addThing types (w.create (newStack types w x n)) c index w.size) ∧
      ∀ y, Holds w R y → Holds (addThing types (w.create (newStack types w x n)) c index w.size) R y := by
  obtain ⟨hid, hacc⟩ := h
  have hnone := newStack_container types w x n
  have hinner := inner_create w R hnone
  have hadd := addThing_added hacc
  have hc₁ := hw.within_create hnone hc
  have hunits := hadd.units_eq hc₁ hinner (Nat.lt_succ_self w.size) (hw.size_nowhere hnone)
  have hself := hunits (w.items x).id
  rw [hw.units_create hnone, unitsOf_newStack w hstack hn, if_pos hid] at hself
  refine ⟨⟨⟨by omega, by simp [hself]⟩, fun j hj => ?_⟩,
    fun y hy => (hadd.holds_iff hc₁ hinner).2 (Or.inl ((hw.holds_create hnone).2 hy))⟩
  rw [hunits j, hw.units_create hnone]
  simp [unitsOf, newStack_id, hid, hj.symm]

/-- **A new stack that does not fit is lost**, at least in part, or another item is lost for it. -/
theorem addClone_not_fits (hw : w.WF types) {c : Cylinder} (hc : Within w R c) {index : ℤ} {n : ℕ}
    (hstack : (w.items x).isStackable types = true) (hpos : 0 < n) (hn : n < 256)
    (hleft : Holds w R x → 0 < (w.items x).getItemCount) (h : ¬ Fits types w c index x n) :
    units types (addThing types (w.create (newStack types w x n)) c index w.size) R
        (w.items x).id < units types w R (w.items x).id + n ∨ ∃ y, y ≠ x ∧ Holds w R y ∧
        ¬ Holds (addThing types (w.create (newStack types w x n)) c index w.size) R y := by
  have hnone := newStack_container types w x n
  have hw₁ := hw.create hnone
  have hinner := inner_create w R hnone
  have hnowhere := hw.size_nowhere hnone
  have hnew := unitsOf_newStack w hstack hn
  have hc₁ := hw.within_create hnone hc
  have hlive : w.size < (w.create (newStack types w x n)).size := Nat.lt_succ_self w.size
  by_cases hacc : Accepts types (w.create (newStack types w x n)) c index w.size
  · -- the new stack goes in, with another id
    have hid : createdId types (w.items x).id ≠ (w.items x).id := fun hid => h ⟨hid, hacc⟩
    have hadd := addThing_added hacc
    have hunits := hadd.units_eq hc₁ hinner hlive hnowhere (w.items x).id
    rw [hw.units_create hnone, hnew, if_neg hid] at hunits
    exact Or.inl (by omega)
  · have hspoil := addThing_spoiled hw₁ hnowhere hacc
    rcases hspoil.lost with hdrop | ⟨y, hy, -, hlost⟩
    · have hunits := units_congr types (R := R) hspoil.size hspoil.body
        (fun y => holds_congr fun d z => by rw [hdrop]) (w.items x).id
      rw [hw.units_create hnone] at hunits
      exact Or.inl (by omega)
    · have hyheld₁ := hc₁.holds hy
      have hyheld := (hw.holds_create hnone).1 hyheld₁
      rcases eq_or_ne y x with rfl | hyx
      · -- what is left of the stack itself makes room
        have hle := hspoil.units_add_le types hinner hlive hnowhere hyheld₁
          (hw₁.lt_size hyheld₁) hlost (w.items y).id
        have hold : unitsOf types (w.create (newStack types w y n)) (w.items y).id y =
            (w.items y).getItemCount := by
          have hne : y ≠ w.size := (hw.lt_size hyheld).ne
          simp only [unitsOf, w.items_create_of_ne _ hne, hstack, if_true]
        have hcount := hleft hyheld
        rw [hw.units_create hnone, hold, hnew] at hle
        refine Or.inl ?_
        split_ifs at hle <;> omega
      · exact Or.inr ⟨y, hyx, hyheld, not_holds hlost⟩

end TiabloServer.Items
