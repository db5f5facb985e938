import TiabloServer.Items.Effects
import TiabloServer.Lib.Containment

/-!
# Holding items

The items that a set of cylinders holds, directly or inside other items, and the units of an item id
among them: a stack counts as many units as it has items, anything else counts one.

## Main definitions

* `Items.SameTrees` — the trees of some cylinders are as before.
* `Items.Gained`, `Items.Balanced` — how many units of an id are gained, and when none is missing.

## Main results

* `Items.Taken.units_add`, `Items.Recounted.units_add`, `Items.Added.units_eq`,
  `Items.Spoiled.units_add_le` — what the changes do to the units.
-/

namespace TiabloServer.Items

open Containment

variable {types : ItemTypes} {w w' : World} {R : Set Cylinder} {k x : ℕ}

/-- The items that the cylinders `R` hold, directly or inside other items. -/
def Holds (w : World) (R : Set Cylinder) (x : ℕ) : Prop :=
  Held (fun c y => y ∈ w.contents c) Cylinder.item R x

/-- The units of the item id `k` that an item counts. -/
def unitsOf (types : ItemTypes) (w : World) (k x : ℕ) : ℕ :=
  if (w.items x).id = k then
    if (w.items x).isStackable types then (w.items x).getItemCount else 1
  else 0

/-- The units of the item id `k` that the cylinders `R` hold. -/
noncomputable def units (types : ItemTypes) (w : World) (R : Set Cylinder) (k : ℕ) : ℕ :=
  total (Finset.range w.size) (Holds w R) (unitsOf types w k)

/-- Nothing is lost: the cylinders hold as many units of every id as before, and every item that
they held but `item`. -/
structure Conserved (types : ItemTypes) (R : Set Cylinder) (item : ℕ) (w w' : World) : Prop where
  units : ∀ k, units types w' R k = units types w R k
  kept : ∀ x, x ≠ item → Holds w R x → Holds w' R x

theorem unitsOf_eq (h : (w'.items x).body = (w.items x).body) : unitsOf types w' k x = unitsOf types w k x := by
  simp [unitsOf, (Item.body_eq h).1, Item.isStackable_eq h, Item.getItemCount_eq h]

/-- Items that lie in the same places are held by the same cylinders. -/
theorem holds_congr (h : ∀ d y, y ∈ w'.contents d ↔ y ∈ w.contents d) : Holds w' R x ↔ Holds w R x :=
  ⟨fun hx => Held.mono (fun d y hy => Or.inl ((h d y).1 hy)) hx,
    fun hx => Held.mono (fun d y hy => Or.inl ((h d y).2 hy)) hx⟩

theorem holds_of_mem {c : Cylinder} (hc : c ∈ R) (hx : x ∈ w.contents c) : Holds w R x :=
  .direct hc hx

/-- A cylinder of the trees of `R`: one of `R`, or an item that they hold. -/
def Within (w : World) (R : Set Cylinder) (c : Cylinder) : Prop :=
  c ∈ R ∨ ∃ n, Holds w R n ∧ c = .item n

theorem Within.holds {c : Cylinder} (hc : Within w R c) (hx : x ∈ w.contents c) : Holds w R x := by
  rcases hc with hc | ⟨n, hn, rfl⟩
  · exact holds_of_mem hc hx
  · exact .nested hn hx

theorem Within.mono {c : Cylinder} (hc : Within w R c) (h : ∀ y, Holds w R y → Holds w' R y) :
    Within w' R c := hc.imp_right fun ⟨n, hn, e⟩ => ⟨n, h n hn, e⟩

theorem Holds.mono_set {R' : Set Cylinder} (h : Holds w R x) (hR : R ⊆ R') : Holds w R' x := by
  induction h with
  | direct hc hx => exact holds_of_mem (hR hc) hx
  | nested _ hy ih => exact .nested ih hy

theorem not_holds (h : ∀ d, x ∉ w.contents d) : ¬ Holds w R x := not_held h

/-- What is held is on the heap. -/
theorem World.WF.lt_size (hw : w.WF types) (h : Holds w R x) : x < w.size := by
  obtain ⟨c, hc⟩ := Held.exists_in h
  exact hw.live c x hc

/-- Nothing lies in a stack. -/
theorem World.WF.contents_stack (hw : w.WF types) (h : (w.items x).isStackable types = true) :
    w.contents (.item x) = [] := by simp [World.contents, World.itemlist, hw.stack x h]

/-- Stacks count their items. -/
theorem unitsOf_stack (h : (w.items x).isStackable types = true) (k : ℕ) :
    unitsOf types w k x = if (w.items x).id = k then (w.items x).getItemCount else 0 := by
  simp [unitsOf, h]

/-- Worlds with the same items held, as they were, have the same units. -/
theorem units_congr_of_held (types : ItemTypes) (hsize : w'.size = w.size)
    (hbody : ∀ y, Holds w R y → (w'.items y).body = (w.items y).body)
    (hholds : ∀ y, Holds w' R y ↔ Holds w R y) (k : ℕ) : units types w' R k = units types w R k := by
  rw [units, units, hsize, total_eq_sum_share, total_eq_sum_share]
  refine Finset.sum_congr rfl fun y _ => ?_
  by_cases hy : Holds w R y
  · exact share_congr (hholds y) (unitsOf_eq (hbody y hy))
  · rw [share_of_not hy, share_of_not ((hholds y).not.2 hy)]

/-- Worlds with the same items held, and the same items, have the same units. -/
theorem units_congr (types : ItemTypes) (hsize : w'.size = w.size)
    (hbody : ∀ y, (w'.items y).body = (w.items y).body) (hholds : ∀ y, Holds w' R y ↔ Holds w R y) (k : ℕ) :
    units types w' R k = units types w R k :=
  units_congr_of_held types hsize (fun y _ => hbody y) hholds k

/-! ## Unchanged trees -/

/-- The trees of the cylinders `R` are as before: the same items in the same order and on the same
slots, and each with the same fields. -/
structure SameTrees (R : Set Cylinder) (w w' : World) : Prop where
  contents : ∀ c, Within w R c → w'.contents c = w.contents c
  slots : ∀ p, Within w R (.player p) → (w'.players p).inventory = (w.players p).inventory
  tiles : ∀ t, Within w R (.tile t) → (w'.tiles t).ground = (w.tiles t).ground ∧
    (w'.tiles t).topItems = (w.tiles t).topItems ∧ (w'.tiles t).downItems = (w.tiles t).downItems
  body : ∀ x, Holds w R x → (w'.items x).body = (w.items x).body

theorem SameTrees.refl (R : Set Cylinder) (w : World) : SameTrees R w w :=
  ⟨fun _ _ => rfl, fun _ _ => rfl, fun _ _ => ⟨rfl, rfl, rfl⟩, fun _ _ => rfl⟩

/-- What was held lies somewhere when the trees are as before. -/
theorem SameTrees.exists_mem (h : SameTrees R w w') {x : ℕ} (hx : Holds w R x) : ∃ c, x ∈ w'.contents c := by
  cases hx with
  | direct hc hmem => exact ⟨_, h.contents _ (Or.inl hc) ▸ hmem⟩
  | nested hy hmem => exact ⟨_, h.contents _ (Or.inr ⟨_, hy, rfl⟩) ▸ hmem⟩

/-! ## Balances -/

/-- The units of `k` grow by `δ` at most, and by as many exactly when `P` holds. -/
structure Gained (types : ItemTypes) (R : Set Cylinder) (k : ℕ) (δ : ℤ) (P : Prop) (w w' : World) :
    Prop where
  le : (units types w' R k : ℤ) ≤ units types w R k + δ
  eq_iff : (units types w' R k : ℤ) = units types w R k + δ ↔ P

/-- Gains add up: nothing is missing in the end when nothing is missing in either step. -/
theorem Gained.trans {w'' : World} {δ δ' : ℤ} {P P' : Prop} (h : Gained types R k δ P w w')
    (h' : Gained types R k δ' P' w' w'') : Gained types R k (δ + δ') (P ∧ P') w w'' where
  le := by
    have h₁ := h.le
    have h₂ := h'.le
    omega
  eq_iff := by
    have h₁ := h.le
    have h₂ := h'.le
    rw [← h.eq_iff, ← h'.eq_iff]
    omega

theorem Gained.congr {δ δ' : ℤ} {P P' : Prop} (h : Gained types R k δ P w w') (hδ : δ = δ')
    (hP : P ↔ P') : Gained types R k δ' P' w w' := ⟨hδ ▸ h.le, hδ ▸ h.eq_iff.trans hP⟩

/-- The units of `k` grow by `δ` at most, and by as many exactly when `P` holds; those of the other
ids stay. -/
structure Balanced (types : ItemTypes) (R : Set Cylinder) (k : ℕ) (δ : ℤ) (P : Prop)
    (w w' : World) : Prop extends Gained types R k δ P w w' where
  other : ∀ j, j ≠ k → units types w' R j = units types w R j

theorem Balanced.trans {w'' : World} {δ δ' : ℤ} {P P' : Prop}
    (h : Balanced types R k δ P w w') (h' : Balanced types R k δ' P' w' w'') :
    Balanced types R k (δ + δ') (P ∧ P') w w'' :=
  ⟨h.toGained.trans h'.toGained, fun j hj => (h'.other j hj).trans (h.other j hj)⟩

/-- Nothing changes. -/
theorem Balanced.of_units_eq (h : ∀ j, units types w' R j = units types w R j) : Balanced types R k 0 True w w' :=
  ⟨⟨by simp [h k], by simp [h k]⟩, fun j _ => h j⟩

theorem Balanced.congr {δ δ' : ℤ} {P P' : Prop} (h : Balanced types R k δ P w w') (hδ : δ = δ')
    (hP : P ↔ P') : Balanced types R k δ' P' w w' := ⟨h.toGained.congr hδ hP, h.other⟩

/-! ## The units under the changes -/

/-- Taking a stack away leaves all other items held. -/
theorem Taken.holds_iff (h : Taken w w' x) (hempty : w.contents (.item x) = []) {y : ℕ} :
    Holds w' R y ↔ Holds w R y ∧ y ≠ x := by
  constructor
  · intro hy
    refine ⟨Held.mono (fun d z hz => Or.inl ((h.mem d z).1 hz).1) hy, ?_⟩
    rintro rfl
    exact not_holds (fun d hd => ((h.mem d y).1 hd).2 rfl) hy
  · rintro ⟨hy, hne⟩
    refine (Held.of_new (z := x) (fun z hz => ?_) (fun d z hz => ?_) hy).resolve_left hne
    · simp [hempty] at hz
    by_cases hzx : z = x
    · exact Or.inr hzx
    · exact Or.inl ((h.mem d z).2 ⟨hz, hzx⟩)

/-- Taking a stack away takes its units. -/
theorem Taken.units_add (types : ItemTypes) (h : Taken w w' x) (hempty : w.contents (.item x) = [])
    (hlive : x < w.size) (hx : Holds w R x) (k : ℕ) :
    units types w' R k + unitsOf types w k x = units types w R k := by
  have hshare : ∀ y ∈ Finset.range w.size, y ∉ ({x} : Finset ℕ) →
      share (Holds w' R) (unitsOf types w' k) y = share (Holds w R) (unitsOf types w k) y := by
    intro y _ hy
    have hy' : y ≠ x := by simpa using hy
    exact share_congr ((h.holds_iff hempty).trans (and_iff_left hy')) (unitsOf_eq (h.body y))
  have hsum := total_add_shares (s := {x})
    (by simpa using hlive) hshare
  have hx' : ¬ Holds w' R x := fun hx' => ((h.holds_iff hempty).1 hx').2 rfl
  rw [Finset.sum_singleton, Finset.sum_singleton, share_of hx, share_of_not hx'] at hsum
  simpa [units, h.size] using hsum

/-- Recounting a stack leaves all items held. -/
theorem Recounted.holds_iff {n : ℕ} (h : Recounted w w' x n) {y : ℕ} :
    Holds w' R y ↔ Holds w R y := holds_congr fun d z => by rw [h.contents]

/-- Recounting an item changes the units by what it counts. -/
theorem Recounted.units_add {n : ℕ} (types : ItemTypes) (h : Recounted w w' x n) (hlive : x < w.size)
    (hx : Holds w R x) (k : ℕ) :
    units types w' R k + unitsOf types w k x = units types w R k + unitsOf types w' k x := by
  have hshare : ∀ y ∈ Finset.range w.size, y ∉ ({x} : Finset ℕ) →
      share (Holds w' R) (unitsOf types w' k) y = share (Holds w R) (unitsOf types w k) y := by
    intro y _ hy
    exact share_congr h.holds_iff (unitsOf_eq (h.body y (by simpa using hy)))
  have hsum := total_add_shares (s := {x})
    (by simpa using hlive) hshare
  rw [Finset.sum_singleton, Finset.sum_singleton, share_of hx, share_of (h.holds_iff.2 hx)] at hsum
  simpa [units, h.size] using hsum

/-- A new item changes nothing for those that are held. -/
theorem World.WF.holds_create (hw : w.WF types) {i : Item} (hi : i.container = none) :
    Holds (w.create i) R x ↔ Holds w R x :=
  holds_congr fun d y => by rw [hw.contents_create hi]

theorem World.WF.units_create (hw : w.WF types) {i : Item} (hi : i.container = none) (k : ℕ) :
    units types (w.create i) R k = units types w R k := by
  have hsize : (w.create i).size = w.size + 1 := rfl
  have hnew : ¬ Holds (w.create i) R w.size := fun h =>
    (hw.lt_size ((hw.holds_create hi).1 h)).false
  rw [units, hsize, total_eq_sum_share, Finset.sum_range_succ, share_of_not hnew, add_zero, units,
    total_eq_sum_share]
  refine Finset.sum_congr rfl fun y hy => share_congr (hw.holds_create hi) ?_
  simp only [unitsOf, w.items_create_of_ne i (Finset.mem_range.1 hy).ne]

/-- Whether what lies in `x` is held without it. -/
def Inner (w : World) (R : Set Cylinder) (x : ℕ) : Prop :=
  .item x ∈ R ∨ w.contents (.item x) = []

theorem Inner.holds (h : Inner w R x) {y : ℕ} (hy : y ∈ w.contents (.item x)) : Holds w R y := by
  rcases h with h | h
  · exact holds_of_mem h hy
  · simp [h] at hy

/-- Putting an item in a cylinder of the trees of `R` leaves the other items held. -/
theorem Added.holds_iff {c : Cylinder} (h : Added types w w' c x) (hc : Within w R c)
    (hinner : Inner w R x) {y : ℕ} : Holds w' R y ↔ Holds w R y ∨ y = x := by
  have hmono : ∀ y, Holds w R y → Holds w' R y := fun y hy =>
    Held.mono (fun d z hz => Or.inl ((h.mem d z).2 (Or.inl hz))) hy
  constructor
  · intro hy
    refine (Held.of_new (z := x) (fun z hz => ?_) (fun d z hz => ?_) hy).symm
    · exact ((h.mem _ z).1 hz).symm.imp (fun h => h.2) hinner.holds
    · exact ((h.mem d z).1 hz).imp_right fun h => h.2
  · rintro (hy | rfl)
    · exact hmono y hy
    · exact (hc.mono hmono).holds ((h.mem c y).2 (Or.inr ⟨rfl, rfl⟩))

/-- Putting a stack in adds its units. -/
theorem Added.units_eq {c : Cylinder} (h : Added types w w' c x) (hc : Within w R c)
    (hinner : Inner w R x) (hlive : x < w.size) (hx : ∀ d, x ∉ w.contents d) (k : ℕ) :
    units types w' R k = units types w R k + unitsOf types w k x := by
  have hshare : ∀ y ∈ Finset.range w.size, y ∉ ({x} : Finset ℕ) →
      share (Holds w' R) (unitsOf types w' k) y = share (Holds w R) (unitsOf types w k) y := by
    intro y _ hy
    have hy' : y ≠ x := by simpa using hy
    exact share_congr ((h.holds_iff hc hinner).trans (or_iff_left hy')) (unitsOf_eq (h.body y))
  have hsum := total_add_shares (s := {x})
    (by simpa using hlive) hshare
  rw [Finset.sum_singleton, Finset.sum_singleton, share_of_not (not_holds hx),
    share_of ((h.holds_iff hc hinner).2 (Or.inr rfl)), unitsOf_eq (h.body x)] at hsum
  simpa [units, h.size] using hsum

/-- An item that is not accepted leaves no other item newly held. -/
theorem Spoiled.holds_of {c : Cylinder} {old : Option ℕ} (h : Spoiled types w w' c x old) (hinner : Inner w R x) {y : ℕ}
    (hy : Holds w' R y) : Holds w R y ∨ y = x :=
  (Held.of_new (z := x) (fun z hz => (h.mem _ z hz).symm.imp_right hinner.holds) h.mem hy).symm

/-- When an item replaces another, the units grow by its own at most, less those of the other. -/
theorem Spoiled.units_add_le {c : Cylinder} (types : ItemTypes) {old : Option ℕ} (h : Spoiled types w w' c x old)
    (hinner : Inner w R x) (hlive : x < w.size) (hx : ∀ d, x ∉ w.contents d)
    {y : ℕ} (hy : Holds w R y) (hylive : y < w.size) (hlost : ∀ d, y ∉ w'.contents d) (k : ℕ) :
    units types w' R k + unitsOf types w k y ≤ units types w R k + unitsOf types w k x := by
  have hxy : x ≠ y := by
    rintro rfl
    exact not_holds hx hy
  have hshare : ∀ z ∈ Finset.range w.size, z ∉ ({x, y} : Finset ℕ) →
      share (Holds w' R) (unitsOf types w' k) z ≤ share (Holds w R) (unitsOf types w k) z := by
    intro z _ hz
    simp only [Finset.mem_insert, Finset.mem_singleton, not_or] at hz
    by_cases hz' : Holds w' R z
    · rw [share_of hz', share_of ((h.holds_of hinner hz').resolve_right hz.1),
        unitsOf_eq (h.body z)]
    · rw [share_of_not hz']
      exact Nat.zero_le _
  have hsum := total_add_shares_le (s := {x, y})
    (by simp [Finset.insert_subset_iff, hlive, hylive]) hshare
  have hxle := share_le (P := Holds w' R) (f := unitsOf types w' k) x
  rw [unitsOf_eq (h.body x)] at hxle
  rw [Finset.sum_pair hxy, Finset.sum_pair hxy, share_of_not (not_holds hx), share_of hy,
    share_of_not (not_holds hlost)] at hsum
  simp only [units, h.size]
  omega

end TiabloServer.Items
