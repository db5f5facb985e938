import TiabloServer.Items.MoveConservation

/-!
# Trees of items

What a change elsewhere leaves of the trees of some cylinders, and what an item takes along that is
taken out of an inventory.

## Main results

* `Items.addThing_outside` — what is put in elsewhere changes nothing that is held.
* `Items.updateThing_outside` — a stack elsewhere may change.
* `Items.Taken.units_split` — an item takes its own units and those in it.
-/

namespace TiabloServer.Items

open ReturnValue

variable {cfg : Config} {types : ItemTypes} {w w' : World} {R : Set Cylinder} {c : Cylinder} {x : ℕ}

/-! ## Outside the trees -/

/-- What lies in a cylinder is held only by those that the cylinder is within. -/
theorem World.WF.within_of_holds (hw : w.WF types) {y : ℕ} (hy : Holds w R y)
    (hmem : y ∈ w.contents c) : Within w R c := by
  cases hy with
  | direct hc hy => exact Or.inl (hw.unique _ _ y hy hmem ▸ hc)
  | @nested u _ hu hy => exact Or.inr ⟨u, hu, (hw.unique _ _ y hy hmem).symm⟩

/-- Taking an item away that is not held leaves the others held. -/
theorem Taken.holds_outside (h : Taken w w' x) (hx : ¬ Holds w R x) {z : ℕ} : Holds w' R z ↔ Holds w R z := by
  refine ⟨fun hz => Containment.Held.mono (fun d u hu => Or.inl ((h.mem d u).1 hu).1) hz,
    fun hz => ?_⟩
  induction hz with
  | @direct d u hd hu =>
    have hne : u ≠ x := fun e => hx (e ▸ holds_of_mem hd hu)
    exact holds_of_mem hd ((h.mem d u).2 ⟨hu, hne⟩)
  | @nested v u hv hu ih =>
    have hne : u ≠ x := fun e => hx (e ▸ .nested hv hu)
    exact .nested ih ((h.mem _ u).2 ⟨hu, hne⟩)

/-- Putting an item in elsewhere changes nothing that is held. -/
theorem Added.holds_outside (h : Added types w w' c x) (hc : ¬ Within w R c) {z : ℕ} :
    Holds w' R z ↔ Holds w R z := by
  refine ⟨fun hz => ?_, fun hz => Containment.Held.mono (fun d u hu => Or.inl ((h.mem d u).2
    (Or.inl hu))) hz⟩
  induction hz with
  | @direct d u hd hu =>
    rcases (h.mem d u).1 hu with hu | ⟨rfl, rfl⟩
    · exact holds_of_mem hd hu
    · exact absurd (Or.inl hd) hc
  | @nested v u _ hu ih =>
    rcases (h.mem _ u).1 hu with hu | ⟨hd, rfl⟩
    · exact .nested ih hu
    · exact absurd (Or.inr ⟨v, ih, hd.symm⟩) hc

/-! ## Inventories -/

/-- What an item holds is held with it. -/
theorem Holds.trans {y z : ℕ} (hy : Holds w R y) (hz : Holds w {.item y} z) : Holds w R z := by
  induction hz with
  | @direct c z hc hz =>
    obtain rfl : c = .item y := hc
    exact .nested hy hz
  | nested _ hz ih => exact .nested ih hz

/-- Nothing in an inventory holds itself. -/
theorem World.WF.not_holds_self (hw : w.WF types) {q z : ℕ} (hz : Holds w {.player q} z) :
    ¬ Holds w {.item z} z := by
  induction hz with
  | @direct c z hc hz =>
    intro hself
    obtain rfl : c = .player q := hc
    rcases hw.within_of_holds hself hz with hd | ⟨n, -, hn⟩
    · exact nomatch (hd : Cylinder.player q = _)
    · exact nomatch hn
  | @nested u z hu hz ih =>
    intro hself
    -- then the container `u` would hold itself, too
    have hzu : Holds w {.item u} z := holds_of_mem rfl hz
    rcases hw.within_of_holds hself hz with hd | ⟨n, hn, hun⟩
    · obtain rfl := Cylinder.item.inj (hd : Cylinder.item u = _)
      exact ih hself
    · obtain rfl := Cylinder.item.inj hun
      exact ih (hzu.trans hn)

/-- What is held without an item, is it, or lies in it. -/
theorem Taken.holds_split (h : Taken w w' x) {z : ℕ} (hz : Holds w R z) :
    Holds w' R z ∨ z = x ∨ Holds w {.item x} z := by
  induction hz with
  | @direct c z hc hz =>
    by_cases hzx : z = x
    · exact Or.inr (Or.inl hzx)
    · exact Or.inl (holds_of_mem hc ((h.mem c z).2 ⟨hz, hzx⟩))
  | @nested u z _ hz ih =>
    by_cases hzx : z = x
    · exact Or.inr (Or.inl hzx)
    rcases ih with hu | rfl | hu
    · exact Or.inl (.nested hu ((h.mem _ z).2 ⟨hz, hzx⟩))
    · exact Or.inr (Or.inr (holds_of_mem rfl hz))
    · exact Or.inr (Or.inr (.nested hu hz))

/-- What lies in an item that is taken out of an inventory is no longer there. -/
theorem Taken.not_holds_inner (hw : w.WF types) (h : Taken w w' x) {q z : ℕ}
    (hz : Holds w {.item x} z) : ¬ Holds w' {.player q} z := by
  induction hz with
  | @direct c z hc hz =>
    intro hz'
    obtain rfl : c = .item x := hc
    cases hz' with
    | @direct d _ hd hin =>
      obtain rfl : d = .player q := hd
      exact nomatch hw.unique _ _ z ((h.mem _ z).1 hin).1 hz
    | @nested u _ hu hin =>
      obtain rfl := Cylinder.item.inj (hw.unique _ _ z ((h.mem _ z).1 hin).1 hz)
      obtain ⟨d, hd⟩ := hu.exists_in
      exact ((h.mem d u).1 hd).2 rfl
  | @nested v z _ hz ih =>
    intro hz'
    cases hz' with
    | @direct d _ hd hin =>
      obtain rfl : d = .player q := hd
      exact nomatch hw.unique _ _ z ((h.mem _ z).1 hin).1 hz
    | @nested u _ hu hin =>
      obtain rfl := Cylinder.item.inj (hw.unique _ _ z ((h.mem _ z).1 hin).1 hz)
      exact ih hu

/-- **An item takes its own units and those in it** from an inventory. -/
theorem Taken.units_split (hw : w.WF types) (h : Taken w w' x) {q : ℕ} (hx : Holds w {.player q} x) (k : ℕ) :
    units types w' {.player q} k + (unitsOf types w k x + units types w {.item x} k) =
      units types w {.player q} k := by
  classical
  have hlive : x ∈ Finset.range w.size := Finset.mem_range.2 (hw.lt_size hx)
  have hself : unitsOf types w k x =
      ∑ z ∈ Finset.range w.size, if z = x then unitsOf types w k z else 0 := by
    rw [Finset.sum_ite_eq' (Finset.range w.size) x, if_pos hlive]
  rw [hself, units, units, units, h.size]
  simp only [Containment.total_eq_sum_share]
  rw [← Finset.sum_add_distrib, ← Finset.sum_add_distrib]
  refine Finset.sum_congr rfl fun z _ => ?_
  have hbody : unitsOf types _ k z = _ := unitsOf_eq (h.body z)
  by_cases hz : z = x
  · subst hz
    have hgone : ¬ Holds w' {.player q} z := not_holds fun d hd => ((h.mem d z).1 hd).2 rfl
    rw [Containment.share_of_not hgone, Containment.share_of_not (hw.not_holds_self hx),
      Containment.share_of hx, if_pos rfl]
    omega
  rw [if_neg hz]
  by_cases hin : Holds w {.item x} z
  · rw [Containment.share_of_not (h.not_holds_inner hw hin), Containment.share_of hin,
      Containment.share_of (hx.trans hin)]
    omega
  · rw [Containment.share_of_not hin]
    have hiff : Holds w' {.player q} z ↔ Holds w {.player q} z :=
      ⟨fun hz' => Containment.Held.mono (fun d u hu => Or.inl ((h.mem d u).1 hu).1) hz',
        fun hz' => (h.holds_split hz').resolve_right (not_or.2 ⟨hz, hin⟩)⟩
    rw [Containment.share_congr hiff hbody]
    omega

/-! ## Changes elsewhere -/

theorem players_updateThing (c : Cylinder) (x id n : ℕ) : (updateThing types w c x id n).players = w.players := by
  simp only [updateThing]
  split_ifs
  · rfl
  · cases c <;> rfl

/-- What is put in elsewhere changes nothing that is held. -/
theorem addThing_outside (hw : w.WF types) (hx : ∀ d, x ∉ w.contents d) (hc : ¬ Within w R c) (index : ℤ) :
    (∀ z, Holds (addThing types w c index x) R z ↔ Holds w R z) ∧
      ∀ k, units types (addThing types w c index x) R k = units types w R k := by
  have hholds : ∀ z, Holds (addThing types w c index x) R z ↔ Holds w R z := by
    intro z
    by_cases hacc : Accepts types w c index x
    · exact (addThing_added hacc).holds_outside hc
    · cases addThing_spoiled hw hx hacc with
      | dropped hcontents _ _ _ => exact holds_congr fun d u => by rw [hcontents]
      | replaced w₀ y _ hy _ htaken hadded =>
        have hout : ¬ Holds w R y := fun hheld => hc (hw.within_of_holds hheld hy)
        have hc₀ : ¬ Within w₀ R c := fun h => hc (h.mono fun u hu => (htaken.holds_outside hout).1 hu)
        exact (hadded.holds_outside hc₀).trans (htaken.holds_outside hout)
  exact ⟨hholds, units_congr types (size_addThing _ _ _ _) (body_addThing hw _ _ hx) hholds⟩

/-- A stack elsewhere may change. -/
theorem updateThing_outside (hw : w.WF types) {y : ℕ}
    (hstack : (w.items y).isStackable types = true) (hc : ¬ Within w R c) (n : ℕ) :
    (∀ z, Holds (updateThing types w c y (w.items y).id n) R z ↔ Holds w R z) ∧
      ∀ k, units types (updateThing types w c y (w.items y).id n) R k = units types w R k := by
  have h := updateThing_restacked hw (c := c) hstack n
  have hholds : ∀ z, Holds (updateThing types w c y (w.items y).id n) R z ↔ Holds w R z := fun z =>
    holds_congr fun d u => by rw [h.contents]
  refine ⟨hholds, fun k => ?_⟩
  by_cases hindex : w.getThingIndex types c y = -1
  · rw [updateThing_of_index hindex]
  · have hy : ¬ Holds w R y := fun hy =>
      hc (hw.within_of_holds hy (World.mem_contents_of_getThingIndex hindex))
    exact units_congr_of_held types h.size (fun z hz => h.body z fun e => hy (e ▸ hz)) hholds k

end TiabloServer.Items
