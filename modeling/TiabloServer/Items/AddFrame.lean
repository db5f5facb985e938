import TiabloServer.Items.AddConservation
import TiabloServer.Items.Trees

/-!
# The frame of an addition

What the rounds of an addition leave as it is: the world stays well-formed, players and tiles stay
in their places, and an addition to a cylinder elsewhere adds nothing to what the trees hold. With
this the units of an addition are known wherever its cylinder lies.

## Main definitions

* `Items.Settled` — the world stays well-formed, and nobody has moved.
* `Items.Gets` — all of an item arrives in the trees when it is added to a container or a tile.

## Main results

* `Items.addRounds_induction` — the rule of the rounds.
* `Items.addRounds_settled` — the rounds of an addition keep the world settled.
* `Items.addRounds_elsewhere` — an addition elsewhere adds no units to the trees.
* `Items.gets_iff` — an addition adds all units of its item exactly when the trees get them.
-/

namespace TiabloServer.Items

open ReturnValue

variable {cfg : Config} {types : ItemTypes} {w w' w'' : World} {R : Set Cylinder} {x n : ℕ}
  {c : Cylinder} {index : ℤ} {flags : ℕ}

/-! ## What stays -/

/-- Every player is on the tile where he was, and every tile leads where it led. -/
structure Stays (w w' : World) : Prop where
  tile : ∀ p, (w'.players p).tile = (w.players p).tile
  floorChange : ∀ t, (w'.tiles t).floorChange = (w.tiles t).floorChange

theorem Stays.refl (w : World) : Stays w w := ⟨fun _ => rfl, fun _ => rfl⟩

theorem Stays.trans (h : Stays w w') (h' : Stays w' w'') : Stays w w'' :=
  ⟨fun p => (h'.tile p).trans (h.tile p), fun t => (h'.floorChange t).trans (h.floorChange t)⟩

theorem stays_setParent (w : World) (y : ℕ) (d : Option Cylinder) : Stays w (w.setParent y d) :=
  ⟨fun _ => rfl, fun _ => rfl⟩

theorem stays_setSlot (w : World) (p slot : ℕ) (y : Option ℕ) : Stays w (w.setSlot p slot y) := by
  refine ⟨fun q => ?_, fun _ => rfl⟩
  rcases eq_or_ne q p with rfl | hq
  · simp [World.setSlot, World.setPlayer]
  · simp [World.setSlot, World.setPlayer, Function.update_of_ne hq]

theorem stays_setTile (w : World) {t : ℕ} {tile : Tile}
    (h : tile.floorChange = (w.tiles t).floorChange) : Stays w (w.setTile t tile) := by
  refine ⟨fun _ => rfl, fun u => ?_⟩
  rcases eq_or_ne u t with rfl | hu
  · simp [World.setTile, h]
  · simp [World.setTile, Function.update_of_ne hu]

theorem stays_removeThing (types : ItemTypes) (w : World) (t y k : ℕ) :
    Stays w (Tile.removeThing types w t y k) := by
  unfold Tile.removeThing Tile.removeItem
  dsimp only
  split_ifs
  · exact .refl w
  · exact (stays_setParent w y none).trans (stays_setTile _ rfl)
  · exact (stays_setParent w y none).trans (stays_setTile _ rfl)
  · exact .refl w
  · exact ⟨fun _ => rfl, fun _ => rfl⟩
  · exact (stays_setParent w y none).trans (stays_setTile _ rfl)
  · exact .refl w

theorem stays_insertItem (types : ItemTypes) (w : World) (t y : ℕ) : Stays w (Tile.insertItem types w t y) := by
  unfold Tile.insertItem
  dsimp only
  split_ifs <;> exact stays_setTile w rfl

/-- `addThing` moves nobody. -/
theorem stays_addThing (types : ItemTypes) (w : World) (c : Cylinder) (index : ℤ) (x : ℕ) :
    Stays w (addThing types w c index x) := by
  cases c with
  | item n =>
    simp only [addThing, Container.addThing]
    split
    · exact .refl w
    · split_ifs
      · exact .refl w
      · exact ⟨fun _ => rfl, fun _ => rfl⟩
  | player p =>
    simp only [addThing, Player.addThing]
    split_ifs
    · exact .refl w
    · exact (stays_setParent w x _).trans (stays_setSlot _ p _ _)
  | tile t =>
    have hparent := stays_setParent w x (some (.tile t))
    simp only [addThing, Tile.addThing]
    split_ifs
    · exact .refl w
    · split
      · exact hparent.trans (stays_setTile _ rfl)
      · exact (hparent.trans (stays_setParent _ _ none)).trans (stays_setTile _ rfl)
    · split
      · exact hparent.trans (stays_insertItem types _ t x)
      · split_ifs
        · exact stays_setParent w x none
        · exact ((hparent.trans (stays_removeThing types _ t _ 1)).trans
            (stays_setParent _ _ none)).trans (stays_insertItem types _ t x)

theorem stays_updateThing (types : ItemTypes) (w : World) (c : Cylinder) (y id k : ℕ) :
    Stays w (updateThing types w c y id k) :=
  ⟨fun p => by rw [players_updateThing], fun t => floorChange_updateThing c y id k t⟩

theorem stays_create (w : World) (i : Item) : Stays w (w.create i) := ⟨fun _ => rfl, fun _ => rfl⟩

/-! ## Rounds -/

/-- **The rule of the rounds**: what holds of no change, of one change after another, of a new item,
and of a stack that changes and of an item that is put in at a destination `d` with `D d`, holds of
all rounds whose destinations are such. -/
theorem addRounds_induction {P : World → World → Prop} {D : Cylinder → Prop}
    (refl : ∀ w, P w w) (trans : ∀ {u v w}, P u v → P v w → P u w)
    (create : ∀ (w : World) (i : Item), w.WF cfg.types → i.container = none → P w (w.create i))
    (update : ∀ (w : World) (d : Cylinder) (y n : ℕ), w.WF cfg.types → D d →
      (w.items y).isStackable cfg.types = true → P w (updateThing cfg.types w d y (w.items y).id n))
    (add : ∀ (w : World) (d : Cylinder) (index : ℤ) (x : ℕ), w.WF cfg.types → D d →
      (∀ e, x ∉ w.contents e) → x < w.size → P w (addThing cfg.types w d index x))
    (fuel : ℕ) (hw : w.WF cfg.types) (hx : ∀ e, x ∉ w.contents e) (hlive : x < w.size)
    (hfirst : D (queryDestination cfg w c index x none flags).cylinder) (hdest : ∀ w', P w w' → ∀ x' flags',
      D (queryDestination cfg w' c INDEX_WHEREEVER x' none flags').cylinder) :
    P w (addRounds cfg fuel w c x index flags false).1 := by
  induction fuel generalizing w x index flags with
  | zero => exact refl w
  | succ fuel ih =>
    by_cases hchecks : addChecks cfg w c x index flags = RETURNVALUE_NOERROR
    swap
    · rw [addRounds_refused hchecks]
      exact refl w
    rw [addRounds_accepted hchecks]
    dsimp only
    cases htarget : addTarget cfg w c x index flags with
    | none => exact add w _ _ x hw hfirst hx hlive
    | some y =>
      obtain ⟨-, hstack, -⟩ := addTarget_spec htarget
      dsimp only
      set d := queryDestination cfg w c index x none flags
      set m := min (w.items x).getItemCount (addRoom cfg w c x index flags)
      set n := stackedCount cfg w y m
      set w₁ := updateThing cfg.types w d.cylinder y (w.items y).id ((w.items y).getItemCount + n)
      have hre : Restacked cfg.types w w₁ y := updateThing_restacked hw hstack _
      have h₁ : P w w₁ := update w _ y _ hw hfirst hstack
      by_cases hall : m - n = 0
      · rw [if_pos hall]
        exact h₁
      rw [if_neg hall]
      by_cases hwhole : m - n = (w.items x).getItemCount
      · rw [if_pos hwhole]
        exact trans h₁ (add w₁ _ _ x hre.wf hfirst (fun e => hre.contents e ▸ hx e) (hre.size ▸ hlive))
      · rw [if_neg hwhole]
        have hnone := newStack_container cfg.types w x (m - n)
        have h₂ := trans h₁ (create w₁ _ hre.wf hnone)
        exact trans h₂ (ih (hre.wf.create hnone) (hre.wf.size_nowhere hnone) (Nat.lt_succ_self _)
          (hdest _ h₂ _ _) fun w' h' => hdest w' (trans h₂ h'))

/-- The world is well-formed and has all its items, and nobody has moved. -/
structure Settled (types : ItemTypes) (w w' : World) : Prop extends Stays w w' where
  wf : w.WF types → w'.WF types
  size : w.size ≤ w'.size

theorem Settled.refl (types : ItemTypes) (w : World) : Settled types w w := ⟨.refl w, id, le_rfl⟩

theorem Settled.trans (h : Settled types w w') (h' : Settled types w' w'') : Settled types w w'' :=
  ⟨h.toStays.trans h'.toStays, h'.wf ∘ h.wf, h.size.trans h'.size⟩

theorem Settled.create {i : Item} (hi : i.container = none) : Settled types w (w.create i) :=
  ⟨stays_create w i, fun hw => hw.create hi, Nat.le_succ _⟩

/-- **The rounds of an addition keep the world settled.** -/
theorem addRounds_settled (cfg : Config) (fuel : ℕ) (hw : w.WF cfg.types) (hx : ∀ d, x ∉ w.contents d)
    (hlive : x < w.size) (c : Cylinder) (index : ℤ) (flags : ℕ) :
    Settled cfg.types w (addRounds cfg fuel w c x index flags false).1 := by
  refine addRounds_induction (D := fun _ => True) (Settled.refl cfg.types) Settled.trans
    (fun w i _ hi => .create hi) (fun w d y n hw _ hstack => ?_) (fun w d index x hw _ hx hlive => ?_)
    fuel hw hx hlive trivial fun _ _ _ _ => trivial
  · have hre := updateThing_restacked hw (c := d) hstack n
    exact ⟨stays_updateThing _ _ _ _ _ _, fun _ => hre.wf, hre.size.ge⟩
  · exact ⟨stays_addThing _ _ _ _ _, fun hw => hw.addThing d index hx hlive, (size_addThing _ _ _ _).ge⟩

/-- What a container puts in drives nothing out. -/
theorem addRounds_mem_item (fuel : ℕ) (hw : w.WF cfg.types) (hx : ∀ d, x ∉ w.contents d)
    (hlive : x < w.size) (n flags : ℕ) (d : Cylinder) (z : ℕ) (hz : z ∈ w.contents d) :
    z ∈ (addRounds cfg fuel w (.item n) x INDEX_WHEREEVER flags false).1.contents d := by
  refine addRounds_induction (D := fun e => e = .item n)
    (P := fun w w' => ∀ d z, z ∈ w.contents d → z ∈ w'.contents d) (fun _ _ _ h => h)
    (fun h h' d z hz => h' d z (h d z hz)) (fun w i hw hi d z hz => ?_)
    (fun w e y k hw _ hstack d z hz => ?_) (fun w e index x hw he hx _ d z hz => ?_) fuel hw hx hlive
    (queryDestination_item_wherever cfg w n x flags)
    (fun w' _ x' flags' => queryDestination_item_wherever cfg w' n x' flags') d z hz
  · rwa [hw.contents_create hi]
  · rwa [(updateThing_restacked hw hstack k).contents]
  · subst he
    by_cases hacc : Accepts cfg.types w (.item n) index x
    · exact ((addThing_added hacc).mem d z).2 (Or.inl hz)
    · cases addThing_spoiled hw hx hacc with
      | dropped hcontents _ _ _ => rwa [hcontents]
      | replaced w₀ y hold _ _ _ _ => exact absurd hold nofun

/-! ## Elsewhere -/

/-- **An addition elsewhere** adds no units to the trees: all its rounds lead to `d`. -/
theorem addRounds_elsewhere {d : Cylinder} (fuel flags : ℕ) (hw : w.WF cfg.types)
    (hx : ∀ e, x ∉ w.contents e) (hlive : x < w.size) (hdest : ∀ w', Stays w w' → ∀ x' flags',
      (queryDestination cfg w' c INDEX_WHEREEVER x' none flags').cylinder = d) (hd : ¬ Within w R d) (k : ℕ) :
    units cfg.types (addRounds cfg fuel w c x INDEX_WHEREEVER flags false).1 R k = units cfg.types w R k := by
  have hcongr : ∀ {w w' : World}, (∀ z, Holds w' R z ↔ Holds w R z) → ¬ Within w R d → ¬ Within w' R d :=
    fun hholds hd h => hd (h.mono fun z hz => (hholds z).1 hz)
  refine ((addRounds_induction (D := fun e => e = d)
    (P := fun w w' => Stays w w' ∧ (¬ Within w R d → ¬ Within w' R d ∧
      ∀ k, units cfg.types w' R k = units cfg.types w R k))
    (fun w => ⟨.refl w, fun h => ⟨h, fun _ => rfl⟩⟩) (fun h h' => ⟨h.1.trans h'.1, fun hd => ?_⟩)
    (fun w i hw hi => ⟨stays_create w i, fun hd => ?_⟩)
    (fun w e y n hw he hstack => ⟨stays_updateThing _ _ _ _ _ _, fun hd => ?_⟩)
    (fun w e index x hw he hx _ => ⟨stays_addThing _ _ _ _ _, fun hd => ?_⟩) fuel hw hx hlive
    (hdest w (.refl w) x flags) fun w' h' x' flags' => hdest w' h'.1 x' flags').2 hd).2 k
  · obtain ⟨hd', hunits⟩ := h.2 hd
    obtain ⟨hd'', hunits'⟩ := h'.2 hd'
    exact ⟨hd'', fun k => (hunits' k).trans (hunits k)⟩
  · exact ⟨hcongr (fun z => holds_congr fun e u => by rw [hw.contents_create hi]) hd,
      fun k => hw.units_create hi k⟩
  · subst he
    obtain ⟨hholds, hunits⟩ := updateThing_outside hw hstack hd n
    exact ⟨hcongr hholds hd, hunits⟩
  · subst he
    obtain ⟨hholds, hunits⟩ := addThing_outside hw hx hd index
    exact ⟨hcongr hholds hd, hunits⟩

/-! ## Where the units go -/

/-- A cylinder within the trees adds nothing to them as a tree of its own. -/
theorem units_insert (types : ItemTypes) (hc : Within w R c) (k : ℕ) :
    units types w (insert c R) k = units types w R k := by
  have hholds : ∀ z, Holds w (insert c R) z ↔ Holds w R z := by
    refine fun z => ⟨fun hz => ?_, fun hz => hz.mono_set (Set.subset_insert c R)⟩
    induction hz with
    | direct hd hu =>
      rcases hd with rfl | hd
      · exact hc.holds hu
      · exact holds_of_mem hd hu
    | nested _ hu ih => exact .nested ih hu
  rw [units, units, Containment.total_eq_sum_share, Containment.total_eq_sum_share]
  exact Finset.sum_congr rfl fun z _ => Containment.share_congr (hholds z) rfl

/-- All of an item arrives in the trees of `R` when it is added to the container or the tile `c`: it
is accepted, `c` leads into the trees, and nothing is lost on the way. -/
def Gets (cfg : Config) (R : Set Cylinder) (w : World) (c : Cylinder) (x flags : ℕ) : Prop :=
  addChecks cfg w c x INDEX_WHEREEVER flags = RETURNVALUE_NOERROR ∧
    Within w R (queryDestination cfg w c INDEX_WHEREEVER x none flags).cylinder ∧
    AddsAll cfg (insert c R) c ((w.items x).getItemCount + 1) w x INDEX_WHEREEVER flags

/-- An item that is to be put somewhere: it lies nowhere, what is in it is held without it, and it
counts for something. -/
structure Loose (types : ItemTypes) (R : Set Cylinder) (w : World) (x : ℕ) : Prop where
  wf : w.WF types
  nowhere : ∀ d, x ∉ w.contents d
  live : x < w.size
  inner : Inner w R x
  pos : 0 < unitsOf types w (w.items x).id x

/-- Where an addition to a container or to a tile leads: always to one and the same cylinder. -/
theorem queryDestination_stays (hc : (∃ n, c = .item n) ∨ ∃ t, c = .tile t) (h : Stays w w')
    (x x' flags flags' : ℕ) : (queryDestination cfg w' c INDEX_WHEREEVER x' none flags').cylinder =
      (queryDestination cfg w c INDEX_WHEREEVER x none flags).cylinder := by
  rcases hc with ⟨n, rfl⟩ | ⟨t, rfl⟩
  · rw [queryDestination_item_wherever, queryDestination_item_wherever]
  · simp only [queryDestination, Tile.queryDestination, h.floorChange]

/-- An addition that leads into the trees is one to the trees, and `c` may count as one of them. -/
theorem Loose.addable (h : Loose cfg.types R w x) (hc : (∃ n, c = .item n) ∨ ∃ t, c = .tile t)
    (hdest : Within w R (queryDestination cfg w c INDEX_WHEREEVER x none flags).cylinder) :
    Addable cfg.types (insert c R) w c x := by
  refine ⟨h.wf, h.nowhere, h.live, h.inner.imp_left (Set.mem_insert_of_mem _), Set.mem_insert _ _,
    fun t ht => Set.mem_insert_of_mem _ ?_⟩
  subst ht
  refine hdest.resolve_right ?_
  rintro ⟨m, -, hm⟩
  exact nomatch hm

/-- The cylinder of an addition that leads into the trees lies in them, before and after it. -/
theorem Loose.within (h : Loose cfg.types R w x) (hc : (∃ n, c = .item n) ∨ ∃ t, c = .tile t ∧ c ∈ R)
    (hdest : Within w R (queryDestination cfg w c INDEX_WHEREEVER x none flags).cylinder) (fuel : ℕ) :
    Within w R c ∧ Within (addRounds cfg fuel w c x INDEX_WHEREEVER flags false).1 R c := by
  rcases hc with ⟨n, rfl⟩ | ⟨t, rfl, ht⟩
  · rw [queryDestination_item_wherever] at hdest
    exact ⟨hdest, hdest.mono fun z hz => Containment.Held.mono (fun d u hu =>
      Or.inl (addRounds_mem_item fuel h.wf h.nowhere h.live n flags d u hu)) hz⟩
  · exact ⟨Or.inl ht, Or.inl ht⟩

/-- **An addition to a container or to a tile of the trees** adds all units of its item exactly when
the trees get them, and never more. -/
theorem gets_iff (h : Loose cfg.types R w x) (hc : (∃ n, c = .item n) ∨ ∃ t, c = .tile t ∧ c ∈ R)
    (flags : ℕ) :
    let r := internalAddItem cfg w c x INDEX_WHEREEVER flags false
    units cfg.types r.1 R (w.items x).id ≤
        units cfg.types w R (w.items x).id + unitsOf cfg.types w (w.items x).id x ∧
      (units cfg.types r.1 R (w.items x).id =
        units cfg.types w R (w.items x).id + unitsOf cfg.types w (w.items x).id x ↔
          Gets cfg R w c x flags) := by
  have hpos := h.pos
  have hc' : (∃ n, c = .item n) ∨ ∃ t, c = .tile t := hc.imp_right fun ⟨t, ht, _⟩ => ⟨t, ht⟩
  unfold Gets internalAddItem
  dsimp only
  by_cases hchecks : addChecks cfg w c x INDEX_WHEREEVER flags = RETURNVALUE_NOERROR
  swap
  · rw [addRounds_refused hchecks]
    dsimp only
    exact ⟨by omega, iff_of_false (by omega) fun hg => hchecks hg.1⟩
  by_cases hdest : Within w R (queryDestination cfg w c INDEX_WHEREEVER x none flags).cylinder
  · have haddable := h.addable hc' hdest
    have hunits := addRounds_units haddable (haddable.within x flags) hchecks
      (Nat.lt_succ_self (w.items x).getItemCount)
    obtain ⟨hin, hin'⟩ := h.within hc hdest ((w.items x).getItemCount + 1)
    rw [units_insert cfg.types hin, units_insert cfg.types hin'] at hunits
    exact hunits.imp_right fun hiff => hiff.trans (by simp [hchecks, hdest])
  · have hsame := addRounds_elsewhere ((w.items x).getItemCount + 1) flags h.wf h.nowhere h.live
      (fun w' h' x' flags' => queryDestination_stays hc' h' x x' flags flags') hdest (w.items x).id
    exact ⟨by omega, iff_of_false (by omega) fun hg => hdest hg.2.1⟩

/-- An addition adds nothing to the units of other ids. -/
theorem addItem_other (h : Loose cfg.types R w x)
    (hc : (∃ n, c = .item n) ∨ ∃ t, c = .tile t ∧ c ∈ R) (flags : ℕ) {k : ℕ}
    (hk : (w.items x).id ≠ k) (hid : createdId cfg.types (w.items x).id = (w.items x).id) :
    units cfg.types (internalAddItem cfg w c x INDEX_WHEREEVER flags false).1 R k ≤ units cfg.types w R k := by
  have hc' : (∃ n, c = .item n) ∨ ∃ t, c = .tile t := hc.imp_right fun ⟨t, ht, _⟩ => ⟨t, ht⟩
  unfold internalAddItem
  by_cases hdest : Within w R (queryDestination cfg w c INDEX_WHEREEVER x none flags).cylinder
  · have haddable := h.addable hc' hdest
    have hunits := addRounds_other ((w.items x).getItemCount + 1) haddable (haddable.within x flags) hk
      hid
    obtain ⟨hin, hin'⟩ := h.within hc hdest ((w.items x).getItemCount + 1)
    rwa [units_insert cfg.types hin, units_insert cfg.types hin'] at hunits
  · exact (addRounds_elsewhere ((w.items x).getItemCount + 1) flags h.wf h.nowhere h.live
      (fun w' h' x' flags' => queryDestination_stays hc' h' x x' flags flags') hdest k).le

end TiabloServer.Items
