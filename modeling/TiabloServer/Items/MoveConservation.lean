import TiabloServer.Items.Holding
import TiabloServer.Items.MovePlan
import TiabloServer.Items.Samples
import TiabloServer.Items.Stacks

/-!
# Conservation of a move

When `internalMoveItem` loses nothing. What it takes out of the source it hands to `addThing` of the
destination, which drops what it does not accept: an index beyond the capacity of a paginated
container passes all queries, and is refused only then.

## Main definitions

* `Items.MovePlan.Keeps` — a plan all of whose items arrive.
* `Items.MoveKeeps` — a move whose exchange and whose plan lose nothing.

## Main results

* `Items.conserved_iff_moveKeeps` — a move conserves units and items exactly when it keeps.
* `Items.not_conserved_goldPouch` — a move into a gold pouch that loses the item.
-/

namespace TiabloServer.Items

open Containment ReturnValue

/-! ## Moving a whole item -/

section Whole

variable {types : ItemTypes} {w w₁ w' : World} {R : Set Cylinder} {x : ℕ} {b c : Cylinder}

/-- An item that goes from one cylinder of `R` to another stays held, with all that is in it. -/
theorem holds_iff_of_moved (h₁ : Taken w w₁ x) (h₂ : Added types w₁ w' c x)
    (hx : x ∈ w.contents b) (hb : b ∈ R) (hc : c ∈ R) {y : ℕ} : Holds w' R y ↔ Holds w R y := by
  refine ⟨fun hy => Held.mono (fun d z hz => ?_) hy, fun hy => Held.mono (fun d z hz => ?_) hy⟩
  · rcases (h₂.mem d z).1 hz with hz | ⟨-, rfl⟩
    · exact Or.inl ((h₁.mem d z).1 hz).1
    · exact Or.inr (holds_of_mem hb hx)
  · by_cases hzx : z = x
    · subst hzx
      exact Or.inr (holds_of_mem hc ((h₂.mem c z).2 (Or.inr ⟨rfl, rfl⟩)))
    · exact Or.inl ((h₂.mem d z).2 (Or.inl ((h₁.mem d z).2 ⟨hz, hzx⟩)))

/-- Units are lost with an item that is no longer held. -/
theorem units_lt (types : ItemTypes) (hsize : w'.size = w.size) (hbody : ∀ y, (w'.items y).body = (w.items y).body)
    (hholds : ∀ y, Holds w' R y → Holds w R y) (hlive : x < w.size) (hx : Holds w R x)
    (hx' : ¬ Holds w' R x) {k : ℕ} (hpos : 0 < unitsOf types w k x) : units types w' R k < units types w R k := by
  rw [units, units, hsize, total_eq_sum_share, total_eq_sum_share]
  refine Finset.sum_lt_sum (fun y _ => ?_) ⟨x, by simpa using hlive, ?_⟩
  · by_cases hy : Holds w' R y
    · rw [share_of hy, share_of (hholds y hy), unitsOf_eq (hbody y)]
    · rw [share_of_not hy]
      exact Nat.zero_le _
  · rwa [share_of_not hx', share_of hx]

/-- **A whole item moves without loss** when the destination accepts it, and only then. -/
theorem conserved_iff_of_whole (hw : w.WF types) (h₁ : Taken w w₁ x) (hx : x ∈ w.contents b)
    (hb : b ∈ R) (hc : c ∈ R) (hstack : (w.items x).isStackable types = false) {index : ℤ} :
    Conserved types R x w (addThing types w₁ c index x) ↔ Accepts types w₁ c index x := by
  have hw₁ := hw.of_taken h₁
  have hnowhere : ∀ d, x ∉ w₁.contents d := fun d hd => ((h₁.mem d x).1 hd).2 rfl
  refine ⟨fun h => ?_, fun h => ?_⟩
  · by_contra hacc
    have h₂ := addThing_spoiled hw₁ hnowhere hacc
    rcases h₂.lost with hdrop | ⟨y, hy, hyx, hlost⟩
    · have hmem : ∀ d y, y ∈ (addThing types w₁ c index x).contents d → y ∈ w.contents d := by
        intro d y hy
        rw [hdrop] at hy
        exact ((h₁.mem d y).1 hy).1
      have hgone : ¬ Holds (addThing types w₁ c index x) R x := not_holds fun d hd =>
        hnowhere d (hdrop d ▸ hd)
      have hlt := units_lt types (k := (w.items x).id) (h₂.size.trans h₁.size)
        (fun y => (h₂.body y).trans (h₁.body y))
        (fun y hy => Held.mono (fun d z hz => Or.inl (hmem d z hz)) hy) (hw.live b x hx)
        (holds_of_mem hb hx) hgone (by simp [unitsOf, hstack])
      exact hlt.ne (h.units _)
    · have hyw : y ∈ w.contents c := ((h₁.mem c y).1 hy).1
      exact not_holds hlost (h.kept y hyx (holds_of_mem hc hyw))
  · have h₂ := addThing_added h
    have hholds := fun y => holds_iff_of_moved (y := y) h₁ h₂ hx hb hc
    exact ⟨units_congr _ (h₂.size.trans h₁.size) (fun y => (h₂.body y).trans (h₁.body y)) hholds,
      fun y _ hy => (hholds y).2 hy⟩

end Whole


/-! ## Moving a part of a stack -/

section Part

variable {cfg : Config} {w w' : World} {R : Set Cylinder} {x : ℕ} {c : Cylinder}

/-- Nothing is lost exactly when no unit is missing, once all items are kept. -/
theorem Balanced.conserved_iff {types : ItemTypes} {k : ℕ} {P : Prop}
    (h : Balanced types R k 0 P w w') (hkept : ∀ y, y ≠ x → Holds w R y → Holds w' R y) :
    Conserved types R x w w' ↔ P := by
  rw [← h.eq_iff]
  constructor
  · intro hc
    rw [hc.units k, add_zero]
  · intro hk
    refine ⟨fun j => ?_, hkept⟩
    rcases eq_or_ne j k with rfl | hj
    · omega
    · exact h.other j hj

end Part

/-! ## Transfers -/

section Transfer

variable {cfg : Config} {a : MoveArgs} {p : MovePlan} {R : Set Cylinder}

/-- Whether all that a plan moves arrives. The source gives away no more than is moved; what goes on
the stack at the destination fits there, and what is left goes in as a new stack; an item that does
not stack is accepted as it is. -/
def MovePlan.Keeps (cfg : Config) (a : MoveArgs) (p : MovePlan) : Prop :=
  let w := removeThing cfg.types p.world a.fromCylinder a.item p.m
  let item := p.world.items a.item
  if item.isStackable cfg.types then
    let s := stackOnto cfg w p.toCylinder a.item p.toItem p.m
    (TakesAll cfg.types p.world a.fromCylinder a.item → p.m = item.getItemCount) ∧
      Merges cfg.types w p.toCylinder p.toItem s.2 ∧
      (0 < p.m - s.2 → Fits cfg.types s.1 p.toCylinder p.index a.item (p.m - s.2))
  else Accepts cfg.types w p.toCylinder p.index a.item

/-- **A transfer loses nothing exactly when all of it arrives.** -/
theorem conserved_transferItem (hw : p.world.WF cfg.types) (hfrom : a.fromCylinder ∈ R)
    (hto : p.toCylinder ∈ R) (hitem : p.toItem ≠ some a.item) {flags : ℕ}
    (hremove : queryRemove cfg p.world a.fromCylinder a.item p.m flags = RETURNVALUE_NOERROR) :
    Conserved cfg.types R a.item p.world (transferItem cfg a p) ↔ p.Keeps cfg a := by
  obtain ⟨hindex, -, hle⟩ := of_queryRemove hremove
  have hmem := World.mem_contents_of_getThingIndex hindex
  cases hstack : (p.world.items a.item).isStackable cfg.types with
  | false =>
    have htaken := removeThing_taken hw (k := p.m) hindex (Or.inl hstack)
    have hstack₁ := (Item.isStackable_eq (htaken.body a.item) cfg.types).trans hstack
    simp only [transferItem, MovePlan.Keeps, hstack, hstack₁, Bool.false_eq_true, if_false]
    exact conserved_iff_of_whole hw htaken hmem hfrom hto hstack
  | true =>
    have hm := hle hstack
    have hlt := getItemCount_lt (p.world.items a.item)
    have hless := removeThing_lessened hw (.inl hfrom) hindex hstack hm
    set w₁ := removeThing cfg.types p.world a.fromCylinder a.item p.m with hw₁
    have hstack₁ : (w₁.items a.item).isStackable cfg.types = true := by
      rwa [Item.isStackable, Item.type, hless.id]
    have honto := stackOnto_spec hless.wf (.inl hto) hstack₁ hitem p.m
    simp only [transferItem, MovePlan.Keeps, ← hw₁, hstack, hstack₁, if_true]
    set s := stackOnto cfg w₁ p.toCylinder a.item p.toItem p.m with hs
    have hbal := hless.balanced.trans (hless.id ▸ honto.balanced)
    have hholds : ∀ y, Holds s.1 R y ↔ Holds w₁ R y := fun y =>
      holds_congr fun d z => by rw [honto.contents]
    have hkept₁ : ∀ y, y ≠ a.item → Holds p.world R y → Holds s.1 R y := fun y hy h =>
      (hholds y).2 ((hless.holds y hy).2 h)
    by_cases hrest : 0 < p.m - s.2
    · have hstack₂ := (Item.isStackable_eq honto.body cfg.types).trans hstack₁
      have hid₂ : (s.1.items a.item).id = (p.world.items a.item).id :=
        (Item.body_eq honto.body).1.trans hless.id
      simp only [if_pos hrest, addClone]
      by_cases hfits : Fits cfg.types s.1 p.toCylinder p.index a.item (p.m - s.2)
      · obtain ⟨hbal₂, hkept₂⟩ := addClone_fits (R := R) honto.wf (.inl hto) hstack₂ (by omega) hfits
        have hall := (hbal.trans (hid₂ ▸ hbal₂)).congr (show _ = (0 : ℤ) by omega) Iff.rfl
        refine (hall.conserved_iff fun y hy h => hkept₂ y (hkept₁ y hy h)).trans ?_
        simp [hfits, hrest]
      · -- the rest of the stack is lost, or another item for it
        refine iff_of_false (fun hcons => ?_) (fun h => hfits (h.2.2 hrest))
        have hleft : Holds s.1 R a.item → 0 < (s.1.items a.item).getItemCount := by
          intro h
          rw [Item.getItemCount_eq honto.body]
          exact hless.left ((hholds _).1 h)
        rcases addClone_not_fits (R := R) honto.wf (.inl hto) hstack₂ hrest (by omega) hleft hfits
          with hlt | ⟨y, hy, hyheld, hlost⟩
        · have hunits := hcons.units (p.world.items a.item).id
          have hle := hbal.le
          rw [hid₂] at hlt
          simp only [newStack] at hunits hlt
          omega
        · exact hlost (hcons.kept y hy ((hless.holds y hy).1 ((hholds y).1 hyheld)))
    · simp only [if_neg hrest]
      have hall := hbal.congr (show _ = (0 : ℤ) by have := honto.le; omega) Iff.rfl
      refine (hall.conserved_iff hkept₁).trans ?_
      simp [hrest]

end Transfer

/-! ## Exchanges -/

section Exchange

variable {cfg : Config} {w : World} {a : MoveArgs} {R : Set Cylinder}

/-- Whether `addThing(thing)` puts an item in and nothing has to make room for it; an inventory
drops it. -/
def AcceptsAnywhere (types : ItemTypes) (w : World) (c : Cylinder) (x : ℕ) : Prop :=
  match c with
  | .player _ => False
  | c => Accepts types w c 0 x

/-- The world without the item at the destination that is exchanged. -/
def withoutExchanged (cfg : Config) (w : World) (c : Cylinder) (y : ℕ) : World :=
  removeThing cfg.types w c y (w.items y).getItemCount

theorem exchangeItem_eq (cfg : Config) (a : MoveArgs) (w : World) (d : Destination) (y : ℕ) :
    (∃ p, a.fromCylinder = .player p) ∧ exchangeItem cfg a w d y = withoutExchanged cfg w d.cylinder y ∨
      (∀ p, a.fromCylinder ≠ .player p) ∧ exchangeItem cfg a w d y =
        addThing cfg.types (withoutExchanged cfg w d.cylinder y) a.fromCylinder 0 y := by
  unfold exchangeItem addThingAnywhere
  cases a.fromCylinder with
  | item n => exact Or.inr ⟨nofun, rfl⟩
  | player p => exact Or.inl ⟨⟨p, rfl⟩, rfl⟩
  | tile t => exact Or.inr ⟨nofun, rfl⟩

theorem acceptsAnywhere_iff {types : ItemTypes} {c : Cylinder} {x : ℕ} :
    AcceptsAnywhere types w c x ↔ (∀ p, c ≠ .player p) ∧ Accepts types w c 0 x := by
  cases c <;> simp [AcceptsAnywhere]

/-- An exchange keeps all items as they are. -/
theorem body_exchangeItem (hw : w.WF cfg.types) {d : Destination} {y flags : ℕ}
    (hremove : queryRemove cfg w d.cylinder y (w.items y).getItemCount flags = RETURNVALUE_NOERROR)
    (x : ℕ) : ((exchangeItem cfg a w d y).items x).body = (w.items x).body := by
  have htaken := removeThing_taken hw (of_queryRemove hremove).1 (Or.inr (Or.inl rfl))
  rcases exchangeItem_eq cfg a w d y with ⟨-, h⟩ | ⟨-, h⟩
  · rw [h]
    exact htaken.body x
  · rw [h]
    exact (body_addThing (hw.of_taken htaken) _ _ (nowhere_of_removed hw hremove (Or.inr rfl))
      x).trans (htaken.body x)

@[simp] theorem size_exchangeItem (d : Destination) (y : ℕ) : (exchangeItem cfg a w d y).size = w.size := by
  rcases exchangeItem_eq cfg a w d y with ⟨-, h⟩ | ⟨-, h⟩ <;>
    simp [h, withoutExchanged]

/-- An exchange puts nothing anywhere but its item. -/
theorem mem_of_exchangeItem {d : Destination} {y z : ℕ} {c : Cylinder}
    (h : z ∈ (exchangeItem cfg a w d y).contents c) : z ∈ w.contents c ∨ z = y := by
  rcases exchangeItem_eq cfg a w d y with ⟨-, he⟩ | ⟨-, he⟩
  · exact Or.inl (mem_of_removeThing (he ▸ h))
  · exact (mem_of_addThing (he ▸ h)).imp_left mem_of_removeThing

theorem exchangeItem_added {d : Destination} {y : ℕ}
    (hacc : AcceptsAnywhere cfg.types (withoutExchanged cfg w d.cylinder y) a.fromCylinder y) :
    Added cfg.types (withoutExchanged cfg w d.cylinder y) (exchangeItem cfg a w d y) a.fromCylinder y := by
  obtain ⟨hplayer, hacc⟩ := acceptsAnywhere_iff.1 hacc
  rcases exchangeItem_eq cfg a w d y with ⟨⟨p, hp⟩, -⟩ | ⟨-, h⟩
  · exact absurd hp (hplayer p)
  · rw [h]
    exact addThing_added hacc

/-- An exchange that the source accepts changes nothing that is held. -/
theorem exchangeItem_accepted (hw : w.WF cfg.types) {d : Destination} {y flags : ℕ}
    (hfrom : a.fromCylinder ∈ R) (hto : d.cylinder ∈ R)
    (hremove : queryRemove cfg w d.cylinder y (w.items y).getItemCount flags = RETURNVALUE_NOERROR)
    (hacc : AcceptsAnywhere cfg.types (withoutExchanged cfg w d.cylinder y) a.fromCylinder y)
    (x : ℕ) : Holds (exchangeItem cfg a w d y) R x ↔ Holds w R x := by
  obtain ⟨hindex, -, -⟩ := of_queryRemove hremove
  have htaken := removeThing_taken hw hindex (Or.inr (Or.inl rfl))
  exact holds_iff_of_moved htaken (exchangeItem_added hacc)
    (World.mem_contents_of_getThingIndex hindex) hto hfrom

/-- An exchange that the source does not accept leaves an item nowhere that was held. -/
theorem exchangeItem_lost (hw : w.WF cfg.types) {d : Destination} {y flags : ℕ}
    (hfrom : a.fromCylinder ∈ R) (hto : d.cylinder ∈ R)
    (hremove : queryRemove cfg w d.cylinder y (w.items y).getItemCount flags = RETURNVALUE_NOERROR)
    (hacc : ¬ AcceptsAnywhere cfg.types (withoutExchanged cfg w d.cylinder y) a.fromCylinder y) :
    ∃ z, Holds w R z ∧ ∀ e, z ∉ (exchangeItem cfg a w d y).contents e := by
  obtain ⟨hindex, -, -⟩ := of_queryRemove hremove
  have hheld : Holds w R y := holds_of_mem hto (World.mem_contents_of_getThingIndex hindex)
  have htaken := removeThing_taken hw hindex (Or.inr (Or.inl rfl))
  have hnowhere := nowhere_of_removed hw hremove (Or.inr rfl)
  rcases exchangeItem_eq cfg a w d y with ⟨-, h⟩ | ⟨hplayer, h⟩
  · rw [h]
    exact ⟨y, hheld, hnowhere⟩
  have hspoil := addThing_spoiled (hw.of_taken htaken) hnowhere fun h =>
    hacc (acceptsAnywhere_iff.2 ⟨hplayer, h⟩)
  rw [h]
  rcases hspoil.lost with hdrop | ⟨z, hz, -, hlost⟩
  · exact ⟨y, hheld, fun e he => hnowhere e (hdrop e ▸ he)⟩
  · exact ⟨z, holds_of_mem hfrom ((htaken.mem _ z).1 hz).1, hlost⟩

end Exchange

/-! ## Moves -/

section Moves

variable {cfg : Config} {w w₀ : World} {a : MoveArgs} {R : Set Cylinder}

/-- Whether a move loses nothing: the source accepts the item that is exchanged, and all that is
moved arrives. -/
def MoveKeeps (cfg : Config) (a : MoveArgs) (w : World) : Prop :=
  (∀ y ∈ exchangedItem cfg a w,
    AcceptsAnywhere cfg.types (withoutExchanged cfg w (a.destination cfg w).cylinder y)
      a.fromCylinder y) ∧
    ∀ p, planMove cfg a w = .inr p → p.Keeps cfg a

/-- The cylinders that a move is about: the source, the destination, and where the destination leads
to. -/
def MoveArgs.cylinders (cfg : Config) (a : MoveArgs) (w : World) : Set Cylinder :=
  {a.fromCylinder, a.toCylinder, (a.destination cfg w).cylinder}

/-- From the world on in which the last checks are made, a move loses nothing exactly when its plan
keeps. -/
theorem conserved_of_outcome {d : Destination} (hw : w.WF cfg.types) (hfrom : a.fromCylinder ∈ R)
    (hto : d.cylinder ∈ R) (h : PlanOutcome cfg a w d (planMove cfg a w₀)) :
    Conserved cfg.types R a.item w (internalMoveItem cfg a w₀).1 ↔
      ∀ p, planMove cfg a w₀ = .inr p → p.Keeps cfg a := by
  unfold internalMoveItem
  generalize planMove cfg a w₀ = r at h ⊢
  cases h with
  | refused ret _ => exact iff_of_true ⟨fun _ => rfl, fun _ _ h => h⟩ (fun _ h => nomatch h)
  | planned p hp =>
    obtain rfl := hp.world
    rw [← hp.cylinder] at hto
    simpa using conserved_transferItem hw hfrom hto hp.item hp.remove

/-- An item that an exchange has left nowhere stays lost. -/
theorem not_conserved_of_lost {d : Destination} {z : ℕ} (hw₀ : w₀.WF cfg.types)
    (hsize : w.size = w₀.size) (hbody : ∀ x, (w.items x).body = (w₀.items x).body)
    (hholds : ∀ x, Holds w R x → Holds w₀ R x) (hz : Holds w₀ R z) (hlost : ∀ e, z ∉ w.contents e)
    (hpos : 0 < unitsOf cfg.types w₀ (w₀.items a.item).id a.item) (h : PlanOutcome cfg a w d (planMove cfg a w₀)) :
    ¬ Conserved cfg.types R a.item w₀ (internalMoveItem cfg a w₀).1 := by
  intro hcons
  unfold internalMoveItem at hcons
  generalize planMove cfg a w₀ = r at h hcons
  rcases eq_or_ne z a.item with rfl | hne
  · cases h with
    | refused ret _ =>
      exact (units_lt _ hsize hbody hholds (hw₀.lt_size hz) hz (not_holds hlost) hpos).ne
        (hcons.units _)
    | planned p hp =>
      exact hlost _ (World.mem_contents_of_getThingIndex (of_queryRemove hp.remove).1)
  · have hkept := hcons.kept z hne hz
    cases h with
    | refused ret _ => exact not_holds hlost hkept
    | planned p hp =>
      refine not_holds (fun e he => ?_) hkept
      obtain rfl := hp.world
      rcases mem_of_transferItem he with he | rfl | hle
      · exact hlost e he
      · exact hne rfl
      · have hlt := hw₀.lt_size hz
        omega

/-- **A move loses nothing exactly when it keeps**, among any cylinders that include its source and
the one where it leads to. -/
theorem conserved_iff_of_mem (cfg : Config) (a : MoveArgs) (hw : w.WF cfg.types) (hfrom : a.fromCylinder ∈ R)
    (hto : (a.destination cfg w).cylinder ∈ R) :
    Conserved cfg.types R a.item w (internalMoveItem cfg a w).1 ↔ MoveKeeps cfg a w := by
  cases hex : exchangedItem cfg a w with
  | none =>
    rw [conserved_of_outcome hw hfrom hto (planMove_of_none hex)]
    simp [MoveKeeps, hex]
  | some y =>
    obtain ⟨hne, hitem, hremove, houtcome⟩ := planMove_of_some hex
    by_cases hacc : AcceptsAnywhere cfg.types
        (withoutExchanged cfg w (a.destination cfg w).cylinder y) a.fromCylinder y
    · have hw₁ := hw.exchangeItem (a := a) hremove
      have hholds := exchangeItem_accepted hw hfrom hto hremove hacc
      have hunits := units_congr cfg.types (size_exchangeItem _ _)
        (body_exchangeItem (a := a) hw hremove) hholds
      have hiff := conserved_of_outcome hw₁ hfrom hto houtcome
      simp only [MoveKeeps, hex, Option.mem_some, forall_eq', hacc, true_and, ← hiff]
      refine ⟨fun h => ⟨fun k => ?_, fun x hx hheld => ?_⟩, fun h => ⟨fun k => ?_, fun x hx hheld => ?_⟩⟩
      · rw [h.units, hunits]
      · exact h.kept x hx ((hholds x).1 hheld)
      · rw [h.units, hunits]
      · exact h.kept x hx ((hholds x).2 hheld)
    · obtain ⟨z, hz, hlost⟩ := exchangeItem_lost hw hfrom hto hremove hacc
      obtain ⟨-, hn, hle⟩ := of_queryRemove hitem
      have hy := holds_of_mem hto (World.mem_contents_of_getThingIndex (of_queryRemove hremove).1)
      have hholds : ∀ x, Holds (exchangeItem cfg a w (a.destination cfg w) y) R x → Holds w R x :=
        fun x hx => Held.mono (fun e z hz =>
          (mem_of_exchangeItem hz).imp_right fun hzy => hzy ▸ hy) hx
      refine iff_of_false (not_conserved_of_lost hw (size_exchangeItem _ _)
        (body_exchangeItem hw hremove) hholds hz hlost ?_ houtcome)
        (fun h => hacc (h.1 y hex))
      simp only [unitsOf, if_true]
      split_ifs with hs
      · exact hle hs
      · exact Nat.one_pos

end Moves

/-! ## The gold pouch -/

def ITEM_BAG : ℕ := 2853
def ITEM_SWORD : ℕ := 3264
def ITEM_GOLD_POUCH : ℕ := 23721

def pouchTypes : ItemTypes := fun id =>
  if id = ITEM_BAG ∨ id = ITEM_GOLD_POUCH then bagType else plainType

/-- A bag with a sword, and a gold pouch, which is paginated. -/
def pouchWorld : World :=
  listWorld [bagItem ITEM_BAG 8 false [1] none, plainItem ITEM_SWORD 1 (some (.item 0)),
    bagItem ITEM_GOLD_POUCH 32 true [] none] (fun _ => barePlayer) (fun _ => bareTile)

/-- A player moves the sword into the gold pouch, to the place `index`. -/
def pouchMove (index : ℤ) : MoveArgs where
  fromCylinder := .item 0
  toCylinder := .item 2
  index
  item := 1
  count := 1
  flags := 0
  actor := true
  tradeItem := none

theorem pouchWorld_wf : pouchWorld.WF pouchTypes :=
  listWorld_wf [.item 0] (by decide) (fun _ _ => rfl) (fun _ _ => rfl) (by decide) (by decide)
    (by decide) (fun t x hx => absurd hx List.not_mem_nil) (fun t x hx => absurd hx List.not_mem_nil)

section Moves

variable {cfg : Config} {w : World} {a : MoveArgs}

/-- **A move loses nothing exactly when it keeps**: when the source accepts the item that is
exchanged, and all that is moved arrives. -/
theorem conserved_iff_moveKeeps (cfg : Config) (a : MoveArgs) (hw : w.WF cfg.types) :
    Conserved cfg.types (a.cylinders cfg w) a.item w (internalMoveItem cfg a w).1 ↔
      MoveKeeps cfg a w :=
  conserved_iff_of_mem cfg a hw (by simp [MoveArgs.cylinders]) (by simp [MoveArgs.cylinders])

end Moves

/-- The sword arrives at a place that the gold pouch has. -/
theorem conserved_goldPouch :
    Conserved pouchTypes ((pouchMove 3).cylinders (plainConfig pouchTypes) pouchWorld) 1 pouchWorld
      (internalMoveItem (plainConfig pouchTypes) (pouchMove 3) pouchWorld).1 := by
  have hexchange : exchangedItem (plainConfig pouchTypes) (pouchMove 3) pouchWorld = none := rfl
  have hplan : planMove (plainConfig pouchTypes) (pouchMove 3) pouchWorld =
      .inr ⟨pouchWorld, .item 2, 3, none, 1, RETURNVALUE_NOERROR⟩ := rfl
  refine (conserved_iff_moveKeeps (plainConfig pouchTypes) (pouchMove 3) pouchWorld_wf).2 ⟨by simp [hexchange], fun p hp => ?_⟩
  obtain rfl := Sum.inr.inj (hplan.symm.trans hp)
  exact ⟨_, rfl, by decide⟩

/-- **The gold pouch takes an item for a place that it does not have**, and the item is lost. -/
theorem not_conserved_goldPouch :
    pouchWorld.WF pouchTypes ∧
      (internalMoveItem (plainConfig pouchTypes) (pouchMove 40) pouchWorld).2 =
        RETURNVALUE_NOERROR ∧
      ¬ Conserved pouchTypes ((pouchMove 40).cylinders (plainConfig pouchTypes) pouchWorld) 1
        pouchWorld (internalMoveItem (plainConfig pouchTypes) (pouchMove 40) pouchWorld).1 := by
  have hplan : planMove (plainConfig pouchTypes) (pouchMove 40) pouchWorld =
      .inr ⟨pouchWorld, .item 2, 40, none, 1, RETURNVALUE_NOERROR⟩ := rfl
  refine ⟨pouchWorld_wf, rfl, fun h => ?_⟩
  have hkeeps := (conserved_iff_of_mem (plainConfig pouchTypes) (pouchMove 40) pouchWorld_wf
    (by simp [MoveArgs.cylinders]) (by simp [MoveArgs.cylinders])).1 h
  obtain ⟨k, hk, hindex⟩ := hkeeps.2 _ hplan
  obtain rfl : _ = k := Option.some.inj hk
  exact absurd hindex (by decide)

end TiabloServer.Items
