import TiabloServer.Items.Destinations
import TiabloServer.Items.Samples
import TiabloServer.Items.Stacks

/-!
# Conservation of an addition

How many units of its item `internalAddItem` really adds. It cuts a stack to what
`queryMaxCount` has room for, puts a part on a stack at the destination and adds the rest once more,
and it reports neither what it has cut off nor what the second addition has left over.

## Main definitions

* `Items.AddsAll` — all of an item arrives in one round of an addition and those after it.
* `Items.AddKeeps` — the same, where the remainder may be refused as a whole.

## Main results

* `Items.addRounds_fuel` — the rounds of an addition come to an end.
* `Items.addConserves_iff` — an addition accounts for every unit exactly when it keeps.
* `Items.not_addConserves_quiver` — arrows for which a quiver has no room vanish.
-/

namespace TiabloServer.Items

open ReturnValue

variable {cfg : Config} {w w' : World} {R : Set Cylinder} {k x : ℕ} {c : Cylinder} {index : ℤ}
  {flags : ℕ}

/-! ## Going in -/

/-- Whether `addThing` adds the units of its item: it puts it in, and with the item that it replaces
no unit goes; or there is nothing to add. -/
def Lands (types : ItemTypes) (w : World) (R : Set Cylinder) (k : ℕ) (c : Cylinder) (index : ℤ)
    (x : ℕ) : Prop :=
  (Enters types w c index x → ∀ y ∈ replacedBy types w c index x,
    units types (removeThing types w c y (w.items y).getItemCount) R k = units types w R k) ∧
    (¬ Enters types w c index x → unitsOf types w k x = 0)

/-- Taking an item away adds no units. -/
theorem Taken.units_le {y : ℕ} (types : ItemTypes) (h : Taken w w' y) (k : ℕ) :
    units types w' R k ≤ units types w R k := by
  rw [units, units, h.size, Containment.total_eq_sum_share, Containment.total_eq_sum_share]
  refine Finset.sum_le_sum fun z _ => ?_
  by_cases hz : Holds w' R z
  · have hz' : Holds w R z := Containment.Held.mono (fun d u hu => Or.inl ((h.mem d u).1 hu).1) hz
    rw [Containment.share_of hz, Containment.share_of hz', unitsOf_eq (h.body z)]
  · rw [Containment.share_of_not hz]
    exact Nat.zero_le _

/-- Only one world comes of taking an item away, as far as units go. -/
theorem Taken.units_eq {w₀ : World} {y : ℕ} (types : ItemTypes) (h : Taken w w' y)
    (h₀ : Taken w w₀ y) (k : ℕ) : units types w₀ R k = units types w' R k :=
  units_congr types (h₀.size.trans h.size.symm) (fun z => (h₀.body z).trans (h.body z).symm)
    (fun _ => holds_congr fun d u => (h₀.mem d u).trans (h.mem d u).symm) k

/-- **`addThing` adds the units of its item** when it lands. -/
theorem addThing_gained {types : ItemTypes} (hw : w.WF types) (hx : ∀ d, x ∉ w.contents d)
    (hlive : x < w.size) (hc : Within w R c) (hinner : Inner w R x) (k : ℕ) (index : ℤ) :
    Gained types R k (unitsOf types w k x) (Lands types w R k c index x) w (addThing types w c index x) := by
  by_cases hacc : Accepts types w c index x
  · have hadd := addThing_added hacc
    have hunits := hadd.units_eq hc hinner hlive hx k
    have henters := (mem_addThing_iff hx).1 ((hadd.mem c x).2 (Or.inr ⟨rfl, rfl⟩))
    refine ⟨by omega, iff_of_true (by omega) ⟨fun _ y hy => ?_, fun h => absurd henters h⟩⟩
    rw [replacedBy_of_accepts hacc] at hy
    exact absurd hy nofun
  have hspoil := addThing_spoiled hw hx hacc
  cases hspoil with
  | dropped hcontents hbody hsize _ =>
    have henters : ¬ Enters types w c index x := fun h =>
      hx c (hcontents c ▸ (mem_addThing_iff hx).2 h)
    have hunits := units_congr (R := R) types hsize hbody
      (fun y => holds_congr fun d z => by rw [hcontents]) k
    refine ⟨by omega, ⟨fun h => ⟨fun hin => absurd hin henters, fun _ => by omega⟩, fun h => ?_⟩⟩
    have hzero := h.2 henters
    omega
  | replaced w₀ y hold hy _ htaken hadd =>
    have henters := (mem_addThing_iff hx).1 ((hadd.mem c x).2 (Or.inr ⟨rfl, rfl⟩))
    have hwithout := removeThing_taken hw (k := (w.items y).getItemCount)
      (hw.getThingIndex_ne hy) (Or.inr (Or.inl rfl))
    have hcR : c ∈ R := by
      refine hc.resolve_right ?_
      rintro ⟨n, -, rfl⟩
      exact absurd hold nofun
    have hinner₀ : Inner w₀ R x := by
      refine hinner.imp_right fun h => List.eq_nil_iff_forall_not_mem.2 fun z hz => ?_
      have hz' := ((htaken.mem _ z).1 hz).1
      simp [h] at hz'
    have hunits := hadd.units_eq (.inl hcR) hinner₀ (htaken.size ▸ hlive)
      (fun d hd => hx d ((htaken.mem d x).1 hd).1) k
    rw [unitsOf_eq (htaken.body x), Taken.units_eq types hwithout htaken] at hunits
    have hle := hwithout.units_le types (R := R) k
    refine ⟨by omega, ⟨fun h => ⟨fun _ z hz => ?_, fun hnot => absurd henters hnot⟩, fun h => ?_⟩⟩
    · obtain rfl := Option.some.inj (hold.symm.trans hz)
      omega
    · have heq := h.1 henters y hold
      omega

/-! ## Rounds -/

/-- The questions that a round asks before it adds anything. -/
def addChecks (cfg : Config) (w : World) (c : Cylinder) (x : ℕ) (index : ℤ) (flags : ℕ) :
    ReturnValue :=
  let d := queryDestination cfg w c index x none flags
  let ret := queryAdd cfg w d.cylinder d.index x (w.items x).getItemCount d.flags false
  if ret ≠ RETURNVALUE_NOERROR then ret
  else
    let q := queryMaxCount cfg w c INDEX_WHEREEVER x (w.items x).getItemCount d.flags
    if q.1 ≠ RETURNVALUE_NOERROR ∧ isLimited w c then q.1 else RETURNVALUE_NOERROR

/-- The stack that a round adds to. -/
def addTarget (cfg : Config) (w : World) (c : Cylinder) (x : ℕ) (index : ℤ) (flags : ℕ) : Option ℕ :=
  (queryDestination cfg w c index x none flags).destItem.filter fun y =>
    (w.items x).isStackable cfg.types ∧ (w.items x).equals (w.items y)

/-- How much of its item a round tries to add. -/
def addRoom (cfg : Config) (w : World) (c : Cylinder) (x : ℕ) (index : ℤ) (flags : ℕ) : ℕ :=
  (queryMaxCount cfg w c INDEX_WHEREEVER x (w.items x).getItemCount
    (queryDestination cfg w c index x none flags).flags).2

/-- A round that is refused changes nothing. -/
theorem addRounds_refused {fuel : ℕ} (h : addChecks cfg w c x index flags ≠ RETURNVALUE_NOERROR) :
    addRounds cfg (fuel + 1) w c x index flags false = (w, addChecks cfg w c x index flags, 0) := by
  unfold addChecks at h ⊢
  rw [addRounds]
  dsimp only at h ⊢
  split_ifs at h with hadd hmax
  · simp only [if_pos hadd]
  · simp only [if_neg hadd, if_pos hmax]
  · exact absurd rfl h

/-- What a round does that is not refused. -/
theorem addRounds_accepted {fuel : ℕ} (h : addChecks cfg w c x index flags = RETURNVALUE_NOERROR) :
    addRounds cfg (fuel + 1) w c x index flags false =
      let d := queryDestination cfg w c index x none flags
      match addTarget cfg w c x index flags with
      | none => (addThing cfg.types w d.cylinder d.index x, RETURNVALUE_NOERROR, 0)
      | some y =>
        let m := min (w.items x).getItemCount (addRoom cfg w c x index flags)
        let n := stackedCount cfg w y m
        let w₁ := updateThing cfg.types w d.cylinder y (w.items y).id ((w.items y).getItemCount + n)
        if m - n = 0 then (w₁, RETURNVALUE_NOERROR, 0)
        else if m - n = (w.items x).getItemCount then
          (addThing cfg.types w₁ d.cylinder d.index x, RETURNVALUE_NOERROR, 0)
        else
          let r := addRounds cfg fuel (w₁.create (newStack cfg.types w x (m - n))) c w₁.size
            INDEX_WHEREEVER d.flags false
          (r.1, RETURNVALUE_NOERROR, if r.2.1 ≠ RETURNVALUE_NOERROR then m - n else 0) := by
  unfold addChecks at h
  dsimp only at h
  rw [addRounds]
  dsimp only
  split_ifs at h with hadd hmax
  · exact absurd h hadd
  · exact absurd h hmax.1
  · rw [if_neg hadd, if_neg hmax, if_neg Bool.false_ne_true]
    rfl

/-! ## Units of a round -/

/-- An item that is to be added to `c`: it lies nowhere, and the trees of `R` take in those of `c`
and of the tile where its floor leads to. -/
structure Addable (types : ItemTypes) (R : Set Cylinder) (w : World) (c : Cylinder) (x : ℕ) :
    Prop where
  wf : w.WF types
  nowhere : ∀ d, x ∉ w.contents d
  live : x < w.size
  inner : Inner w R x
  root : c ∈ R
  floor : ∀ t, c = .tile t → .tile ((w.tiles t).floorChange.getD t) ∈ R

/-- The destination of an addition to no place in particular is in the trees. -/
theorem Addable.within (h : Addable cfg.types R w c x) (y flags : ℕ) :
    Within w R (queryDestination cfg w c INDEX_WHEREEVER y none flags).cylinder := by
  cases c with
  | item n =>
    rw [queryDestination_item_wherever]
    exact Or.inl h.root
  | player p =>
    have hp := Player.queryDestination_within cfg w p (Or.inr rfl) y none flags
    refine hp.imp (fun hd => ?_) fun ⟨m, hm, hd⟩ => ⟨m, ?_, hd⟩
    · have hd' : (queryDestination cfg w (.player p) INDEX_WHEREEVER y none flags).cylinder =
          .player p := hd
      rw [hd']
      exact h.root
    · exact hm.mono_set (by simpa using h.root)
  | tile t => exact Or.inl (h.floor t rfl)

/-- What a round leaves when it has put a part on a stack: the item is still to be added. -/
theorem Addable.updateThing (h : Addable cfg.types R w c x) (d : Cylinder) {y : ℕ}
    (hstack : (w.items y).isStackable cfg.types = true) (n : ℕ) :
    Addable cfg.types R (Items.updateThing cfg.types w d y (w.items y).id n) c x := by
  have hre := updateThing_restacked h.wf (c := d) hstack n
  refine ⟨hre.wf, fun e => hre.contents e ▸ h.nowhere e, hre.size ▸ h.live, ?_, h.root, fun t ht => ?_⟩
  · exact h.inner.imp_right fun hempty => (hre.contents _).trans hempty
  · rw [floorChange_updateThing]
    exact h.floor t ht

/-- The new stack of a remainder is to be added. -/
theorem Addable.create (h : Addable cfg.types R w c x) {i : Item} (hi : i.container = none) :
    Addable cfg.types R (w.create i) c w.size :=
  ⟨h.wf.create hi, h.wf.size_nowhere hi, Nat.lt_succ_self w.size, inner_create w R hi, h.root, h.floor⟩

theorem addTarget_spec {y : ℕ} (h : addTarget cfg w c x index flags = some y) :
    (w.items x).isStackable cfg.types = true ∧ (w.items y).isStackable cfg.types = true ∧
      (w.items y).id = (w.items x).id := by
  obtain ⟨-, hy⟩ := Option.filter_eq_some_iff.1 h
  obtain ⟨hstack, hequals⟩ : (w.items x).isStackable cfg.types = true ∧
      (w.items x).equals (w.items y) = true := by simpa using hy
  exact ⟨hstack, Item.isStackable_of_equals hequals hstack, (Item.id_eq_of_equals hequals).symm⟩

/-- The item that is to be added is not changed with the stack. -/
theorem Addable.body_updateThing (h : Addable cfg.types R w c x) (d : Cylinder) {y : ℕ}
    (hstack : (w.items y).isStackable cfg.types = true) (n : ℕ) :
    ((Items.updateThing cfg.types w d y (w.items y).id n).items x).body = (w.items x).body := by
  by_cases hindex : w.getThingIndex cfg.types d y = -1
  · rw [updateThing_of_index hindex]
  · have hne : x ≠ y := fun e =>
      h.nowhere d (e ▸ World.mem_contents_of_getThingIndex hindex)
    exact (updateThing_restacked h.wf hstack n).body x hne

/-- Additions of an item add nothing to the units of other ids, when its remainders have its id. -/
theorem addRounds_other (fuel : ℕ) (h : Addable cfg.types R w c x)
    (hdest : Within w R (queryDestination cfg w c index x none flags).cylinder)
    (hk : (w.items x).id ≠ k) (hid : createdId cfg.types (w.items x).id = (w.items x).id) :
    units cfg.types (addRounds cfg fuel w c x index flags false).1 R k ≤ units cfg.types w R k := by
  have hzero : ∀ {w : World} {x}, (w.items x).id ≠ k → unitsOf cfg.types w k x = 0 := fun hk => by
    simp [unitsOf, hk]
  induction fuel generalizing w x index flags with
  | zero => exact le_rfl
  | succ fuel ih =>
    by_cases hchecks : addChecks cfg w c x index flags = RETURNVALUE_NOERROR
    · rw [addRounds_accepted hchecks]
      dsimp only
      cases htarget : addTarget cfg w c x index flags with
      | none =>
        have hle := (addThing_gained h.wf h.nowhere h.live hdest h.inner k
          (queryDestination cfg w c index x none flags).index).le
        rw [hzero hk] at hle
        dsimp only
        omega
      | some y =>
        obtain ⟨hstack, hstack', hyid⟩ := addTarget_spec htarget
        dsimp only
        set d := queryDestination cfg w c index x none flags
        set m := min (w.items x).getItemCount (addRoom cfg w c x index flags)
        set n := stackedCount cfg w y m
        set w₁ := updateThing cfg.types w d.cylinder y (w.items y).id
          ((w.items y).getItemCount + n) with hw₁
        have h₁ : Addable cfg.types R w₁ c x := h.updateThing d.cylinder hstack' _
        have hbody := h.body_updateThing d.cylinder hstack' ((w.items y).getItemCount + n)
        have hunits : units cfg.types w₁ R k = units cfg.types w R k :=
          (updateThing_balanced h.wf hdest hstack' n).other k (hyid ▸ hk.symm)
        have hid₁ : (w₁.items x).id = (w.items x).id := (Item.body_eq hbody).1
        have hdest₁ : Within w₁ R d.cylinder := hdest.mono fun z hz =>
          (holds_congr fun e u => by
            rw [(updateThing_restacked h.wf hstack' _).contents]).2 hz
        by_cases hall : m - n = 0
        · rw [if_pos hall]
          exact hunits.le
        rw [if_neg hall]
        by_cases hwhole : m - n = (w.items x).getItemCount
        · have hle := (addThing_gained h₁.wf h₁.nowhere h₁.live hdest₁ h₁.inner k d.index).le
          rw [hzero (hid₁ ▸ hk)] at hle
          rw [if_pos hwhole]
          dsimp only
          omega
        · rw [if_neg hwhole]
          have hnone := newStack_container cfg.types w x (m - n)
          have h₂ := h₁.create hnone
          have hnew : ((w₁.create (newStack cfg.types w x (m - n))).items w₁.size).id =
              (w.items x).id := by
            rw [World.items_create_self, newStack_id, hid]
          have hle := ih h₂ (h₂.within w₁.size d.flags) (hnew ▸ hk) (by rw [hnew, hid])
          rw [h₁.wf.units_create hnone, hunits] at hle
          exact hle
    · rw [addRounds_refused hchecks]

/-- All of an item is added in a round and after it: there is room for it, its part arrives on the
stack, and the item lands, or `Rest` holds of the remainder. -/
def RoundAdds (cfg : Config) (R : Set Cylinder) (w : World) (c : Cylinder) (x : ℕ) (index : ℤ)
    (flags : ℕ) (Rest : World → ℕ → ℕ → Prop) : Prop :=
  let item := w.items x
  let d := queryDestination cfg w c index x none flags
  match addTarget cfg w c x index flags with
  | none => Lands cfg.types w R item.id d.cylinder d.index x
  | some y =>
    let m := min item.getItemCount (addRoom cfg w c x index flags)
    let n := stackedCount cfg w y m
    let w₁ := updateThing cfg.types w d.cylinder y (w.items y).id ((w.items y).getItemCount + n)
    item.getItemCount ≤ addRoom cfg w c x index flags ∧ Merges cfg.types w d.cylinder (some y) n ∧
      (0 < m - n →
        if m - n = item.getItemCount then Lands cfg.types w₁ R item.id d.cylinder d.index x
        else Rest (w₁.create (newStack cfg.types w x (m - n))) w₁.size d.flags)

/-- **The units that a round adds**, where `f` is what counts as added in the end, and `Rest` says
when all of a remainder counts. -/
theorem round_units (fuel : ℕ) (h : Addable cfg.types R w c x)
    (hdest : Within w R (queryDestination cfg w c index x none flags).cylinder)
    (hchecks : addChecks cfg w c x index flags = RETURNVALUE_NOERROR)
    (Rest : World → ℕ → ℕ → Prop) (f : World × ReturnValue × ℕ → ℤ)
    (hf : ∀ w', f (w', RETURNVALUE_NOERROR, 0) = units cfg.types w' R (w.items x).id)
    (hrest : ∀ w₂ x₂ flags₂ n, Addable cfg.types R w₂ c x₂ →
      (w₂.items x₂).id = createdId cfg.types (w.items x).id →
      (w.items x).isStackable cfg.types = true → (w₂.items x₂).getItemCount = n → 0 < n →
      n < (w.items x).getItemCount →
      let r := addRounds cfg fuel w₂ c x₂ INDEX_WHEREEVER flags₂ false
      let s := (r.1, RETURNVALUE_NOERROR, if r.2.1 ≠ RETURNVALUE_NOERROR then n else 0)
      f s ≤ units cfg.types w₂ R (w.items x).id + n ∧
        (f s = units cfg.types w₂ R (w.items x).id + n ↔ Rest w₂ x₂ flags₂)) :
    let r := addRounds cfg (fuel + 1) w c x index flags false
    f r ≤ units cfg.types w R (w.items x).id + unitsOf cfg.types w (w.items x).id x ∧
      (f r = units cfg.types w R (w.items x).id + unitsOf cfg.types w (w.items x).id x ↔
        RoundAdds cfg R w c x index flags Rest) := by
  dsimp only at hrest ⊢
  rw [addRounds_accepted hchecks, RoundAdds]
  dsimp only
  cases htarget : addTarget cfg w c x index flags with
  | none =>
    have hgain := addThing_gained h.wf h.nowhere h.live hdest h.inner (w.items x).id
      (queryDestination cfg w c index x none flags).index
    rw [hf]
    exact ⟨hgain.le, hgain.eq_iff⟩
  | some y =>
    obtain ⟨hstack, hstack', hyid⟩ := addTarget_spec htarget
    dsimp only
    set d := queryDestination cfg w c index x none flags
    set m := min (w.items x).getItemCount (addRoom cfg w c x index flags) with hm
    set n := stackedCount cfg w y m with hn
    set w₁ := updateThing cfg.types w d.cylinder y (w.items y).id
      ((w.items y).getItemCount + n) with hw₁
    have hnm : n ≤ m := min_le_right _ _
    have hlt := getItemCount_lt (w.items x)
    have hself : unitsOf cfg.types w (w.items x).id x = (w.items x).getItemCount := by
      rw [unitsOf_stack hstack, if_pos rfl]
    have h₁ : Addable cfg.types R w₁ c x := h.updateThing d.cylinder hstack' _
    have hbody := h.body_updateThing d.cylinder hstack' ((w.items y).getItemCount + n)
    have hgain := (updateThing_balanced h.wf hdest hstack' n).toGained
    rw [← hw₁, hyid] at hgain
    have hle := hgain.le
    have hiff := hgain.eq_iff
    have hmerges : Merges cfg.types w d.cylinder (some y) n ↔
        (0 < n → w.getThingIndex cfg.types d.cylinder y ≠ -1 ∧
          (w.items y).getItemCount + n < 256) := by simp [Merges]
    rw [hself, hmerges, ← hiff]
    have hdest₁ : Within w₁ R d.cylinder := hdest.mono fun z hz =>
      (holds_congr fun e u => by
        rw [(updateThing_restacked h.wf hstack' _).contents]).2 hz
    by_cases hall : m - n = 0
    · rw [if_pos hall, hf]
      constructor
      · omega
      · constructor
        · intro heq
          exact ⟨by omega, by omega, fun hpos => by omega⟩
        · rintro ⟨hroom, heq, -⟩
          omega
    · rw [if_neg hall]
      by_cases hwhole : m - n = (w.items x).getItemCount
      · rw [if_pos hwhole, if_pos hwhole, hf]
        have hland := addThing_gained h₁.wf h₁.nowhere h₁.live hdest₁ h₁.inner (w.items x).id d.index
        rw [unitsOf_eq hbody, hself] at hland
        have hle₂ := hland.le
        rw [← hland.eq_iff]
        constructor
        · omega
        · constructor
          · intro heq
            exact ⟨by omega, by omega, fun _ => by omega⟩
          · rintro ⟨hroom, heq, hlast⟩
            have := hlast (by omega)
            omega
      · rw [if_neg hwhole, if_neg hwhole]
        have hnone := newStack_container cfg.types w x (m - n)
        have h₂ := h₁.create hnone
        obtain ⟨hle₂, hiff₂⟩ := hrest _ _ d.flags (m - n) h₂
          (by rw [World.items_create_self, newStack_id]) hstack
          (by rw [World.items_create_self, newStack_count, Nat.mod_eq_of_lt (by omega)])
          (by omega) (by omega)
        rw [h₁.wf.units_create hnone] at hle₂ hiff₂
        rw [← hiff₂]
        constructor
        · omega
        · constructor
          · intro heq
            exact ⟨by omega, by omega, fun _ => by omega⟩
          · rintro ⟨hroom, heq, hlast⟩
            have := hlast (by omega)
            omega

/-! ## Additions -/

/-- All of an item is added in the rounds to come. A remainder must keep the id, and must not be
refused. -/
def AddsAll (cfg : Config) (R : Set Cylinder) (c : Cylinder) : ℕ → World → ℕ → ℤ → ℕ → Prop
  | 0, _, _, _, _ => False
  | fuel + 1, w, x, index, flags =>
    RoundAdds cfg R w c x index flags fun w' x' flags' =>
      (w'.items x').id = (w.items x).id ∧
        addChecks cfg w' c x' INDEX_WHEREEVER flags' = RETURNVALUE_NOERROR ∧
        AddsAll cfg R c fuel w' x' INDEX_WHEREEVER flags'

/-- The units of a remainder that keeps the id of a stack. -/
theorem unitsOf_remainder {types : ItemTypes} {w₂ : World} {x₂ : ℕ}
    (hstack : (w.items x).isStackable types = true) (hk : (w₂.items x₂).id = (w.items x).id) :
    unitsOf types w₂ (w.items x).id x₂ = (w₂.items x₂).getItemCount := by
  have hstack₂ : (w₂.items x₂).isStackable types = true := by
    rwa [Item.isStackable, Item.type, hk]
  rw [unitsOf_stack hstack₂, if_pos hk]

/-- The remainder of a round adds its units, or less. -/
theorem remainder_units (fuel : ℕ) {n : ℕ} (flags : ℕ) (h : Addable cfg.types R w c x)
    (hid : (w.items x).id = createdId cfg.types k) (hpos : 0 < n) (Q : Prop) (hself : (w.items x).id = k →
      units cfg.types (addRounds cfg fuel w c x INDEX_WHEREEVER flags false).1 R k ≤ units cfg.types w R k + n ∧
        (units cfg.types (addRounds cfg fuel w c x INDEX_WHEREEVER flags false).1 R k =
          units cfg.types w R k + n ↔ Q)) :
    units cfg.types (addRounds cfg fuel w c x INDEX_WHEREEVER flags false).1 R k ≤ units cfg.types w R k + n ∧
      (units cfg.types (addRounds cfg fuel w c x INDEX_WHEREEVER flags false).1 R k =
        units cfg.types w R k + n ↔ (w.items x).id = k ∧ Q) := by
  rcases eq_or_ne (w.items x).id k with hk | hk
  · obtain ⟨hle, hiff⟩ := hself hk
    exact ⟨hle, hiff.trans (by simp [hk])⟩
  · have hle := addRounds_other fuel h (h.within x flags) hk (by rw [hid, createdId_createdId])
    exact ⟨by omega, iff_of_false (by omega) fun hq => hk hq.1⟩

/-- **The units that all rounds add.** -/
theorem addRounds_units {fuel : ℕ} (h : Addable cfg.types R w c x)
    (hdest : Within w R (queryDestination cfg w c index x none flags).cylinder)
    (hchecks : addChecks cfg w c x index flags = RETURNVALUE_NOERROR) (hfuel : (w.items x).getItemCount < fuel) :
    units cfg.types (addRounds cfg fuel w c x index flags false).1 R (w.items x).id ≤
        units cfg.types w R (w.items x).id + unitsOf cfg.types w (w.items x).id x ∧
      (units cfg.types (addRounds cfg fuel w c x index flags false).1 R (w.items x).id =
        units cfg.types w R (w.items x).id + unitsOf cfg.types w (w.items x).id x ↔
          AddsAll cfg R c fuel w x index flags) := by
  induction fuel generalizing w x index flags with
  | zero => exact absurd hfuel (Nat.not_lt_zero _)
  | succ fuel ih =>
    have hround := round_units fuel h hdest hchecks
      (fun w' x' flags' => (w'.items x').id = (w.items x).id ∧
        addChecks cfg w' c x' INDEX_WHEREEVER flags' = RETURNVALUE_NOERROR ∧
        AddsAll cfg R c fuel w' x' INDEX_WHEREEVER flags')
      (fun r => units cfg.types r.1 R (w.items x).id) (fun _ => rfl) ?_
    · dsimp only at hround
      rw [AddsAll]
      exact_mod_cast hround
    · intro w₂ x₂ flags₂ n h₂ hid hstack hcount hpos hlt
      have hrem := remainder_units fuel flags₂ h₂ hid hpos
        (addChecks cfg w₂ c x₂ INDEX_WHEREEVER flags₂ = RETURNVALUE_NOERROR ∧
          AddsAll cfg R c fuel w₂ x₂ INDEX_WHEREEVER flags₂) fun hk => ?_
      · dsimp only
        exact_mod_cast hrem
      · have hunits := unitsOf_remainder hstack hk
        rw [hcount] at hunits
        by_cases hchecks₂ : addChecks cfg w₂ c x₂ INDEX_WHEREEVER flags₂ = RETURNVALUE_NOERROR
        · have hadd := ih h₂ (h₂.within x₂ flags₂) hchecks₂ (by omega)
          rw [hk, hunits] at hadd
          exact ⟨hadd.1, hadd.2.trans (by simp [hchecks₂])⟩
        · obtain ⟨fuel, rfl⟩ : ∃ f, fuel = f + 1 := ⟨fuel - 1, by omega⟩
          rw [addRounds_refused hchecks₂]
          dsimp only
          exact ⟨by omega, iff_of_false (by omega) fun h => hchecks₂ h.1⟩

/-- The answer of a round is that of its checks. -/
theorem addRounds_ret {fuel : ℕ} : (addRounds cfg (fuel + 1) w c x index flags false).2.1 =
    addChecks cfg w c x index flags := by
  by_cases hchecks : addChecks cfg w c x index flags = RETURNVALUE_NOERROR
  · rw [addRounds_accepted hchecks, hchecks]
    dsimp only
    split
    · rfl
    · split_ifs <;> rfl
  · rw [addRounds_refused hchecks]

/-- **The rounds come to an end**: there are no more of them than items in the stack. -/
theorem addRounds_fuel {fuel : ℕ} (hfuel : (w.items x).getItemCount < fuel) :
    addRounds cfg fuel w c x index flags false =
      addRounds cfg ((w.items x).getItemCount + 1) w c x index flags false := by
  have hany : ∀ (f f' : ℕ) {w : World} {x : ℕ} {index : ℤ} {flags : ℕ},
      (w.items x).getItemCount < f → (w.items x).getItemCount < f' →
        addRounds cfg f w c x index flags false = addRounds cfg f' w c x index flags false := by
    intro f
    induction f with
    | zero => exact fun f' w x _ _ h _ => absurd h (Nat.not_lt_zero _)
    | succ f ih =>
      intro f' w x index flags hf hf'
      obtain ⟨f', rfl⟩ : ∃ g, f' = g + 1 := ⟨f' - 1, by omega⟩
      by_cases hchecks : addChecks cfg w c x index flags = RETURNVALUE_NOERROR
      · rw [addRounds_accepted hchecks, addRounds_accepted hchecks]
        dsimp only
        cases addTarget cfg w c x index flags with
        | none => rfl
        | some y =>
          dsimp only
          set m := min (w.items x).getItemCount (addRoom cfg w c x index flags) with hm
          set n := stackedCount cfg w y m
          by_cases hall : m - n = 0
          · rw [if_pos hall, if_pos hall]
          rw [if_neg hall, if_neg hall]
          by_cases hwhole : m - n = (w.items x).getItemCount
          · rw [if_pos hwhole, if_pos hwhole]
          rw [if_neg hwhole, if_neg hwhole]
          -- a remainder is smaller than the stack that it comes of
          have hlt : m - n < (w.items x).getItemCount := by omega
          have hbyte := getItemCount_lt (w.items x)
          rw [ih f']
          · rw [World.items_create_self, newStack_count, Nat.mod_eq_of_lt (by omega)]
            omega
          · rw [World.items_create_self, newStack_count, Nat.mod_eq_of_lt (by omega)]
            omega
      · rw [addRounds_refused hchecks, addRounds_refused hchecks]
  exact hany fuel _ hfuel (Nat.lt_succ_self _)

/-- The trees that an addition is about, with what lies in the item itself. -/
def addTrees (cfg : Config) (w : World) (c : Cylinder) (index : ℤ) (x flags : ℕ) : Set Cylinder :=
  insert (.item x) (addCylinders cfg w c index x flags)

/-- An addition accounts for every unit of its item, as far as the trees of `R` go: when it
succeeds, they grow by the units of the item but those reported as the remainder; otherwise nothing
changes, and no remainder is reported. -/
def AddConserves (cfg : Config) (R : Set Cylinder) (w : World) (c : Cylinder) (x : ℕ) (index : ℤ)
    (flags : ℕ) : Prop :=
  let k := (w.items x).id
  let r := internalAddItem cfg w c x index flags false
  (r.2.1 = RETURNVALUE_NOERROR →
    units cfg.types r.1 R k + r.2.2 = units cfg.types w R k + unitsOf cfg.types w k x) ∧
    (r.2.1 ≠ RETURNVALUE_NOERROR → SameTrees R w r.1 ∧ r.2.2 = 0)

/-- When an addition accounts for every unit: all of the item is added in the first round and those
after it, but that the remainder of the first may be refused. -/
def AddKeeps (cfg : Config) (R : Set Cylinder) (w : World) (c : Cylinder) (x : ℕ) (index : ℤ)
    (flags : ℕ) : Prop :=
  addChecks cfg w c x index flags = RETURNVALUE_NOERROR →
    RoundAdds cfg R w c x index flags fun w' x' flags' =>
      addChecks cfg w' c x' INDEX_WHEREEVER flags' ≠ RETURNVALUE_NOERROR ∨
        (w'.items x').id = (w.items x).id ∧
          AddsAll cfg R c (w.items x).getItemCount w' x' INDEX_WHEREEVER flags'

/-- **An addition accounts for every unit exactly when it keeps**, in any trees that take in its
destination. -/
theorem Addable.conserves_iff (h : Addable cfg.types R w c x)
    (hdest : Within w R (queryDestination cfg w c index x none flags).cylinder) :
    AddConserves cfg R w c x index flags ↔ AddKeeps cfg R w c x index flags := by
  unfold AddConserves AddKeeps internalAddItem
  dsimp only
  rw [addRounds_ret]
  by_cases hchecks : addChecks cfg w c x index flags = RETURNVALUE_NOERROR
  · have hround := round_units (w.items x).getItemCount h hdest hchecks
      (fun w' x' flags' => addChecks cfg w' c x' INDEX_WHEREEVER flags' ≠ RETURNVALUE_NOERROR ∨
        (w'.items x').id = (w.items x).id ∧
          AddsAll cfg R c (w.items x).getItemCount w' x' INDEX_WHEREEVER flags')
      (fun r => (units cfg.types r.1 R (w.items x).id : ℤ) + r.2.2) (fun _ => by simp) ?_
    · dsimp only at hround
      simp only [hchecks, ne_eq, not_true_eq_false, false_implies, and_true, true_implies]
      exact_mod_cast hround.2
    · intro w₂ x₂ flags₂ n h₂ hid hstack hcount hpos hlt
      dsimp only
      by_cases hchecks₂ : addChecks cfg w₂ c x₂ INDEX_WHEREEVER flags₂ = RETURNVALUE_NOERROR
      · have hrem := remainder_units (w.items x).getItemCount flags₂ h₂ hid hpos
          (AddsAll cfg R c (w.items x).getItemCount w₂ x₂ INDEX_WHEREEVER flags₂) fun hk => ?_
        · obtain ⟨fuel, hfuel⟩ : ∃ f, (w.items x).getItemCount = f + 1 :=
            ⟨(w.items x).getItemCount - 1, by omega⟩
          rw [hfuel] at hrem ⊢
          rw [addRounds_ret]
          simp only [hchecks₂, ne_eq, not_true_eq_false, if_false, false_or]
          exact_mod_cast hrem
        · have hunits := unitsOf_remainder hstack hk
          have hadd := addRounds_units h₂ (h₂.within x₂ flags₂) hchecks₂ (hcount ▸ hlt)
          rwa [hk, hunits, hcount] at hadd
      · obtain ⟨fuel, hfuel⟩ : ∃ f, (w.items x).getItemCount = f + 1 :=
          ⟨(w.items x).getItemCount - 1, by omega⟩
        rw [hfuel, addRounds_refused hchecks₂]
        simp [hchecks₂]
  · rw [addRounds_refused hchecks]
    simp [hchecks, SameTrees.refl]

/-- What lies nowhere is to be added. -/
theorem addable_addTrees (cfg : Config) (hw : w.WF cfg.types) (hx : ∀ d, x ∉ w.contents d)
    (hlive : x < w.size) (c : Cylinder) (index : ℤ) (flags : ℕ) :
    Addable cfg.types (addTrees cfg w c index x flags) w c x := by
  refine ⟨hw, hx, hlive, Or.inl (Set.mem_insert _ _), ?_, fun t ht => ?_⟩
  · simp [addTrees, addCylinders]
  · subst ht
    simp [addTrees, addCylinders, queryDestination, Tile.queryDestination]

theorem within_addTrees (cfg : Config) (w : World) (c : Cylinder) (index : ℤ) (x flags : ℕ) :
    Within w (addTrees cfg w c index x flags) (queryDestination cfg w c index x none flags).cylinder := by
  refine Or.inl ?_
  simp [addTrees, addCylinders]

/-- **An addition accounts for every unit exactly when it keeps.** -/
theorem addConserves_iff (cfg : Config) (hw : w.WF cfg.types) (hx : ∀ d, x ∉ w.contents d)
    (hlive : x < w.size) (c : Cylinder) (index : ℤ) (flags : ℕ) :
    AddConserves cfg (addTrees cfg w c index x flags) w c x index flags ↔
      AddKeeps cfg (addTrees cfg w c index x flags) w c x index flags :=
  (addable_addTrees cfg hw hx hlive c index flags).conserves_iff
    (within_addTrees cfg w c index x flags)

/-! ## The quiver -/

def ITEM_ARROW : ℕ := 3447
def ITEM_QUIVER : ℕ := 35562

def quiverTypes : ItemTypes := fun id =>
  if id = ITEM_QUIVER then
    { bagType with
      type := .ITEM_TYPE_QUIVER
      slotPosition := SLOTP_RIGHT
      stackable_group := nofun
      stackable_type := nofun }
  else
    { stackType with
      type := .ITEM_TYPE_AMMO
      weaponType := .WEAPON_AMMO
      slotPosition := SLOTP_RIGHT ||| SLOTP_LEFT
      stackable_group := fun _ => rfl
      stackable_type := nofun }

/-- An archer, with a quiver in the right hand. -/
def archer : Player where
  __ := barePlayer
  hasInfiniteCapacity := true
  inventory slot := if slot = CONST_SLOT_RIGHT then some 0 else none

/-- The quiver has room for ten arrows more, and there are `n` of them. -/
def quiverWorld (n : UInt8) : World :=
  listWorld (bagItem ITEM_QUIVER 6 false [1, 2, 3, 4, 5, 6] (some (.player 0)) ::
    [100, 100, 100, 100, 100, 90].map (fun m => plainItem ITEM_ARROW m (some (.item 0))) ++
      [plainItem ITEM_ARROW n none])
    (fun p => if p = 0 then archer else barePlayer) (fun _ => bareTile)

theorem quiverWorld_wf (n : UInt8) : (quiverWorld n).WF quiverTypes := by
  refine listWorld_wf [.item 0, .player 0] (fun x hx hc => ?_) (fun p hp => ?_) (fun t _ => rfl)
    (by show [1, 2, 3, 4, 5, 6, 0].Nodup; decide) (by show ∀ x ∈ [1, 2, 3, 4, 5, 6, 0], x < 8; decide)
    (fun x hx hs => ?_) (fun t x hx => absurd hx List.not_mem_nil)
    (fun t x hx => absurd hx List.not_mem_nil)
  · have hlt : x < 8 := hx
    interval_cases x
    · simp at hc
    all_goals rfl
  · have hp0 : p ≠ 0 := by simpa using hp
    simp [listWorld, World.contents, hp0, barePlayer]
  · have hlt : x < 8 := hx
    interval_cases x
    · exact absurd (show bagType.stackable = true from hs) (by decide)
    all_goals rfl

/-- The arrows to be added lie nowhere. -/
theorem quiverWorld_nowhere (n : UInt8) (d : Cylinder) : 7 ∉ (quiverWorld n).contents d := by
  cases d with
  | item x =>
    match x with
    | 0 => show 7 ∉ [1, 2, 3, 4, 5, 6]; decide
    | 1 | 2 | 3 | 4 | 5 | 6 | 7 => exact List.not_mem_nil
    | x + 8 => exact List.not_mem_nil
  | player p =>
    match p with
    | 0 => show 7 ∉ [0]; decide
    | p + 1 => exact List.not_mem_nil
  | tile t => exact List.not_mem_nil

/-- Five arrows go on the last stack. -/
theorem addConserves_quiver : AddConserves (plainConfig quiverTypes)
    (addTrees (plainConfig quiverTypes) (quiverWorld 5) (.player 0) INDEX_WHEREEVER 7 0)
    (quiverWorld 5) (.player 0) 7 INDEX_WHEREEVER 0 := by
  refine (addConserves_iff (plainConfig quiverTypes) (quiverWorld_wf 5) (quiverWorld_nowhere 5)
    (by decide) _ _ _).2 fun _ => ?_
  have htarget : addTarget (plainConfig quiverTypes) (quiverWorld 5) (.player 0) 7 INDEX_WHEREEVER 0 =
      some 6 := by decide +kernel
  have hroom : addRoom (plainConfig quiverTypes) (quiverWorld 5) (.player 0) 7 INDEX_WHEREEVER 0 =
      10 := by decide +kernel
  have hdest : (queryDestination (plainConfig quiverTypes) (quiverWorld 5) (.player 0)
      INDEX_WHEREEVER 7 none 0).cylinder = .item 0 := by decide +kernel
  rw [RoundAdds, htarget]
  dsimp only
  rw [hroom, hdest]
  refine ⟨by decide, fun _ y hy => ?_, fun h => absurd h (by decide)⟩
  obtain rfl : 6 = y := Option.some.inj hy
  decide

/-- **The quiver takes fifty arrows as all of them**, although it has room for ten. -/
theorem not_addConserves_quiver :
    (quiverWorld 50).WF quiverTypes ∧ (∀ d, 7 ∉ (quiverWorld 50).contents d) ∧
      (internalAddItem (plainConfig quiverTypes) (quiverWorld 50) (.player 0) 7 INDEX_WHEREEVER 0
        false).2 = (RETURNVALUE_NOERROR, 0) ∧
      ¬ AddConserves (plainConfig quiverTypes)
        (addTrees (plainConfig quiverTypes) (quiverWorld 50) (.player 0) INDEX_WHEREEVER 7 0)
        (quiverWorld 50) (.player 0) 7 INDEX_WHEREEVER 0 := by
  refine ⟨quiverWorld_wf 50, quiverWorld_nowhere 50, by decide +kernel, fun h => ?_⟩
  have hkeeps := ((addable_addTrees (plainConfig quiverTypes) (quiverWorld_wf 50)
    (quiverWorld_nowhere 50) (by decide) (.player 0) INDEX_WHEREEVER 0).conserves_iff
      (within_addTrees (plainConfig quiverTypes) _ _ _ _ _)).1 h (by decide +kernel)
  have htarget : addTarget (plainConfig quiverTypes) (quiverWorld 50) (.player 0) 7
      INDEX_WHEREEVER 0 = some 6 := by decide +kernel
  have hroom : addRoom (plainConfig quiverTypes) (quiverWorld 50) (.player 0) 7 INDEX_WHEREEVER 0 =
      10 := by decide +kernel
  rw [RoundAdds, htarget] at hkeeps
  dsimp only at hkeeps
  rw [hroom] at hkeeps
  exact absurd hkeeps.1 (by decide)

/-- More fuel makes no difference for five arrows. -/
theorem addRounds_fuel_quiver :
    addRounds (plainConfig quiverTypes) 200 (quiverWorld 5) (.player 0) 7 INDEX_WHEREEVER 0 false =
      internalAddItem (plainConfig quiverTypes) (quiverWorld 5) (.player 0) 7 INDEX_WHEREEVER 0 false :=
  addRounds_fuel (by decide)

end TiabloServer.Items
