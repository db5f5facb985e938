import TiabloServer.Items.AddConservation
import TiabloServer.Items.Linked

/-!
# Arriving stacks

An addition all of whose rounds put in what they are to: the units of its item arrive, and nothing
else changes. It is the case of an addition that the callers of `internalAddItem` reckon with when
they do not ask for the remainder.

## Main definitions

* `Items.Grown` — the effect of putting in units of one item id.
* `Items.Arrives` — all of a stack arrives in the rounds of an addition.

## Main results

* `Items.addRounds_grown` — an addition of a stack that arrives puts in its units.
-/

namespace TiabloServer.Items

open ReturnValue

variable {types : ItemTypes} {w w' w'' : World} {R : Set Cylinder} {k m n x : ℕ} {c : Cylinder}

/-! ## Growing -/

/-- `n` units of `k` have been put in, and that is all: the items of other ids are as they were. -/
structure Grown (types : ItemTypes) (R : Set Cylinder) (k n : ℕ) (w w' : World) : Prop where
  wf : w'.WF types
  linked : w'.Linked
  size : w.size ≤ w'.size
  units : ∀ j, units types w' R j = units types w R j + if j = k then n else 0
  body : ∀ z < w.size, (w.items z).id ≠ k → (w'.items z).body = (w.items z).body
  mem : ∀ d z, z ∈ w.contents d → z ∈ w'.contents d

theorem Grown.trans (h : Grown types R k m w w') (h' : Grown types R k n w' w'') :
    Grown types R k (m + n) w w'' where
  wf := h'.wf
  linked := h'.linked
  size := h.size.trans h'.size
  units j := by
    rw [h'.units, h.units]
    split_ifs <;> omega
  body z hz hid := by
    have hbody := h.body z hz hid
    have hid' : (w'.items z).id ≠ k := by rwa [(Item.body_eq hbody).1]
    exact (h'.body z (hz.trans_le h.size) hid').trans hbody
  mem d z hz := h'.mem d z (h.mem d z hz)

/-- What was held is held. -/
theorem Grown.holds (h : Grown types R k n w w') {z : ℕ} (hz : Holds w R z) : Holds w' R z :=
  Containment.Held.mono (fun d y hy => Or.inl (h.mem d y hy)) hz

/-- `updateThing` puts in the units by which it raises the count of a stack. -/
theorem updateThing_grown (hw : w.WF types) (hlinked : w.Linked) (hc : Within w R c) {y : ℕ}
    (hstack : (w.items y).isStackable types = true) (hmerges : Merges types w c (some y) n) :
    Grown types R (w.items y).id n w (updateThing types w c y (w.items y).id ((w.items y).getItemCount + n)) := by
  have hre := updateThing_restacked hw (c := c) hstack ((w.items y).getItemCount + n)
  have hbal := updateThing_balanced hw hc hstack n
  have hself := hbal.eq_iff.2 fun hpos => hmerges hpos y rfl
  refine ⟨hre.wf, hlinked.updateThing c y _ _, hre.size.ge, fun j => ?_, fun z _ hid => ?_,
    fun d z hz => hre.contents d ▸ hz⟩
  · split_ifs with hj
    · subst hj
      exact_mod_cast hself
    · exact hbal.other j hj
  · exact hre.body z fun e => hid (e ▸ rfl)

/-- A new item puts in nothing. -/
theorem create_grown (hw : w.WF types) (hlinked : w.Linked) {i : Item} (hi : i.container = none)
    (R : Set Cylinder) (k : ℕ) : Grown types R k 0 w (w.create i) := by
  refine ⟨hw.create hi, hlinked.create hw hi, Nat.le_succ _, fun j => ?_, fun z hz _ => ?_,
    fun d z hz => ?_⟩
  · simp [hw.units_create hi]
  · rw [w.items_create_of_ne i hz.ne]
  · rwa [hw.contents_create hi]

/-- A stack that a cylinder accepts puts in its units. -/
theorem addThing_grown (h : Addable types R w c x) (hlinked : w.Linked) {b : Cylinder}
    (hb : Within w R b) {index : ℤ} (hacc : Accepts types w b index x)
    (hstack : (w.items x).isStackable types = true) :
    Grown types R (w.items x).id (w.items x).getItemCount w (addThing types w b index x) := by
  have hadd := addThing_added hacc
  refine ⟨h.wf.addThing b index h.nowhere h.live, hlinked.addThing h.wf h.nowhere h.live b index,
    hadd.size.ge, fun j => ?_, fun z _ _ => hadd.body z, fun d z hz => (hadd.mem d z).2 (Or.inl hz)⟩
  rw [hadd.units_eq hb h.inner h.live h.nowhere j, unitsOf_stack hstack]
  simp only [eq_comm]

/-! ## Arriving -/

/-- All of the stack `x` arrives in the rounds of an addition to `c`: every round is accepted; what
goes on a stack has room there, and what is left of it goes in as a whole or arrives in its turn. -/
def Arrives (cfg : Config) (c : Cylinder) : ℕ → World → ℕ → ℕ → Prop
  | 0, _, _, _ => False
  | fuel + 1, w, x, flags =>
    let item := w.items x
    let d := queryDestination cfg w c INDEX_WHEREEVER x none flags
    addChecks cfg w c x INDEX_WHEREEVER flags = RETURNVALUE_NOERROR ∧
      match addTarget cfg w c x INDEX_WHEREEVER flags with
      | none => Accepts cfg.types w d.cylinder d.index x
      | some y =>
        let m := min item.getItemCount (addRoom cfg w c x INDEX_WHEREEVER flags)
        let n := stackedCount cfg w y m
        let w₁ := updateThing cfg.types w d.cylinder y (w.items y).id ((w.items y).getItemCount + n)
        item.getItemCount ≤ addRoom cfg w c x INDEX_WHEREEVER flags ∧
          Merges cfg.types w d.cylinder (some y) n ∧
            (0 < m - n →
              if m - n = item.getItemCount then Accepts cfg.types w₁ d.cylinder d.index x
              else
                Arrives cfg c fuel (w₁.create (newStack cfg.types w x (m - n))) w₁.size d.flags)

variable {cfg : Config} {flags : ℕ}

/-- A stack that goes in as a whole arrives. -/
theorem arrives_of_accepts (fuel : ℕ) (hchecks : addChecks cfg w c x INDEX_WHEREEVER flags = RETURNVALUE_NOERROR)
    (htarget : addTarget cfg w c x INDEX_WHEREEVER flags = none)
    (hacc : Accepts cfg.types w (queryDestination cfg w c INDEX_WHEREEVER x none flags).cylinder
      (queryDestination cfg w c INDEX_WHEREEVER x none flags).index x) : Arrives cfg c (fuel + 1) w x flags := by
  refine ⟨hchecks, ?_⟩
  rw [htarget]
  exact hacc

/-- **An addition of a stack that arrives puts in its units**, when a remainder keeps the id of the
stack.

**Proof sketch.** Induction on the rounds. Each of the three changes of a round grows the trees: the
stack at the destination by the part that goes on it, a new stack for the remainder by nothing, and
the destination by the stack that is accepted, or that arrives in the later rounds. -/
theorem addRounds_grown {fuel : ℕ} (h : Addable cfg.types R w c x) (hlinked : w.Linked)
    (hstack : (w.items x).isStackable cfg.types = true) (hid : createdId cfg.types (w.items x).id = (w.items x).id)
    (harrives : Arrives cfg c fuel w x flags) : Grown cfg.types R (w.items x).id (w.items x).getItemCount w
      (addRounds cfg fuel w c x INDEX_WHEREEVER flags false).1 := by
  induction fuel generalizing w x flags with
  | zero => exact harrives.elim
  | succ fuel ih =>
    obtain ⟨hchecks, harrives⟩ := harrives
    have hdest := h.within x flags
    rw [addRounds_accepted hchecks]
    dsimp only at harrives ⊢
    cases htarget : addTarget cfg w c x INDEX_WHEREEVER flags with
    | none =>
      rw [htarget] at harrives
      exact addThing_grown h hlinked hdest harrives hstack
    | some y =>
      rw [htarget] at harrives
      obtain ⟨-, hstack', hyid⟩ := addTarget_spec htarget
      obtain ⟨hroom, hmerges, hrest⟩ := harrives
      dsimp only at hmerges hrest ⊢
      set d := queryDestination cfg w c INDEX_WHEREEVER x none flags
      set m := min (w.items x).getItemCount (addRoom cfg w c x INDEX_WHEREEVER flags) with hm
      set n := stackedCount cfg w y m
      set w₁ := updateThing cfg.types w d.cylinder y (w.items y).id
        ((w.items y).getItemCount + n) with hw₁
      have hm' : m = (w.items x).getItemCount := by omega
      have hnm : n ≤ m := min_le_right _ _
      have hlt := getItemCount_lt (w.items x)
      have hgrown : Grown cfg.types R (w.items x).id n w w₁ :=
        hyid ▸ updateThing_grown h.wf hlinked hdest hstack' hmerges
      have h₁ : Addable cfg.types R w₁ c x := h.updateThing d.cylinder hstack' _
      have hbody : (w₁.items x).body = (w.items x).body := h.body_updateThing d.cylinder hstack' _
      by_cases hall : m - n = 0
      · rw [if_pos hall]
        have hn : n = (w.items x).getItemCount := by omega
        exact hn ▸ hgrown
      have hrest := hrest (by omega)
      rw [if_neg hall]
      by_cases hwhole : m - n = (w.items x).getItemCount
      · rw [if_pos hwhole] at hrest ⊢
        have hn : n = 0 := by omega
        have hdest₁ : Within w₁ R d.cylinder := hdest.mono fun z hz => hgrown.holds hz
        have hland := addThing_grown h₁ hgrown.linked hdest₁ hrest
          ((Item.isStackable_eq hbody cfg.types).trans hstack)
        rw [(Item.body_eq hbody).1, Item.getItemCount_eq hbody] at hland
        simpa [hn] using hgrown.trans hland
      · rw [if_neg hwhole] at hrest ⊢
        have hnone := newStack_container cfg.types w x (m - n)
        have hnew : (w₁.create (newStack cfg.types w x (m - n))).items w₁.size =
            newStack cfg.types w x (m - n) := w₁.items_create_self _
        have hid₁ : (newStack cfg.types w x (m - n)).id = (w.items x).id :=
          (newStack_id w x (m - n)).trans hid
        have hcount : (newStack cfg.types w x (m - n)).getItemCount = m - n := by
          rw [newStack_count, Nat.mod_eq_of_lt (by omega)]
        have hcreate := create_grown (k := (w.items x).id) h₁.wf hgrown.linked hnone R
        have hlater := ih (h₁.create hnone) hcreate.linked
          (by rwa [hnew, Item.isStackable, Item.type, hid₁]) (by rwa [hnew, hid₁]) hrest
        rw [hnew, hid₁, hcount] at hlater
        have htotal := (hgrown.trans hcreate).trans hlater
        rwa [show n + 0 + (m - n) = (w.items x).getItemCount by omega] at htotal

end TiabloServer.Items
