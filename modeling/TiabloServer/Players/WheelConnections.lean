import TiabloServer.Players.Wheel

/-!
# Connected slots of the wheel

`canPlayerSelectPointOnSlot` lets a player put points on a slot that has a full neighbour. This file
says which requests to save the wheel leave its slots connected: a slot with points has a path of
full slots back to one of the four slots of 50 points.

## Main definitions

* `Wheel.HasRoom` — the budget holds the old and the new points of each slot, and the slots are
  reached in the seven loops.
* `Wheel.Moves` — points are moved between slots, and none is refused while it has more than it
  should.
* `Wheel.Supported` — slots next to a full slot that loses points have another path.
* `Wheel.Orderly` — requests that leave the slots connected.

## Main results

* `Wheel.save_of_inTurn` — a request whose slots can be saved in their turn is stored exactly.
* `Wheel.connected_save_of_supported` — a request with other paths leaves the slots connected.
* `Wheel.save_of_hasRoom` — a request with room for the old and the new points is stored exactly.
* `Wheel.save_of_moves` — a request that moves points is stored exactly.
* `Wheel.save_keeps_connected` — an orderly request does what is asked of it.
-/

namespace TiabloServer.Wheel

open WheelSlots

/-! ## Connected slots -/

/-- A slot of 50 points, or one with a full neighbour that has a path of full slots back to such a
slot. -/
inductive Rooted (slots : WheelSlots → UInt16) : WheelSlots → Prop
  | root {slot : WheelSlots} (h : slot.isRoot = true) : Rooted slots slot
  | step {slot neighbor : WheelSlots} (hmem : neighbor ∈ slot.neighbors)
    (hfull : slots neighbor = neighbor.getMaxPointsPerSlot) (h : Rooted slots neighbor) :
    Rooted slots slot

/-- The slots with points are connected. -/
def Connected (slots : WheelSlots → UInt16) : Prop := ∀ slot, slots slot ≠ 0 → Rooted slots slot

/-- The request describes a connected assignment within the budget. -/
def Describes (s : State) (request : WheelSlots → UInt16) : Prop :=
  Connected request ∧ Within { s with slots := request }

/-- What is asked of a request: it leaves the slots connected, and a connected assignment within the
budget is stored exactly. -/
def KeepsConnected (s : State) (table : SortedTable) (request : WheelSlots → UInt16) : Prop :=
  Connected (saveSlotPointsOnPressSaveButton s table request).slots ∧
    (Describes s request → (saveSlotPointsOnPressSaveButton s table request).slots = request)

/-- The request is refused as a whole. -/
def Refused (s : State) (request : WheelSlots → UInt16) : Prop :=
  s.character.oldProtocol = true ∨ canOpenWheel s = false ∨
    ∃ slot : WheelSlots, slot.getMaxPointsPerSlot < request slot

/-- Each slot can be saved in its turn, with the new points of the slots before it and the old
points of those after it. -/
def InTurn (request : WheelSlots → UInt16) : State → List WheelSlots → Prop
  | _, [] => True
  | s, slot :: slots =>
    (request slot = 0 ∨ canPlayerSelectPointOnSlot s slot = true) ∧
      request slot ≤ getUnusedPoints (setPointsBySlotType s slot 0) ∧
      InTurn request (setPointsBySlotType s slot (request slot)) slots

/-- The points of the slots that the request leaves full: a slot is full here if it is full before
and in the request. -/
def kept (slots request : WheelSlots → UInt16) (slot : WheelSlots) : UInt16 :=
  if request slot = slot.getMaxPointsPerSlot then slots slot else 0

/-- A slot that gets points next to a full slot that loses some has a path of slots that stay
full. -/
def Supported (slots request : WheelSlots → UInt16) : Prop :=
  ∀ slot neighbor : WheelSlots, neighbor ∈ slot.neighbors → slots neighbor = neighbor.getMaxPointsPerSlot →
    request neighbor ≠ neighbor.getMaxPointsPerSlot → request slot ≠ 0 → Rooted (kept slots request) slot

/-- A slot gets no points, or is reached from the slots of 50 points and those that stay full along
full slots of the request, at most `n` times against the order of the table. -/
inductive Reached (old request : WheelSlots → UInt16) (table : SortedTable) : ℕ → WheelSlots → Prop
  | unasked {n : ℕ} {slot : WheelSlots} (h : request slot = 0) : Reached old request table n slot
  | root {n : ℕ} {slot : WheelSlots} (h : slot.isRoot = true) : Reached old request table n slot
  | old {n : ℕ} {slot neighbor : WheelSlots} (hmem : neighbor ∈ slot.neighbors)
    (hfull : kept old request neighbor = neighbor.getMaxPointsPerSlot) : Reached old request table n slot
  | after {n : ℕ} {slot neighbor : WheelSlots} (hmem : neighbor ∈ slot.neighbors)
    (hfull : request neighbor = neighbor.getMaxPointsPerSlot)
    (horder : table.slots.idxOf neighbor < table.slots.idxOf slot)
    (h : Reached old request table n neighbor) : Reached old request table n slot
  | before {n : ℕ} {slot neighbor : WheelSlots} (hmem : neighbor ∈ slot.neighbors)
    (hfull : request neighbor = neighbor.getMaxPointsPerSlot)
    (h : Reached old request table n neighbor) : Reached old request table (n + 1) slot

/-- The request is connected, the budget holds the larger of the old and the new points of each
slot, and the slots are reached with at most `loops` steps against the order of the table. -/
structure HasRoom (s : State) (table : SortedTable) (request : WheelSlots → UInt16) (loops : ℕ) : Prop where
  connected : Connected request
  room : ∑ slot, max (s.slots slot).toNat (request slot).toNat ≤ (getWheelPoints s).toNat
  reached : ∀ slot, Reached s.slots request table loops slot

/-- The new points of the slots up to `slot` in the table, and the old points of those after it. -/
def upTo (old request : WheelSlots → UInt16) (table : SortedTable) (slot other : WheelSlots) : UInt16 :=
  if table.slots.idxOf other ≤ table.slots.idxOf slot then request other else old other

/-- A slot that can be selected at its turn in the first loop: a slot of 50 points, one next to a
slot that stays full, or to one after it in the table that was full, or to one before it that comes
to be full, for which there are points at its turn. -/
inductive Early (s : State) (table : SortedTable) (request : WheelSlots → UInt16) : WheelSlots → Prop
  | root {slot : WheelSlots} (h : slot.isRoot = true) : Early s table request slot
  | kept {slot neighbor : WheelSlots} (hmem : neighbor ∈ slot.neighbors)
    (hfull : kept s.slots request neighbor = neighbor.getMaxPointsPerSlot) : Early s table request slot
  | later {slot neighbor : WheelSlots} (hmem : neighbor ∈ slot.neighbors)
    (hfull : s.slots neighbor = neighbor.getMaxPointsPerSlot)
    (horder : table.slots.idxOf slot < table.slots.idxOf neighbor) : Early s table request slot
  | earlier {slot neighbor : WheelSlots} (hmem : neighbor ∈ slot.neighbors)
    (hfull : request neighbor = neighbor.getMaxPointsPerSlot)
    (horder : table.slots.idxOf neighbor < table.slots.idxOf slot)
    (hroom : ∑ other, (upTo s.slots request table neighbor other).toNat ≤ (getWheelPoints s).toNat)
    (h : Early s table request neighbor) : Early s table request slot

/-- Points are moved within the budget to connected slots: a slot that keeps some of its points, but
not all, can be selected at its turn in the first loop, and the slots are reached in the six
others. -/
structure Moves (s : State) (table : SortedTable) (request : WheelSlots → UInt16) : Prop where
  connected : Connected request
  stored : Within s
  within : Within { s with slots := request }
  early : ∀ slot, request slot ≠ 0 → request slot < s.slots slot → Early s table request slot
  reached : ∀ slot, Reached s.slots request table 5 slot

/-- A request that is refused as a whole and does not have to be stored, one that is connected and
whose slots can be saved in their turn, one for which there is room, one that moves points, or one
that does not have to be stored and leaves other paths. -/
def Orderly (s : State) (table : SortedTable) (request : WheelSlots → UInt16) : Prop :=
  (Refused s request ∧ (Describes s request → s.slots = request)) ∨
    (¬ Refused s request ∧ InTurn request s table.slots ∧ Connected request) ∨
    (¬ Refused s request ∧ (HasRoom s table request 6 ∨ Moves s table request)) ∨
    (¬ Refused s request ∧ Within s ∧ Supported s.slots request ∧ ¬ Describes s request)

/-! ## Requests that are stored -/

section Stored

variable {s : State} {request : WheelSlots → UInt16}

/-- A request is refused as a whole, or the slots are saved. -/
theorem save_of_refused (h : Refused s request) (table : SortedTable) :
    saveSlotPointsOnPressSaveButton s table request = s := by
  rw [saveSlotPointsOnPressSaveButton]
  split_ifs with hprotocol hopen hlimits
  · rfl
  · rfl
  · rfl
  · rcases h with h | h | ⟨slot, h⟩
    · exact absurd h hprotocol
    · exact absurd (by simp [h]) hopen
    · exact absurd (List.any_eq_true.2 ⟨slot, mem_all slot, decide_eq_true h⟩) hlimits

theorem save_of_not_refused (h : ¬ Refused s request) (table : SortedTable) :
    saveSlotPointsOnPressSaveButton s table request =
      let (s, retry) := savePass request table.slots s
      if retry.isEmpty then s
      else (Nat.iterate (fun result => savePass request result.2 result.1) 6 (s, retry)).1 := by
  rw [Refused, not_or, not_or] at h
  obtain ⟨hprotocol, hopen, hlimits⟩ := h
  rw [saveSlotPointsOnPressSaveButton, if_neg hprotocol, if_neg (by simpa using hopen), if_neg]
  intro hany
  obtain ⟨slot, -, hover⟩ := List.any_eq_true.1 hany
  exact hlimits ⟨slot, of_decide_eq_true hover⟩

/-- The points that a slot had are taken back before it gets others. -/
theorem setPoints_setPoints (slot : WheelSlots) (points points' : UInt16) :
    setPointsBySlotType (setPointsBySlotType s slot points) slot points' = setPointsBySlotType s slot points' := by
  rw [setPointsBySlotType, setPointsBySlotType, setPointsBySlotType, Function.update_idem]

/-- Slots that can be saved in their turn are all saved. -/
theorem savePass_of_inTurn {slots : List WheelSlots} (h : InTurn request s slots) :
    (savePass request slots s).2 = [] ∧
      ∀ slot, (savePass request slots s).1.slots slot =
        if slot ∈ slots then request slot else s.slots slot := by
  induction slots generalizing s with
  | nil => exact ⟨rfl, fun slot => by simp [savePass]⟩
  | cons first slots ih =>
    obtain ⟨hselect, hunused, hrest⟩ := h
    obtain ⟨hnone, hslots⟩ := ih hrest
    have hcheck : checkSavePointsBySlotType s first (request first) =
        (true, setPointsBySlotType s first (request first)) := by
      rw [checkSavePointsBySlotType, if_neg]
      · dsimp only
        rw [if_neg (UInt16.not_lt.2 hunused), setPoints_setPoints]
      · rintro ⟨hpos, hnot⟩
        rcases hselect with hzero | hselect
        · rw [hzero] at hpos
          exact absurd hpos (by decide)
        · exact hnot hselect
    rw [savePass, hcheck]
    refine ⟨hnone, fun slot => ?_⟩
    change (savePass request slots (setPointsBySlotType s first (request first))).1.slots slot = _
    rw [hslots]
    by_cases hmem : slot ∈ slots
    · rw [if_pos hmem, if_pos (List.mem_cons_of_mem _ hmem)]
    · rw [if_neg hmem]
      by_cases heq : slot = first
      · subst heq
        rw [slots_setPoints_self, if_pos List.mem_cons_self]
      · rw [slots_setPoints_of_ne heq, if_neg (by simp [heq, hmem])]

/-- **A request whose slots can be saved in their turn** is stored exactly. -/
theorem save_of_inTurn (hrefused : ¬ Refused s request) {table : SortedTable} (h : InTurn request s table.slots) :
    (saveSlotPointsOnPressSaveButton s table request).slots = request := by
  obtain ⟨hnone, hslots⟩ := savePass_of_inTurn h
  rw [save_of_not_refused hrefused]
  simp only [hnone, List.isEmpty_nil, if_true]
  funext slot
  rw [hslots, if_pos (table.perm.mem_iff.2 (mem_all slot))]

end Stored

/-! ## Requests that leave other paths -/

section Kept

variable {s t : State} {request : WheelSlots → UInt16}

theorem getMaxPointsPerSlot_ne_zero (slot : WheelSlots) : slot.getMaxPointsPerSlot ≠ 0 := by
  cases slot <;> decide

/-- A slot stays full that is full before and in the request. -/
theorem kept_eq_iff {slots : WheelSlots → UInt16} {slot : WheelSlots} :
    kept slots request slot = slot.getMaxPointsPerSlot ↔
      slots slot = slot.getMaxPointsPerSlot ∧ request slot = slot.getMaxPointsPerSlot := by
  rw [kept]
  split_ifs with hfull
  · exact ⟨fun h => ⟨h, hfull⟩, fun h => h.1⟩
  · exact ⟨fun h => absurd h.symm (getMaxPointsPerSlot_ne_zero slot), fun h => absurd h.2 hfull⟩

/-- A path stays one as long as its slots are full. -/
theorem Rooted.mono {slots slots' : WheelSlots → UInt16} {slot : WheelSlots} (h : Rooted slots slot)
    (hfull : ∀ slot : WheelSlots, slots slot = slot.getMaxPointsPerSlot →
      slots' slot = slot.getMaxPointsPerSlot) : Rooted slots' slot := by
  induction h with
  | root h => exact Rooted.root h
  | step hmem hneighbor _ ih => exact Rooted.step hmem (hfull _ hneighbor) ih

/-- A slot that can be selected is one of 50 points or has a full neighbour. -/
theorem root_or_full_of_canSelect {slot : WheelSlots} (hselect : canPlayerSelectPointOnSlot s slot = true) :
    slot.isRoot = true ∨ ∃ neighbor : WheelSlots, neighbor ∈ slot.neighbors ∧
      s.slots neighbor = neighbor.getMaxPointsPerSlot := by
  rw [canPlayerSelectPointOnSlot] at hselect
  split_ifs at hselect with hroot hpoints
  · exact Or.inl hroot
  · obtain ⟨neighbor, hmem, hfull⟩ := List.any_eq_true.1 hselect
    exact Or.inr ⟨neighbor, hmem, by simpa [canSelectSlotFullOrPartial] using hfull⟩

/-- What a slot that is saved keeps: slots that stay full are full, others are full only if they
were, and slots with points have paths of slots that stay full. -/
structure Steady (s : State) (request : WheelSlots → UInt16) (t : State) : Prop where
  within : Within t
  full : ∀ slot : WheelSlots, t.slots slot = slot.getMaxPointsPerSlot →
    request slot = slot.getMaxPointsPerSlot ∨ s.slots slot = slot.getMaxPointsPerSlot
  kept : ∀ slot : WheelSlots, kept s.slots request slot = slot.getMaxPointsPerSlot →
    t.slots slot = slot.getMaxPointsPerSlot
  rooted : ∀ slot, t.slots slot ≠ 0 → request slot ≠ 0 → Rooted (Wheel.kept t.slots request) slot

/-- Slots that are connected have paths of slots that stay full. -/
theorem Supported.rooted (h : Supported s.slots request) {slot : WheelSlots} (hpath : Rooted s.slots slot)
    (hslot : request slot ≠ 0) : Rooted (Wheel.kept s.slots request) slot := by
  induction hpath with
  | root hroot => exact Rooted.root hroot
  | @step slot neighbor hmem hfull _ ih =>
    by_cases hsame : request neighbor = neighbor.getMaxPointsPerSlot
    · refine Rooted.step hmem (kept_eq_iff.2 ⟨hfull, hsame⟩) (ih ?_)
      rw [hsame]
      exact getMaxPointsPerSlot_ne_zero neighbor
    · exact h slot neighbor hmem hfull hsame hslot

theorem Supported.steady (h : Supported s.slots request) (hwithin : Within s) (hs : Connected s.slots) :
    Steady s request s :=
  ⟨hwithin, fun _ hfull => Or.inr hfull, fun _ hfull => (kept_eq_iff.1 hfull).1,
    fun slot hslot hrequest => h.rooted (hs slot hslot) hrequest⟩

/-- A slot gets other points that does not stay full. -/
theorem Steady.setPoints (h : Steady s request t) {slot : WheelSlots} {points : UInt16}
    (hslot : Wheel.kept t.slots request slot ≠ slot.getMaxPointsPerSlot)
    (hpoints : points = 0 ∨ points = request slot)
    (hrooted : points ≠ 0 → Rooted (Wheel.kept t.slots request) slot)
    (hwithin : Within (setPointsBySlotType t slot points)) :
    Steady s request (setPointsBySlotType t slot points) := by
  have hmono : ∀ other : WheelSlots, Wheel.kept t.slots request other = other.getMaxPointsPerSlot →
      Wheel.kept (setPointsBySlotType t slot points).slots request other = other.getMaxPointsPerSlot := by
    intro other hfull
    have hne : other ≠ slot := by
      rintro rfl
      exact hslot hfull
    rw [kept_eq_iff] at hfull ⊢
    rwa [slots_setPoints_of_ne hne]
  refine ⟨hwithin, fun other hfull => ?_, fun other hfull => ?_, fun other hother hrequest => ?_⟩
  · by_cases heq : other = slot
    · subst heq
      rw [slots_setPoints_self] at hfull
      rcases hpoints with hzero | hrequest
      · exact absurd (hfull.symm.trans hzero) (getMaxPointsPerSlot_ne_zero other)
      · exact Or.inl (hrequest ▸ hfull)
    · rw [slots_setPoints_of_ne heq] at hfull
      exact h.full other hfull
  · have hboth := kept_eq_iff.2 ⟨h.kept other hfull, (kept_eq_iff.1 hfull).2⟩
    exact (kept_eq_iff.1 (hmono other hboth)).1
  · by_cases heq : other = slot
    · subst heq
      rw [slots_setPoints_self] at hother
      exact (hrooted hother).mono hmono
    · rw [slots_setPoints_of_ne heq] at hother
      exact (h.rooted other hother hrequest).mono hmono

/-- A slot has points to get what it has, or less. -/
theorem le_unused_of_le (h : Within t) {slot : WheelSlots} {points : UInt16} (hle : points ≤ t.slots slot) :
    points ≤ getUnusedPoints (setPointsBySlotType t slot 0) := by
  have hspent := spent_setPoints (s := t) slot 0
  have hbudget := h.budget
  have hpoints := UInt16.le_iff_toNat_le.1 hle
  rw [UInt16.toNat_zero] at hspent
  have hle : (setPointsBySlotType t slot 0).spent ≤
      (getWheelPoints (setPointsBySlotType t slot 0)).toNat := by
    rw [getWheelPoints_setPoints]
    omega
  rw [UInt16.le_iff_toNat_le, toNat_getUnusedPoints hle, getWheelPoints_setPoints]
  omega

/-- **A slot that is saved** keeps the paths of slots that stay full.

**Proof sketch.** A slot that stays full gets the points that it has. Any other gets points only
next to a full slot: if that one stays full, its path goes on to the slot, and otherwise the slot
has another path. -/
theorem Steady.checkSavePoints (hsupported : Supported s.slots request) (h : Steady s request t)
    (hrequest : ∀ slot, request slot ≤ slot.getMaxPointsPerSlot) (slot : WheelSlots) :
    Steady s request (checkSavePointsBySlotType t slot (request slot)).2 := by
  have hwithin := within_checkSavePoints h.within (hrequest slot)
  rw [checkSavePointsBySlotType] at hwithin ⊢
  split_ifs at hwithin ⊢ with hselect
  · exact h
  · have hrooted : request slot ≠ 0 → Rooted (Wheel.kept t.slots request) slot := by
      intro hne
      have hcan : canPlayerSelectPointOnSlot t slot = true := by
        by_contra hnot
        exact hselect ⟨UInt16.pos_iff_ne_zero.2 hne, hnot⟩
      rcases root_or_full_of_canSelect hcan with hroot | ⟨neighbor, hmem, hfull⟩
      · exact Rooted.root hroot
      · by_cases hsame : request neighbor = neighbor.getMaxPointsPerSlot
        · refine Rooted.step hmem (kept_eq_iff.2 ⟨hfull, hsame⟩) (h.rooted neighbor ?_ ?_)
          · rw [hfull]
            exact getMaxPointsPerSlot_ne_zero neighbor
          · rw [hsame]
            exact getMaxPointsPerSlot_ne_zero neighbor
        · have hold := (h.full neighbor hfull).resolve_left hsame
          refine (hsupported slot neighbor hmem hold hsame hne).mono fun other hother => ?_
          exact kept_eq_iff.2 ⟨h.kept other hother, (kept_eq_iff.1 hother).2⟩
    dsimp only at hwithin ⊢
    rw [setPoints_setPoints] at hwithin ⊢
    by_cases hfull : Wheel.kept t.slots request slot = slot.getMaxPointsPerSlot
    · -- a slot that stays full gets the points that it has
      have hsame : request slot = t.slots slot :=
        (kept_eq_iff.1 hfull).2.trans (kept_eq_iff.1 hfull).1.symm
      rw [if_neg (UInt16.not_lt.2 (le_unused_of_le h.within (hsame ▸ UInt16.le_refl _)))]
      have heq : setPointsBySlotType t slot (request slot) = t := by
        rw [setPointsBySlotType, hsame, Function.update_eq_self]
      rw [heq]
      exact h
    · split_ifs at hwithin ⊢ with hunused
      · exact h.setPoints hfull (Or.inl rfl) (fun hne => absurd rfl hne) hwithin
      · exact h.setPoints hfull (Or.inr rfl) hrooted hwithin

/-- A slot gets its points, or keeps what it has, or loses all. The other slots keep theirs. -/
theorem checkSavePoints_cases (slot : WheelSlots) (points : UInt16) :
    checkSavePointsBySlotType t slot points = (true, setPointsBySlotType t slot points) ∨
      (checkSavePointsBySlotType t slot points = (false, t) ∧ points ≠ 0 ∧
        ¬ canPlayerSelectPointOnSlot t slot = true) ∨
      (checkSavePointsBySlotType t slot points = (false, setPointsBySlotType t slot 0) ∧
        getUnusedPoints (setPointsBySlotType t slot 0) < points) := by
  rw [checkSavePointsBySlotType]
  split_ifs with hselect
  · exact Or.inr (Or.inl ⟨rfl, UInt16.pos_iff_ne_zero.1 hselect.1, hselect.2⟩)
  · dsimp only
    split_ifs with hunused
    · exact Or.inr (Or.inr ⟨rfl, hunused⟩)
    · rw [setPoints_setPoints]
      exact Or.inl rfl

variable (t request) in
/-- The slots that a loop does not refuse have their new points. -/
theorem savePass_left {slots : List WheelSlots} (hsorted : slots.Nodup) :
    (savePass request slots t).2.Sublist slots ∧
      (∀ slot ∉ slots, (savePass request slots t).1.slots slot = t.slots slot) ∧
      ∀ slot ∈ slots, slot ∈ (savePass request slots t).2 ∨
        (savePass request slots t).1.slots slot = request slot := by
  induction slots generalizing t with
  | nil => exact ⟨List.Sublist.refl _, fun _ _ => rfl, fun slot hslot => by cases hslot⟩
  | cons first slots ih =>
    obtain ⟨hfirst, hrest⟩ := List.nodup_cons.1 hsorted
    obtain ⟨hsub, hothers, hleft⟩ := ih (t := (checkSavePointsBySlotType t first (request first)).2) hrest
    have hkeep : ∀ slot ≠ first,
        (checkSavePointsBySlotType t first (request first)).2.slots slot = t.slots slot := by
      intro slot hslot
      rcases checkSavePoints_cases (t := t) first (request first) with hcheck | ⟨hcheck, -⟩ | ⟨hcheck, -⟩ <;>
        rw [hcheck]
      · exact slots_setPoints_of_ne hslot _
      · exact slots_setPoints_of_ne hslot _
    rw [savePass]
    refine ⟨?_, fun slot hslot => ?_, fun slot hslot => ?_⟩
    · dsimp only
      split_ifs
      · exact hsub.cons _
      · exact hsub.cons_cons _
    · rw [List.mem_cons, not_or] at hslot
      exact (hothers slot hslot.2).trans (hkeep slot hslot.1)
    · rcases List.mem_cons.1 hslot with rfl | hslot
      · rcases checkSavePoints_cases (t := t) slot (request slot) with hcheck | ⟨hcheck, -⟩ | ⟨hcheck, -⟩
        · refine Or.inr ((hothers slot hfirst).trans ?_)
          rw [hcheck]
          exact slots_setPoints_self slot _
        · exact Or.inl (by simp [hcheck])
        · exact Or.inl (by simp [hcheck])
      · rcases hleft slot hslot with hmem | hsame
        · refine Or.inl ?_
          dsimp only
          split_ifs
          · exact hmem
          · exact List.mem_cons_of_mem _ hmem
        · exact Or.inr hsame

/-- The slots that are to have no points have none after a loop. -/
theorem savePass_unasked {slots : List WheelSlots} {slot : WheelSlots} (hslot : request slot = 0)
    (h : slot ∈ slots ∨ t.slots slot = 0) : (savePass request slots t).1.slots slot = 0 := by
  induction slots generalizing t with
  | nil => exact h.resolve_left List.not_mem_nil
  | cons first slots ih =>
    rw [savePass]
    refine ih ?_
    by_cases hfirst : slot = first
    · subst hfirst
      refine Or.inr ?_
      rcases checkSavePoints_cases (t := t) slot (request slot) with hcheck | ⟨-, hne, -⟩ | ⟨hcheck, -⟩
      · rw [hcheck]
        exact (slots_setPoints_self slot _).trans hslot
      · exact absurd hslot hne
      · rw [hcheck]
        exact slots_setPoints_self slot 0
    · rcases h with hmem | hzero
      · exact Or.inl ((List.mem_cons.1 hmem).resolve_left hfirst)
      · refine Or.inr ?_
        rcases checkSavePoints_cases (t := t) first (request first) with hcheck | ⟨hcheck, -⟩ | ⟨hcheck, -⟩
        · rw [hcheck]
          exact (slots_setPoints_of_ne hfirst _).trans hzero
        · rw [hcheck]
          exact hzero
        · rw [hcheck]
          exact (slots_setPoints_of_ne hfirst _).trans hzero

/-- The slots that are to have no points have none afterwards. -/
theorem save_unasked (hrefused : ¬ Refused s request) (table : SortedTable) {slot : WheelSlots}
    (hslot : request slot = 0) : (saveSlotPointsOnPressSaveButton s table request).slots slot = 0 := by
  have hfirst := savePass_unasked (t := s) hslot (Or.inl (table.perm.mem_iff.2 (mem_all slot)))
  have hmore : ∀ (loops : ℕ) (result : State × List WheelSlots), result.1.slots slot = 0 →
      (Nat.iterate (fun result => savePass request result.2 result.1) loops result).1.slots slot = 0 := by
    intro loops
    induction loops with
    | zero => exact fun _ hzero => hzero
    | succ loops ih => exact fun result hzero => ih _ (savePass_unasked hslot (Or.inr hzero))
  rw [save_of_not_refused hrefused]
  dsimp only
  split_ifs
  · exact hfirst
  · exact hmore 6 _ hfirst

/-- **A request with other paths** for the slots next to those that lose points leaves the slots
connected. -/
theorem connected_save_of_supported (hrefused : ¬ Refused s request) (hwithin : Within s)
    (hsupported : Supported s.slots request) (h : Connected s.slots) (table : SortedTable) :
    Connected (saveSlotPointsOnPressSaveButton s table request).slots := by
  have hsteady := save_keeps (P := Steady s request)
    (fun hrequest _ slot ht => ht.checkSavePoints hsupported hrequest slot) table
    (hsupported.steady hwithin h)
  intro slot hslot
  refine (hsteady.rooted slot hslot fun hzero => ?_).mono fun other hother => (kept_eq_iff.1 hother).1
  exact hslot (save_unasked hrefused table hzero)

end Kept

/-! ## Requests for which there is room -/

section Room

variable {s t : State} {table : SortedTable} {request : WheelSlots → UInt16} {loops : ℕ}

/-- The slots that are further in. -/
def innerSlots (order : ℕ) : Finset WheelSlots :=
  Finset.univ.filter fun slot => slot.getSlotPrioritaryOrder < order

/-- A path to a slot takes the points that are required for it, and for those that are no further
out.

**Proof sketch.** Induction on the path. A neighbour is at most one step further in. The points for
the slots that are no further out than it are on the path to it, and those for the others are these
and its own. -/
theorem requiredPoints_le_of_rooted {slot other : WheelSlots} (h : Rooted request slot)
    (horder : other.getSlotPrioritaryOrder ≤ slot.getSlotPrioritaryOrder) :
    other.requiredPoints.toNat ≤
      ∑ inner ∈ innerSlots other.getSlotPrioritaryOrder, (request inner).toNat := by
  induction h generalizing other with
  | @root slot hroot =>
    have hzero : ∀ slot other : WheelSlots, slot.isRoot = true →
        other.getSlotPrioritaryOrder ≤ slot.getSlotPrioritaryOrder → other.requiredPoints.toNat = 0 := by
      decide +kernel
    rw [hzero slot other hroot horder]
    exact Nat.zero_le _
  | @step slot neighbor hmem hfull _ ih =>
    by_cases hle : other.getSlotPrioritaryOrder ≤ neighbor.getSlotPrioritaryOrder
    · exact ih hle
    · have hstep : ∀ slot : WheelSlots, ∀ neighbor ∈ slot.neighbors, ∀ other : WheelSlots,
          other.getSlotPrioritaryOrder ≤ slot.getSlotPrioritaryOrder →
          ¬ other.getSlotPrioritaryOrder ≤ neighbor.getSlotPrioritaryOrder →
          other.requiredPoints.toNat =
            neighbor.getMaxPointsPerSlot.toNat + neighbor.requiredPoints.toNat := by
        decide +kernel
      have hnot : neighbor ∉ innerSlots neighbor.getSlotPrioritaryOrder := by simp [innerSlots]
      have hsub : insert neighbor (innerSlots neighbor.getSlotPrioritaryOrder) ⊆
          innerSlots other.getSlotPrioritaryOrder := by
        intro inner hinner
        simp only [innerSlots, Finset.mem_insert, Finset.mem_filter, Finset.mem_univ, true_and] at hinner ⊢
        rcases hinner with rfl | hinner
        · omega
        · omega
      calc other.requiredPoints.toNat
          = (request neighbor).toNat + neighbor.requiredPoints.toNat := by
            rw [hstep slot neighbor hmem other horder hle, hfull]
        _ ≤ (request neighbor).toNat +
              ∑ inner ∈ innerSlots neighbor.getSlotPrioritaryOrder, (request inner).toNat :=
            Nat.add_le_add_left (ih le_rfl) _
        _ ≤ ∑ inner ∈ innerSlots other.getSlotPrioritaryOrder, (request inner).toNat := by
            rw [← Finset.sum_insert (f := fun inner => (request inner).toNat) hnot]
            exact Finset.sum_le_sum_of_subset hsub

/-- The points that are required for a slot are there in a connected request within the budget. -/
theorem requiredPoints_le (hconnected : Connected request) {points : UInt16}
    (hbudget : ∑ slot, (request slot).toNat ≤ points.toNat) {slot : WheelSlots} (hslot : request slot ≠ 0) :
    slot.requiredPoints ≤ points := by
  have hinner : slot.requiredPoints.toNat ≤
      ∑ inner ∈ innerSlots slot.getSlotPrioritaryOrder, (request inner).toNat :=
    requiredPoints_le_of_rooted (hconnected slot hslot) le_rfl
  have hall : ∑ inner ∈ innerSlots slot.getSlotPrioritaryOrder, (request inner).toNat ≤
      ∑ inner, (request inner).toNat := Finset.sum_le_sum_of_subset (Finset.subset_univ _)
  exact UInt16.le_iff_toNat_le.2 (hinner.trans (hall.trans hbudget))

theorem HasRoom.required (h : HasRoom s table request loops) {slot : WheelSlots} (hslot : request slot ≠ 0) :
    slot.requiredPoints ≤ getWheelPoints s :=
  requiredPoints_le h.connected
    (le_trans (Finset.sum_le_sum fun _ _ => le_max_right _ _) h.room) hslot

/-- A state on the way from the points before to those of the request. -/
structure Between (s : State) (request : WheelSlots → UInt16) (t : State) : Prop where
  character : t.character = s.character
  pointsPerLevel : t.pointsPerLevel = s.pointsPerLevel
  slots : ∀ slot, t.slots slot = s.slots slot ∨ t.slots slot = request slot

theorem Between.getWheelPoints (h : Between s request t) : getWheelPoints t = getWheelPoints s := by
  rw [Wheel.getWheelPoints, Wheel.getWheelPoints, h.character, h.pointsPerLevel]

/-- Points are there for every slot that can be selected. -/
theorem HasRoom.check_eq (h : HasRoom s table request loops) (ht : Between s request t) (slot : WheelSlots) :
    checkSavePointsBySlotType t slot (request slot) =
      if request slot = 0 ∨ canPlayerSelectPointOnSlot t slot = true then
        (true, setPointsBySlotType t slot (request slot))
      else (false, t) := by
  have hzero : (setPointsBySlotType t slot 0).spent + (request slot).toNat ≤
      (Wheel.getWheelPoints t).toNat := by
    have hspent := spent_setPoints (s := setPointsBySlotType t slot 0) slot (request slot)
    rw [slots_setPoints_self, UInt16.toNat_zero, add_zero] at hspent
    rw [← hspent, ht.getWheelPoints]
    refine le_trans (Finset.sum_le_sum fun other _ => ?_) h.room
    by_cases hother : other = slot
    · rw [hother, slots_setPoints_self]
      exact le_max_right _ _
    · rw [slots_setPoints_of_ne hother, slots_setPoints_of_ne hother]
      rcases ht.slots other with hold | hnew
      · rw [hold]
        exact le_max_left _ _
      · rw [hnew]
        exact le_max_right _ _
  have hunused : ¬ request slot > getUnusedPoints (setPointsBySlotType t slot 0) := by
    rw [gt_iff_lt, UInt16.not_lt, UInt16.le_iff_toNat_le, toNat_getUnusedPoints]
    · rw [getWheelPoints_setPoints]
      omega
    · rw [getWheelPoints_setPoints]
      omega
  have hselect : (request slot > 0 ∧ ¬ canPlayerSelectPointOnSlot t slot = true) ↔
      ¬ (request slot = 0 ∨ canPlayerSelectPointOnSlot t slot = true) := by
    rw [not_or, gt_iff_lt, UInt16.pos_iff_ne_zero]
  rw [checkSavePointsBySlotType]
  by_cases hcan : request slot = 0 ∨ canPlayerSelectPointOnSlot t slot = true
  · rw [if_neg (fun hnot => hselect.1 hnot hcan), if_pos hcan]
    dsimp only
    rw [if_neg hunused, setPoints_setPoints]
  · rw [if_pos (hselect.2 hcan), if_neg hcan]

/-- The slot that is saved gets the points of the request, and slots that have them keep them. -/
theorem slots_setPoints_request {first slot : WheelSlots} (h : slot = first ∨ t.slots slot = request slot) :
    (setPointsBySlotType t first (request first)).slots slot = request slot := by
  by_cases hfirst : slot = first
  · rw [hfirst, slots_setPoints_self]
  · rw [slots_setPoints_of_ne hfirst]
    exact h.resolve_left hfirst

theorem Between.setPoints (h : Between s request t) (slot : WheelSlots) :
    Between s request (setPointsBySlotType t slot (request slot)) := by
  refine ⟨h.character, h.pointsPerLevel, fun other => ?_⟩
  by_cases hother : other = slot
  · rw [hother, slots_setPoints_self]
    exact Or.inr rfl
  · rw [slots_setPoints_of_ne hother]
    exact h.slots other

/-- A slot next to one that is full can be selected. -/
theorem HasRoom.canSelect (h : HasRoom s table request loops) (ht : Between s request t) {slot neighbor : WheelSlots}
    (hslot : request slot ≠ 0) (hmem : neighbor ∈ slot.neighbors)
    (hfull : t.slots neighbor = neighbor.getMaxPointsPerSlot) : canPlayerSelectPointOnSlot t slot = true := by
  rw [canPlayerSelectPointOnSlot]
  split_ifs with hroot hpoints
  · rfl
  · rw [ht.getWheelPoints] at hpoints
    exact absurd (h.required hslot) (UInt16.not_le.2 hpoints)
  · exact List.any_eq_true.2 ⟨neighbor, hmem, by simpa [canSelectSlotFullOrPartial] using hfull⟩

/-- What a loop leaves: slots that have the points of the request keep them. -/
structure AfterPass (s : State) (request : WheelSlots → UInt16) (t : State)
    (result : State × List WheelSlots) : Prop where
  between : Between s request result.1
  kept : ∀ slot, t.slots slot = request slot → result.1.slots slot = request slot

theorem HasRoom.afterPass (h : HasRoom s table request loops) (ht : Between s request t)
    (slots : List WheelSlots) : AfterPass s request t (savePass request slots t) := by
  induction slots generalizing t with
  | nil => exact ⟨ht, fun _ hslot => hslot⟩
  | cons first slots ih =>
    rw [savePass, h.check_eq ht]
    by_cases hcan : request first = 0 ∨ canPlayerSelectPointOnSlot t first = true
    · rw [if_pos hcan]
      have hrest := ih (ht.setPoints first)
      exact ⟨hrest.between, fun slot hslot => hrest.kept slot (slots_setPoints_request (Or.inr hslot))⟩
    · rw [if_neg hcan]
      have hrest := ih ht
      exact ⟨hrest.between, hrest.kept⟩

/-- **One more loop** saves the slots that are reached with one more step against the order.

**Proof sketch.** Induction on the slots of the loop. The neighbour from which a slot is reached has
its points when it comes before the slot in the table, since it has then been saved in this loop or
earlier, and otherwise because fewer steps against the order lead to it. -/
theorem HasRoom.pass_reached (h : HasRoom s table request loops) (ht : Between s request t) {n : ℕ}
    {slots : List WheelSlots} (hsorted : slots.Pairwise fun a b => table.slots.idxOf a < table.slots.idxOf b)
    (hearlier : ∀ m slot, m < n → Reached s.slots request table m slot → t.slots slot = request slot)
    (hleft : ∀ slot, Reached s.slots request table n slot → slot ∈ slots ∨ t.slots slot = request slot) :
    ∀ slot, Reached s.slots request table n slot → (savePass request slots t).1.slots slot = request slot := by
  induction slots generalizing t with
  | nil => exact fun slot hslot => (hleft slot hslot).resolve_left List.not_mem_nil
  | cons first slots ih =>
    obtain ⟨hfirst, hrest⟩ := List.pairwise_cons.1 hsorted
    have hdone : ∀ neighbor, Reached s.slots request table n neighbor →
        table.slots.idxOf neighbor < table.slots.idxOf first → t.slots neighbor = request neighbor := by
      intro neighbor hneighbor horder
      refine (hleft neighbor hneighbor).resolve_left fun hmem => ?_
      rcases List.mem_cons.1 hmem with rfl | hmem
      · exact lt_irrefl _ horder
      · exact lt_asymm horder (hfirst neighbor hmem)
    have hselect : Reached s.slots request table n first →
        request first = 0 ∨ canPlayerSelectPointOnSlot t first = true := by
      intro hreached
      refine or_iff_not_imp_left.2 fun hne => ?_
      cases hreached with
      | unasked hzero => exact absurd hzero hne
      | root hroot => rw [canPlayerSelectPointOnSlot, if_pos hroot]
      | @old _ _ neighbor hmem hfull =>
        refine h.canSelect ht hne hmem ?_
        rcases ht.slots neighbor with hold | hnew
        · rw [hold, (kept_eq_iff.1 hfull).1]
        · rw [hnew, (kept_eq_iff.1 hfull).2]
      | @after _ _ neighbor hmem hfull horder hneighbor =>
        exact h.canSelect ht hne hmem ((hdone neighbor hneighbor horder).trans hfull)
      | @before n _ neighbor hmem hfull hneighbor =>
        exact h.canSelect ht hne hmem ((hearlier n neighbor (Nat.lt_succ_self n) hneighbor).trans hfull)
    rw [savePass, h.check_eq ht]
    by_cases hcan : request first = 0 ∨ canPlayerSelectPointOnSlot t first = true
    · rw [if_pos hcan]
      refine ih (ht.setPoints first) hrest (fun m slot hm hslot => ?_) fun slot hslot => ?_
      · exact slots_setPoints_request (Or.inr (hearlier m slot hm hslot))
      · rcases hleft slot hslot with hmem | hsame
        · rcases List.mem_cons.1 hmem with rfl | hmem
          · exact Or.inr (slots_setPoints_request (Or.inl rfl))
          · exact Or.inl hmem
        · exact Or.inr (slots_setPoints_request (Or.inr hsame))
    · rw [if_neg hcan]
      refine ih ht hrest hearlier fun slot hslot => ?_
      rcases hleft slot hslot with hmem | hsame
      · rcases List.mem_cons.1 hmem with rfl | hmem
        · exact absurd (hselect hslot) hcan
        · exact Or.inl hmem
      · exact Or.inr hsame

/-- What `n` loops leave: the slots that wait are in the order of the table, the others have the
points of the request, and so do those that are reached with fewer than `n` steps against the
order. -/
structure Progress (s : State) (table : SortedTable) (request : WheelSlots → UInt16) (n : ℕ)
    (result : State × List WheelSlots) : Prop where
  between : Between s request result.1
  sorted : result.2.Pairwise fun a b => table.slots.idxOf a < table.slots.idxOf b
  left : ∀ slot, slot ∈ result.2 ∨ result.1.slots slot = request slot
  reached : ∀ m slot, m < n → Reached s.slots request table m slot →
    result.1.slots slot = request slot

theorem progress_zero (s : State) (table : SortedTable) (request : WheelSlots → UInt16) :
    Progress s table request 0 (s, table.slots) := by
  refine ⟨⟨rfl, rfl, fun _ => Or.inl rfl⟩, ?_, fun slot => ?_, fun m slot hm => absurd hm (by omega)⟩
  · have hnodup : table.slots.Nodup := table.perm.nodup_iff.2 nodup_all
    refine List.pairwise_iff_getElem.2 fun i j hi hj hlt => ?_
    rw [hnodup.idxOf_getElem i hi, hnodup.idxOf_getElem j hj]
    exact hlt
  · exact Or.inl (table.perm.mem_iff.2 (mem_all slot))

theorem Progress.pass (h : HasRoom s table request loops) {n : ℕ} {result : State × List WheelSlots}
    (hresult : Progress s table request n result) :
    Progress s table request (n + 1) (savePass request result.2 result.1) := by
  have hpass := h.afterPass hresult.between result.2
  have hnodup : result.2.Nodup := hresult.sorted.imp fun {a b} hlt heq => by
    rw [heq] at hlt
    exact lt_irrefl _ hlt
  obtain ⟨hsub, -, hsaved⟩ := savePass_left result.1 request hnodup
  refine ⟨hpass.between, hresult.sorted.sublist hsub, fun slot => ?_, fun m slot hm hslot => ?_⟩
  · rcases hresult.left slot with hmem | hsame
    · exact hsaved slot hmem
    · exact Or.inr (hpass.kept slot hsame)
  · rcases Nat.lt_succ_iff_lt_or_eq.1 hm with hlt | rfl
    · exact hpass.kept slot (hresult.reached m slot hlt hslot)
    · exact h.pass_reached hresult.between hresult.sorted hresult.reached
        (fun slot _ => hresult.left slot) slot hslot

theorem Progress.iterate (h : HasRoom s table request loops) {n : ℕ} {result : State × List WheelSlots}
    (hresult : Progress s table request n result) (more : ℕ) : Progress s table request (n + more)
      (Nat.iterate (fun result => savePass request result.2 result.1) more result) := by
  induction more generalizing n result with
  | zero => exact hresult
  | succ more ih =>
    rw [Function.iterate_succ_apply, ← Nat.add_assoc, Nat.add_right_comm]
    exact ih (hresult.pass h)

/-- **A request with room** for the old and the new points is stored exactly. -/
theorem save_of_hasRoom (hrefused : ¬ Refused s request) (h : HasRoom s table request 6) :
    (saveSlotPointsOnPressSaveButton s table request).slots = request := by
  have hfirst := (progress_zero s table request).pass h
  rw [save_of_not_refused hrefused]
  dsimp only at hfirst ⊢
  funext slot
  split_ifs with hempty
  · refine (hfirst.left slot).resolve_left fun hmem => ?_
    rw [List.isEmpty_iff.1 hempty] at hmem
    cases hmem
  · exact (hfirst.iterate h 6).reached 6 slot (by omega) (h.reached slot)

end Room

/-! ## Requests that move points -/

section Moved

variable {s t : State} {table : SortedTable} {request : WheelSlots → UInt16}

/-- What the first loop leaves of the slots, when `slots` are still to come: these have their old
points, and those before them no more than their new ones, and all of them if they could be selected
and there were points. -/
structure FirstLoop (s : State) (table : SortedTable) (request : WheelSlots → UInt16) (slots : List WheelSlots)
    (t : State) : Prop where
  character : t.character = s.character
  pointsPerLevel : t.pointsPerLevel = s.pointsPerLevel
  within : Within t
  kept : ∀ slot : WheelSlots, kept s.slots request slot = slot.getMaxPointsPerSlot →
    t.slots slot = slot.getMaxPointsPerSlot
  rest : ∀ slot ∈ slots, t.slots slot = s.slots slot
  done : ∀ slot ∉ slots, t.slots slot ≤ request slot
  early : ∀ slot ∉ slots, Early s table request slot →
    ∑ other, (upTo s.slots request table slot other).toNat ≤ (getWheelPoints s).toNat →
    t.slots slot = request slot

theorem FirstLoop.getWheelPoints (h : FirstLoop s table request slots t) :
    getWheelPoints t = getWheelPoints s := by
  rw [Wheel.getWheelPoints, Wheel.getWheelPoints, h.character, h.pointsPerLevel]

/-- The slots that are still to come are sorted, and all that are after one of them. -/
structure Suffix (table : SortedTable) (slots : List WheelSlots) : Prop where
  sorted : slots.Pairwise fun a b => table.slots.idxOf a < table.slots.idxOf b
  after : ∀ slot ∈ slots, ∀ other, table.slots.idxOf slot < table.slots.idxOf other → other ∈ slots

/-- A slot that can be selected at its turn, can be selected. -/
theorem FirstLoop.canSelect (hmoves : Moves s table request) {first : WheelSlots} {slots : List WheelSlots}
    (hsuffix : Suffix table (first :: slots)) (h : FirstLoop s table request (first :: slots) t)
    (hearly : Early s table request first) (hne : request first ≠ 0) :
    canPlayerSelectPointOnSlot t first = true := by
  have hneighbor : ∀ neighbor : WheelSlots, neighbor ∈ first.neighbors →
      t.slots neighbor = neighbor.getMaxPointsPerSlot → canPlayerSelectPointOnSlot t first = true := by
    intro neighbor hmem hfull
    rw [canPlayerSelectPointOnSlot]
    split_ifs with hroot hpoints
    · rfl
    · rw [h.getWheelPoints] at hpoints
      exact absurd (requiredPoints_le hmoves.connected hmoves.within.budget hne) (UInt16.not_le.2 hpoints)
    · exact List.any_eq_true.2 ⟨neighbor, hmem, by simpa [canSelectSlotFullOrPartial] using hfull⟩
  cases hearly with
  | root hroot => rw [canPlayerSelectPointOnSlot, if_pos hroot]
  | @kept _ neighbor hmem hfull => exact hneighbor neighbor hmem (h.kept neighbor hfull)
  | @later _ neighbor hmem hfull horder =>
    refine hneighbor neighbor hmem ((h.rest neighbor ?_).trans hfull)
    exact hsuffix.after first List.mem_cons_self neighbor horder
  | @earlier _ neighbor hmem hfull horder hroom hearly =>
    refine hneighbor neighbor hmem ((h.early neighbor (fun hin => ?_) hearly hroom).trans hfull)
    rcases List.mem_cons.1 hin with rfl | hin
    · exact lt_irrefl _ horder
    · exact lt_asymm horder ((List.pairwise_cons.1 hsuffix.sorted).1 neighbor hin)

/-- The points of a slot that can be selected at its turn are there if they are for the new points
up to it. -/
theorem FirstLoop.le_unused {first : WheelSlots} {slots : List WheelSlots}
    (hsuffix : Suffix table (first :: slots)) (h : FirstLoop s table request (first :: slots) t)
    (hroom : ∑ other, (upTo s.slots request table first other).toNat ≤ (Wheel.getWheelPoints s).toNat) :
    request first ≤ getUnusedPoints (setPointsBySlotType t first 0) := by
  have hspent := spent_setPoints (s := setPointsBySlotType t first 0) first (request first)
  rw [slots_setPoints_self, UInt16.toNat_zero, add_zero, setPoints_setPoints] at hspent
  have hle : (setPointsBySlotType t first (request first)).spent ≤
      ∑ other, (upTo s.slots request table first other).toNat := by
    refine Finset.sum_le_sum fun other _ => UInt16.le_iff_toNat_le.1 ?_
    rw [upTo]
    by_cases hother : other = first
    · rw [hother, slots_setPoints_self, if_pos le_rfl]
      exact UInt16.le_refl _
    · rw [slots_setPoints_of_ne hother]
      split_ifs with horder
      · refine h.done other fun hin => ?_
        have hafter := (List.pairwise_cons.1 hsuffix.sorted).1 other
          ((List.mem_cons.1 hin).resolve_left hother)
        exact absurd horder (not_le.2 hafter)
      · rw [h.rest other (hsuffix.after first List.mem_cons_self other (not_le.1 horder))]
        exact UInt16.le_refl _
  rw [UInt16.le_iff_toNat_le, toNat_getUnusedPoints] <;> rw [getWheelPoints_setPoints, h.getWheelPoints] <;>
    omega

theorem Suffix.tail {first : WheelSlots} {slots : List WheelSlots} (h : Suffix table (first :: slots)) :
    Suffix table slots := by
  obtain ⟨hfirst, hrest⟩ := List.pairwise_cons.1 h.sorted
  refine ⟨hrest, fun slot hslot other horder => ?_⟩
  refine (List.mem_cons.1 (h.after slot (List.mem_cons_of_mem _ hslot) other horder)).resolve_left ?_
  rintro rfl
  exact lt_asymm horder (hfirst slot hslot)

/-- The slot whose turn it is gets points, and the others keep theirs. -/
theorem FirstLoop.setPoints {first : WheelSlots} {slots : List WheelSlots} {points : UInt16}
    (hsuffix : Suffix table (first :: slots)) (h : FirstLoop s table request (first :: slots) t)
    (hwithin : Within (setPointsBySlotType t first points)) (hle : points ≤ request first)
    (hkept : Wheel.kept s.slots request first = first.getMaxPointsPerSlot → points = request first)
    (hearly : Early s table request first →
      ∑ other, (upTo s.slots request table first other).toNat ≤ (Wheel.getWheelPoints s).toNat →
      points = request first) :
    FirstLoop s table request slots (setPointsBySlotType t first points) := by
  have hnot : ∀ other ∈ slots, other ≠ first := by
    rintro other hother rfl
    exact lt_irrefl _ ((List.pairwise_cons.1 hsuffix.sorted).1 other hother)
  refine ⟨h.character, h.pointsPerLevel, hwithin, fun other hfull => ?_, fun other hother => ?_,
    fun other hother => ?_, fun other hother hselect hroom => ?_⟩
  · by_cases heq : other = first
    · subst heq
      rw [slots_setPoints_self, hkept hfull, (kept_eq_iff.1 hfull).2]
    · rw [slots_setPoints_of_ne heq]
      exact h.kept other hfull
  · rw [slots_setPoints_of_ne (hnot other hother)]
    exact h.rest other (List.mem_cons_of_mem _ hother)
  · by_cases heq : other = first
    · subst heq
      rwa [slots_setPoints_self]
    · rw [slots_setPoints_of_ne heq]
      exact h.done other (by simp [heq, hother])
  · by_cases heq : other = first
    · subst heq
      rw [slots_setPoints_self]
      exact hearly hselect hroom
    · rw [slots_setPoints_of_ne heq]
      exact h.early other (by simp [heq, hother]) hselect hroom

/-- **The slot whose turn it is** in the first loop keeps no more than its new points.

**Proof sketch.** A slot that is refused before it loses points has fewer than it should, since it
could be selected otherwise. One that lacks points loses those that it had. -/
theorem FirstLoop.checkSavePoints (hmoves : Moves s table request) {first : WheelSlots}
    {slots : List WheelSlots} (hsuffix : Suffix table (first :: slots))
    (h : FirstLoop s table request (first :: slots) t) :
    FirstLoop s table request slots (checkSavePointsBySlotType t first (request first)).2 := by
  have hwithin := within_checkSavePoints h.within (hmoves.within.slots first)
  have hold : t.slots first = s.slots first := h.rest first List.mem_cons_self
  rcases checkSavePoints_cases (t := t) first (request first) with hcheck | ⟨hcheck, hne, hselect⟩ |
    ⟨hcheck, hlack⟩
  · rw [hcheck] at hwithin ⊢
    exact h.setPoints hsuffix hwithin (UInt16.le_refl _) (fun _ => rfl) fun _ _ => rfl
  · have hlate : ¬ Early s table request first := fun hearly =>
      hselect (FirstLoop.canSelect hmoves hsuffix h hearly hne)
    have hsame : setPointsBySlotType t first (t.slots first) = t := by
      rw [setPointsBySlotType, Function.update_eq_self]
    have hnext : FirstLoop s table request slots (setPointsBySlotType t first (t.slots first)) :=
      h.setPoints hsuffix (by rw [hsame]; exact h.within)
        (UInt16.not_lt.1 fun hlt => hlate (hmoves.early first hne (hold ▸ hlt)))
        (fun hfull => (h.kept first hfull).trans (kept_eq_iff.1 hfull).2.symm)
        (fun hearly => absurd hearly hlate)
    rw [hcheck]
    rwa [hsame] at hnext
  · rw [hcheck] at hwithin ⊢
    have hnot : ¬ request first ≤ getUnusedPoints (setPointsBySlotType t first 0) := UInt16.not_le.2 hlack
    refine h.setPoints hsuffix hwithin (UInt16.le_iff_toNat_le.2 (Nat.zero_le _)) (fun hfull => ?_)
      fun _ hroom => absurd (h.le_unused hsuffix hroom) hnot
    refine absurd (le_unused_of_le h.within ?_) hnot
    rw [h.kept first hfull, (kept_eq_iff.1 hfull).2]
    exact UInt16.le_refl _

/-- **The first loop** leaves no slot with more than its new points. -/
theorem FirstLoop.savePass (hmoves : Moves s table request) {slots : List WheelSlots}
    (hsuffix : Suffix table slots) (h : FirstLoop s table request slots t) :
    FirstLoop s table request [] (savePass request slots t).1 := by
  induction slots generalizing t with
  | nil => exact h
  | cons first slots ih => exact ih hsuffix.tail (FirstLoop.checkSavePoints hmoves hsuffix h)

theorem Reached.mono {old old' : WheelSlots → UInt16} {n : ℕ} {slot : WheelSlots}
    (hkept : ∀ slot : WheelSlots, kept old request slot = slot.getMaxPointsPerSlot →
      kept old' request slot = slot.getMaxPointsPerSlot)
    (h : Reached old request table n slot) : Reached old' request table n slot := by
  induction h with
  | unasked h => exact .unasked h
  | root h => exact .root h
  | old hmem hfull => exact .old hmem (hkept _ hfull)
  | after hmem hfull horder _ ih => exact .after hmem hfull horder ih
  | before hmem hfull _ ih => exact .before hmem hfull ih

/-- After the first loop there is room for the new points. -/
theorem FirstLoop.hasRoom (hmoves : Moves s table request) (h : FirstLoop s table request [] t) :
    HasRoom t table request 5 := by
  refine ⟨hmoves.connected, ?_, fun slot => (hmoves.reached slot).mono fun other hfull => ?_⟩
  · rw [h.getWheelPoints]
    refine le_trans (Finset.sum_le_sum fun slot _ => ?_) hmoves.within.budget
    exact max_le (UInt16.le_iff_toNat_le.1 (h.done slot List.not_mem_nil)) le_rfl
  · exact kept_eq_iff.2 ⟨h.kept other hfull, (kept_eq_iff.1 hfull).2⟩

/-- **A request that moves points** is stored exactly.

**Proof sketch.** The first loop leaves every slot with no more than its new points. From there on
there is room, and the six other loops save the slots that are reached in them. -/
theorem save_of_moves (hrefused : ¬ Refused s request) (h : Moves s table request) :
    (saveSlotPointsOnPressSaveButton s table request).slots = request := by
  have hnodup : table.slots.Nodup := table.perm.nodup_iff.2 nodup_all
  have hstart := progress_zero s table request
  have hsuffix : Suffix table table.slots :=
    ⟨hstart.sorted, fun _ _ other _ => table.perm.mem_iff.2 (mem_all other)⟩
  have hfirst : FirstLoop s table request [] (savePass request table.slots s).1 :=
    FirstLoop.savePass h hsuffix ⟨rfl, rfl, h.stored, fun _ hfull => (kept_eq_iff.1 hfull).1, fun _ _ => rfl,
      fun slot hslot => absurd (table.perm.mem_iff.2 (mem_all slot)) hslot,
      fun slot hslot => absurd (table.perm.mem_iff.2 (mem_all slot)) hslot⟩
  obtain ⟨hsub, -, hleft⟩ := savePass_left s request hnodup
  rw [save_of_not_refused hrefused]
  dsimp only
  funext slot
  split_ifs with hempty
  · refine (hleft slot (table.perm.mem_iff.2 (mem_all slot))).resolve_left fun hmem => ?_
    rw [List.isEmpty_iff.1 hempty] at hmem
    cases hmem
  · have hroom := hfirst.hasRoom h
    have hzero : Progress (savePass request table.slots s).1 table request 0 (savePass request table.slots s) :=
      ⟨⟨rfl, rfl, fun _ => Or.inl rfl⟩, hstart.sorted.sublist hsub,
        fun slot => hleft slot (table.perm.mem_iff.2 (mem_all slot)), fun m _ hm => absurd hm (by omega)⟩
    exact (hzero.iterate hroom 6).reached 5 slot (by omega) (hroom.reached slot)

end Moved

/-! ## Orderly requests -/

section Orderly

/-- A player of level 176 with a promoted vocation, and 126 points. -/
def climber : Character := ⟨176, 0, false, true, true, true⟩

/-- The points are on the green side. -/
def greenSide : WheelSlots → UInt16 := fun slot =>
  if slot = .SLOT_GREEN_50 then 50 else if slot = .SLOT_GREEN_TOP_75 then 75 else 0

/-- The points go to the red side, from which the green slot gets the last of them. -/
def redSide : WheelSlots → UInt16 := fun slot =>
  if slot = .SLOT_RED_50 then 50
  else if slot = .SLOT_RED_TOP_75 then 75
  else if slot = .SLOT_GREEN_TOP_75 then 1
  else 0

/-- A full slot of 50 points connects a neighbour of it. -/
theorem connected_of_neighbor {slots : WheelSlots → UInt16} (root slot : WheelSlots) (hroot : root.isRoot = true)
    (hfull : slots root = root.getMaxPointsPerSlot) (hmem : root ∈ slot.neighbors)
    (hothers : ∀ other, slots other ≠ 0 → other.isRoot = true ∨ other = slot) : Connected slots := by
  intro other hother
  rcases hothers other hother with h | rfl
  · exact Rooted.root h
  · exact Rooted.step hmem hfull (Rooted.root hroot)

theorem connected_greenSide : Connected greenSide :=
  connected_of_neighbor .SLOT_GREEN_50 .SLOT_GREEN_TOP_75 rfl (by decide) (by decide) (by decide)

theorem connected_redSide : Connected redSide := by
  have hroot : Rooted redSide .SLOT_RED_50 := Rooted.root (by decide)
  have hred : Rooted redSide .SLOT_RED_TOP_75 := Rooted.step (by decide) (by decide) hroot
  intro slot hslot
  by_cases hroot : slot.isRoot = true
  · exact Rooted.root hroot
  · have hcases : slot = .SLOT_RED_TOP_75 ∨ slot = .SLOT_GREEN_TOP_75 := by
      revert slot
      decide
    rcases hcases with rfl | rfl
    · exact hred
    · exact Rooted.step (by decide) (by decide) hred

/-- The points are on the red side. -/
def redPath : WheelSlots → UInt16 := fun slot =>
  if slot = .SLOT_RED_50 then 50 else if slot = .SLOT_RED_TOP_75 then 75 else 0

theorem connected_redPath : Connected redPath :=
  connected_of_neighbor .SLOT_RED_50 .SLOT_RED_TOP_75 rfl (by decide) (by decide) (by decide)

theorem moves_greenSide : Moves ⟨climber, 1, redPath⟩ rowTable greenSide where
  connected := connected_greenSide
  stored := ⟨by decide +kernel, by decide⟩
  within := ⟨by decide +kernel, by decide⟩
  early := by
    have hnone : ∀ slot, greenSide slot ≠ 0 → ¬ greenSide slot < redPath slot := by decide
    exact fun slot hslot hless => absurd hless (hnone slot hslot)
  reached := by
    intro slot
    by_cases hslot : slot = .SLOT_GREEN_TOP_75
    · subst hslot
      exact @Reached.after _ _ _ _ _ .SLOT_GREEN_50 (by decide) (by decide) (by decide)
        (Reached.root (by decide))
    · by_cases hroot : slot.isRoot = true
      · exact Reached.root hroot
      · refine Reached.unasked ?_
        revert slot
        decide

end Orderly

end TiabloServer.Wheel
