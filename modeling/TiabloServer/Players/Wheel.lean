import TiabloServer.Lib.Runs

/-!
# Slots of the wheel of destiny

`PlayerWheel` (`creatures/players/wheel/player_wheel.cpp`): a player spends the points of the wheel
on 36 slots. A request to save has points for all slots. They are saved one after the other in an
order that the rows of the wheel have (`io/io_wheel.cpp`), each against the points that are unused
by then, and refused slots are tried again up to six times. Unused points are a difference of 16
bits.

## Main definitions

* `Wheel.checkSavePointsBySlotType`, `Wheel.saveSlotPointsOnPressSaveButton` — a slot is saved, and
  all.
* `Wheel.Within` — the points are within the budget and the limits of the slots.

## Main results

* `Wheel.within_checkSavePoints` — a slot that is saved keeps the points within.
* `Wheel.run_within_iff` — all saves of a run leave the points within if and only if nothing else
  has put them beyond.
-/

namespace TiabloServer.Wheel

/-! ## Slots -/

/-- `WheelSlots_t`. -/
inductive WheelSlots where
  | SLOT_GREEN_200
  | SLOT_GREEN_TOP_150
  | SLOT_GREEN_TOP_100
  | SLOT_RED_TOP_100
  | SLOT_RED_TOP_150
  | SLOT_RED_200
  | SLOT_GREEN_BOTTOM_150
  | SLOT_GREEN_MIDDLE_100
  | SLOT_GREEN_TOP_75
  | SLOT_RED_TOP_75
  | SLOT_RED_MIDDLE_100
  | SLOT_RED_BOTTOM_150
  | SLOT_GREEN_BOTTOM_100
  | SLOT_GREEN_BOTTOM_75
  | SLOT_GREEN_50
  | SLOT_RED_50
  | SLOT_RED_BOTTOM_75
  | SLOT_RED_BOTTOM_100
  | SLOT_BLUE_TOP_100
  | SLOT_BLUE_TOP_75
  | SLOT_BLUE_50
  | SLOT_PURPLE_50
  | SLOT_PURPLE_TOP_75
  | SLOT_PURPLE_TOP_100
  | SLOT_BLUE_TOP_150
  | SLOT_BLUE_MIDDLE_100
  | SLOT_BLUE_BOTTOM_75
  | SLOT_PURPLE_BOTTOM_75
  | SLOT_PURPLE_MIDDLE_100
  | SLOT_PURPLE_TOP_150
  | SLOT_BLUE_200
  | SLOT_BLUE_BOTTOM_150
  | SLOT_BLUE_BOTTOM_100
  | SLOT_PURPLE_BOTTOM_100
  | SLOT_PURPLE_BOTTOM_150
  | SLOT_PURPLE_200
  deriving DecidableEq

namespace WheelSlots

/-- The slots in the order of their numbers. -/
def all : List WheelSlots :=
  [.SLOT_GREEN_200, .SLOT_GREEN_TOP_150, .SLOT_GREEN_TOP_100, .SLOT_RED_TOP_100,
    .SLOT_RED_TOP_150, .SLOT_RED_200, .SLOT_GREEN_BOTTOM_150, .SLOT_GREEN_MIDDLE_100,
    .SLOT_GREEN_TOP_75, .SLOT_RED_TOP_75, .SLOT_RED_MIDDLE_100, .SLOT_RED_BOTTOM_150,
    .SLOT_GREEN_BOTTOM_100, .SLOT_GREEN_BOTTOM_75, .SLOT_GREEN_50, .SLOT_RED_50,
    .SLOT_RED_BOTTOM_75, .SLOT_RED_BOTTOM_100, .SLOT_BLUE_TOP_100, .SLOT_BLUE_TOP_75,
    .SLOT_BLUE_50, .SLOT_PURPLE_50, .SLOT_PURPLE_TOP_75, .SLOT_PURPLE_TOP_100,
    .SLOT_BLUE_TOP_150, .SLOT_BLUE_MIDDLE_100, .SLOT_BLUE_BOTTOM_75, .SLOT_PURPLE_BOTTOM_75,
    .SLOT_PURPLE_MIDDLE_100, .SLOT_PURPLE_TOP_150, .SLOT_BLUE_200, .SLOT_BLUE_BOTTOM_150,
    .SLOT_BLUE_BOTTOM_100, .SLOT_PURPLE_BOTTOM_100, .SLOT_PURPLE_BOTTOM_150, .SLOT_PURPLE_200]

def getMaxPointsPerSlot : WheelSlots → UInt16
  | .SLOT_GREEN_50 | .SLOT_RED_50 | .SLOT_BLUE_50 | .SLOT_PURPLE_50 => 50
  | .SLOT_GREEN_TOP_75 | .SLOT_RED_TOP_75 | .SLOT_GREEN_BOTTOM_75 | .SLOT_RED_BOTTOM_75
  | .SLOT_BLUE_TOP_75 | .SLOT_PURPLE_TOP_75 | .SLOT_BLUE_BOTTOM_75 | .SLOT_PURPLE_BOTTOM_75 => 75
  | .SLOT_GREEN_TOP_100 | .SLOT_RED_TOP_100 | .SLOT_GREEN_MIDDLE_100 | .SLOT_RED_MIDDLE_100
  | .SLOT_GREEN_BOTTOM_100 | .SLOT_RED_BOTTOM_100 | .SLOT_BLUE_TOP_100 | .SLOT_PURPLE_TOP_100
  | .SLOT_BLUE_MIDDLE_100 | .SLOT_PURPLE_MIDDLE_100 | .SLOT_BLUE_BOTTOM_100
  | .SLOT_PURPLE_BOTTOM_100 => 100
  | .SLOT_GREEN_TOP_150 | .SLOT_RED_TOP_150 | .SLOT_GREEN_BOTTOM_150 | .SLOT_RED_BOTTOM_150
  | .SLOT_BLUE_TOP_150 | .SLOT_PURPLE_TOP_150 | .SLOT_BLUE_BOTTOM_150 | .SLOT_PURPLE_BOTTOM_150 => 150
  | .SLOT_GREEN_200 | .SLOT_RED_200 | .SLOT_BLUE_200 | .SLOT_PURPLE_200 => 200

/-- `IOWheel::getSlotPrioritaryOrder`. -/
def getSlotPrioritaryOrder : WheelSlots → ℕ
  | .SLOT_GREEN_50 | .SLOT_RED_50 | .SLOT_BLUE_50 | .SLOT_PURPLE_50 => 0
  | .SLOT_GREEN_TOP_75 | .SLOT_RED_TOP_75 | .SLOT_GREEN_BOTTOM_75 | .SLOT_RED_BOTTOM_75
  | .SLOT_BLUE_TOP_75 | .SLOT_PURPLE_TOP_75 | .SLOT_BLUE_BOTTOM_75 | .SLOT_PURPLE_BOTTOM_75 => 1
  | .SLOT_GREEN_TOP_100 | .SLOT_RED_TOP_100 | .SLOT_GREEN_MIDDLE_100 | .SLOT_RED_MIDDLE_100
  | .SLOT_GREEN_BOTTOM_100 | .SLOT_RED_BOTTOM_100 | .SLOT_BLUE_TOP_100 | .SLOT_PURPLE_TOP_100
  | .SLOT_BLUE_MIDDLE_100 | .SLOT_PURPLE_MIDDLE_100 | .SLOT_BLUE_BOTTOM_100
  | .SLOT_PURPLE_BOTTOM_100 => 2
  | .SLOT_GREEN_TOP_150 | .SLOT_RED_TOP_150 | .SLOT_GREEN_BOTTOM_150 | .SLOT_RED_BOTTOM_150
  | .SLOT_BLUE_TOP_150 | .SLOT_PURPLE_TOP_150 | .SLOT_BLUE_BOTTOM_150 | .SLOT_PURPLE_BOTTOM_150 => 3
  | .SLOT_GREEN_200 | .SLOT_RED_200 | .SLOT_BLUE_200 | .SLOT_PURPLE_200 => 4

/-- The points that `canPlayerSelectPointOnSlot` wants a player to have for a slot. -/
def requiredPoints : WheelSlots → UInt16
  | .SLOT_GREEN_50 | .SLOT_RED_50 | .SLOT_BLUE_50 | .SLOT_PURPLE_50 => 0
  | .SLOT_GREEN_TOP_75 | .SLOT_RED_TOP_75 | .SLOT_GREEN_BOTTOM_75 | .SLOT_RED_BOTTOM_75
  | .SLOT_BLUE_TOP_75 | .SLOT_PURPLE_TOP_75 | .SLOT_BLUE_BOTTOM_75 | .SLOT_PURPLE_BOTTOM_75 => 50
  | .SLOT_GREEN_TOP_100 | .SLOT_RED_TOP_100 | .SLOT_GREEN_MIDDLE_100 | .SLOT_RED_MIDDLE_100
  | .SLOT_GREEN_BOTTOM_100 | .SLOT_RED_BOTTOM_100 | .SLOT_BLUE_TOP_100 | .SLOT_PURPLE_TOP_100
  | .SLOT_BLUE_MIDDLE_100 | .SLOT_PURPLE_MIDDLE_100 | .SLOT_BLUE_BOTTOM_100
  | .SLOT_PURPLE_BOTTOM_100 => 125
  | .SLOT_GREEN_TOP_150 | .SLOT_RED_TOP_150 | .SLOT_GREEN_BOTTOM_150 | .SLOT_RED_BOTTOM_150
  | .SLOT_BLUE_TOP_150 | .SLOT_PURPLE_TOP_150 | .SLOT_BLUE_BOTTOM_150 | .SLOT_PURPLE_BOTTOM_150 => 225
  | .SLOT_GREEN_200 | .SLOT_RED_200 | .SLOT_BLUE_200 | .SLOT_PURPLE_200 => 375

/-- The neighbours of which `canPlayerSelectPointOnSlot` wants one to be full. -/
def neighbors : WheelSlots → List WheelSlots
  | .SLOT_GREEN_50 | .SLOT_RED_50 | .SLOT_BLUE_50 | .SLOT_PURPLE_50 => []
  | .SLOT_GREEN_200 => [.SLOT_GREEN_TOP_150, .SLOT_GREEN_BOTTOM_150]
  | .SLOT_GREEN_TOP_150 => [.SLOT_GREEN_TOP_100, .SLOT_GREEN_MIDDLE_100, .SLOT_GREEN_BOTTOM_150]
  | .SLOT_GREEN_TOP_100 =>
    [.SLOT_RED_TOP_100, .SLOT_GREEN_TOP_75, .SLOT_GREEN_MIDDLE_100, .SLOT_GREEN_MIDDLE_100]
  | .SLOT_RED_TOP_100 =>
    [.SLOT_RED_TOP_75, .SLOT_GREEN_TOP_100, .SLOT_RED_MIDDLE_100, .SLOT_RED_TOP_150]
  | .SLOT_RED_TOP_150 => [.SLOT_RED_TOP_100, .SLOT_RED_MIDDLE_100, .SLOT_RED_BOTTOM_150]
  | .SLOT_RED_200 => [.SLOT_RED_TOP_150, .SLOT_RED_BOTTOM_150]
  | .SLOT_GREEN_BOTTOM_150 =>
    [.SLOT_GREEN_MIDDLE_100, .SLOT_GREEN_BOTTOM_100, .SLOT_GREEN_TOP_150]
  | .SLOT_GREEN_MIDDLE_100 =>
    [.SLOT_GREEN_TOP_100, .SLOT_GREEN_TOP_75, .SLOT_GREEN_BOTTOM_75, .SLOT_GREEN_BOTTOM_100]
  | .SLOT_GREEN_TOP_75 =>
    [.SLOT_GREEN_50, .SLOT_RED_TOP_75, .SLOT_GREEN_BOTTOM_75, .SLOT_GREEN_MIDDLE_100,
      .SLOT_GREEN_TOP_100]
  | .SLOT_RED_TOP_75 =>
    [.SLOT_RED_50, .SLOT_GREEN_TOP_75, .SLOT_RED_TOP_100, .SLOT_RED_MIDDLE_100,
      .SLOT_RED_BOTTOM_75]
  | .SLOT_RED_MIDDLE_100 =>
    [.SLOT_RED_TOP_75, .SLOT_RED_BOTTOM_75, .SLOT_RED_BOTTOM_100, .SLOT_RED_TOP_100]
  | .SLOT_RED_BOTTOM_150 => [.SLOT_RED_MIDDLE_100, .SLOT_RED_BOTTOM_100, .SLOT_RED_TOP_150]
  | .SLOT_GREEN_BOTTOM_100 =>
    [.SLOT_GREEN_MIDDLE_100, .SLOT_GREEN_BOTTOM_75, .SLOT_BLUE_TOP_100, .SLOT_GREEN_BOTTOM_150]
  | .SLOT_GREEN_BOTTOM_75 =>
    [.SLOT_GREEN_50, .SLOT_BLUE_TOP_75, .SLOT_GREEN_MIDDLE_100, .SLOT_GREEN_BOTTOM_100,
      .SLOT_GREEN_TOP_75]
  | .SLOT_RED_BOTTOM_75 =>
    [.SLOT_RED_50, .SLOT_PURPLE_TOP_75, .SLOT_RED_BOTTOM_100, .SLOT_RED_MIDDLE_100,
      .SLOT_RED_TOP_75]
  | .SLOT_RED_BOTTOM_100 =>
    [.SLOT_RED_BOTTOM_75, .SLOT_PURPLE_TOP_100, .SLOT_RED_MIDDLE_100, .SLOT_RED_BOTTOM_150]
  | .SLOT_BLUE_TOP_100 =>
    [.SLOT_BLUE_TOP_75, .SLOT_GREEN_BOTTOM_100, .SLOT_BLUE_MIDDLE_100, .SLOT_BLUE_TOP_150]
  | .SLOT_BLUE_TOP_75 =>
    [.SLOT_BLUE_50, .SLOT_GREEN_BOTTOM_75, .SLOT_BLUE_BOTTOM_75, .SLOT_BLUE_MIDDLE_100,
      .SLOT_BLUE_TOP_100]
  | .SLOT_PURPLE_TOP_75 =>
    [.SLOT_PURPLE_50, .SLOT_RED_BOTTOM_75, .SLOT_PURPLE_BOTTOM_75, .SLOT_PURPLE_MIDDLE_100,
      .SLOT_PURPLE_TOP_100]
  | .SLOT_PURPLE_TOP_100 =>
    [.SLOT_PURPLE_TOP_75, .SLOT_RED_BOTTOM_100, .SLOT_PURPLE_MIDDLE_100, .SLOT_PURPLE_TOP_150]
  | .SLOT_BLUE_TOP_150 => [.SLOT_BLUE_MIDDLE_100, .SLOT_BLUE_TOP_100, .SLOT_BLUE_BOTTOM_150]
  | .SLOT_BLUE_MIDDLE_100 =>
    [.SLOT_BLUE_TOP_75, .SLOT_BLUE_BOTTOM_75, .SLOT_BLUE_BOTTOM_100, .SLOT_BLUE_TOP_100]
  | .SLOT_BLUE_BOTTOM_75 =>
    [.SLOT_BLUE_50, .SLOT_PURPLE_BOTTOM_75, .SLOT_BLUE_TOP_75, .SLOT_BLUE_MIDDLE_100,
      .SLOT_BLUE_BOTTOM_100]
  | .SLOT_PURPLE_BOTTOM_75 =>
    [.SLOT_PURPLE_50, .SLOT_BLUE_BOTTOM_75, .SLOT_PURPLE_TOP_75, .SLOT_PURPLE_MIDDLE_100,
      .SLOT_PURPLE_BOTTOM_100]
  | .SLOT_PURPLE_MIDDLE_100 =>
    [.SLOT_PURPLE_TOP_75, .SLOT_PURPLE_BOTTOM_75, .SLOT_PURPLE_BOTTOM_100, .SLOT_PURPLE_TOP_100]
  | .SLOT_PURPLE_TOP_150 =>
    [.SLOT_PURPLE_MIDDLE_100, .SLOT_PURPLE_TOP_100, .SLOT_PURPLE_BOTTOM_150]
  | .SLOT_BLUE_200 => [.SLOT_BLUE_TOP_150, .SLOT_BLUE_BOTTOM_150]
  | .SLOT_BLUE_BOTTOM_150 => [.SLOT_BLUE_MIDDLE_100, .SLOT_BLUE_BOTTOM_100, .SLOT_BLUE_TOP_150]
  | .SLOT_BLUE_BOTTOM_100 =>
    [.SLOT_BLUE_BOTTOM_75, .SLOT_PURPLE_BOTTOM_100, .SLOT_BLUE_MIDDLE_100, .SLOT_BLUE_BOTTOM_150]
  | .SLOT_PURPLE_BOTTOM_100 =>
    [.SLOT_PURPLE_BOTTOM_75, .SLOT_BLUE_BOTTOM_100, .SLOT_PURPLE_MIDDLE_100,
      .SLOT_PURPLE_BOTTOM_150]
  | .SLOT_PURPLE_BOTTOM_150 =>
    [.SLOT_PURPLE_MIDDLE_100, .SLOT_PURPLE_BOTTOM_100, .SLOT_PURPLE_TOP_150]
  | .SLOT_PURPLE_200 => [.SLOT_PURPLE_TOP_150, .SLOT_PURPLE_BOTTOM_150]

/-- `SLOT_GREEN_50`, `SLOT_RED_50`, `SLOT_PURPLE_50` and `SLOT_BLUE_50`. -/
def isRoot : WheelSlots → Bool
  | .SLOT_GREEN_50 | .SLOT_RED_50 | .SLOT_BLUE_50 | .SLOT_PURPLE_50 => true
  | _ => false

theorem nodup_all : all.Nodup := by decide

theorem mem_all (slot : WheelSlots) : slot ∈ all := by
  cases slot <;> decide

instance : Fintype WheelSlots := ⟨⟨all, nodup_all⟩, mem_all⟩

end WheelSlots

open WheelSlots

/-! ## The wheel of a player -/

/-- What the wheel reads of a player. -/
structure Character where
  level : UInt32
  /-- `getExtraPoints` -/
  extraPoints : UInt16
  oldProtocol : Bool
  hasVocation : Bool
  isPremium : Bool
  isPromoted : Bool

/-- The wheel of a player. -/
structure State where
  character : Character
  pointsPerLevel : UInt16
  slots : WheelSlots → UInt16

def m_minLevelToStartCountPoints : UInt32 := 50

section Operations

variable (s : State)

/-- `PlayerWheel::getWheelPoints`. -/
def getWheelPoints : UInt16 :=
  let totalPoints :=
    max 0 (s.character.level - m_minLevelToStartCountPoints) * s.pointsPerLevel.toUInt32
  (totalPoints + s.character.extraPoints.toUInt32).toUInt16

/-- `PlayerWheel::getUnusedPoints`. -/
def getUnusedPoints : UInt16 :=
  let totalPoints := getWheelPoints s
  if totalPoints = 0 then 0
  else all.foldl (fun totalPoints slot => totalPoints - s.slots slot) totalPoints

/-- `PlayerWheel::canOpenWheel`. -/
def canOpenWheel : Bool :=
  s.character.hasVocation && decide (50 < s.character.level) && s.character.isPremium &&
    s.character.isPromoted

def canSelectSlotFullOrPartial (slot : WheelSlots) : Bool := s.slots slot == slot.getMaxPointsPerSlot

/-- `PlayerWheel::canPlayerSelectPointOnSlot`. -/
def canPlayerSelectPointOnSlot (slot : WheelSlots) : Bool :=
  if slot.isRoot then true
  else if getWheelPoints s < slot.requiredPoints then false
  else slot.neighbors.any (canSelectSlotFullOrPartial s)

def setPointsBySlotType (slot : WheelSlots) (points : UInt16) : State :=
  { s with slots := Function.update s.slots slot points }

/-- `PlayerWheel::checkSavePointsBySlotType`. -/
def checkSavePointsBySlotType (slot : WheelSlots) (points : UInt16) : Bool × State :=
  if points > 0 ∧ ¬ canPlayerSelectPointOnSlot s slot then (false, s)
  else
    let s := setPointsBySlotType s slot 0
    if points > getUnusedPoints s then (false, s)
    else (true, setPointsBySlotType s slot points)

/-- A loop that saves slots one after the other, with the slots that are refused. -/
def savePass (request : WheelSlots → UInt16) : List WheelSlots → State → State × List WheelSlots
  | [], s => (s, [])
  | slot :: slots, s =>
    let (saved, s) := checkSavePointsBySlotType s slot (request slot)
    let (s, refused) := savePass request slots s
    (s, if saved then refused else slot :: refused)

/-- A table of all slots that is sorted as `std::ranges::sort` may leave it. -/
structure SortedTable where
  slots : List WheelSlots
  perm : slots.Perm all
  sorted : slots.Pairwise fun a b => a.getSlotPrioritaryOrder ≤ b.getSlotPrioritaryOrder

/-- `PlayerWheel::saveSlotPointsOnPressSaveButton`, as far as the slots. -/
def saveSlotPointsOnPressSaveButton (table : SortedTable) (request : WheelSlots → UInt16) : State :=
  if s.character.oldProtocol then s
  else if !canOpenWheel s then s
  else if all.any fun slot => request slot > slot.getMaxPointsPerSlot then s
  else
    let (s, retry) := savePass request table.slots s
    if retry.isEmpty then s
    else (Nat.iterate (fun result => savePass request result.2 result.1) 6 (s, retry)).1

end Operations

/-! ## Limits -/

section Limits

/-- The sum of the points of all slots. -/
def State.spent (s : State) : ℕ := ∑ slot, (s.slots slot).toNat

/-- The points are within the budget and the limits of the slots. -/
structure Within (s : State) : Prop where
  budget : s.spent ≤ (getWheelPoints s).toNat
  slots : ∀ slot, s.slots slot ≤ slot.getMaxPointsPerSlot

variable {s : State}

@[simp]
theorem getWheelPoints_setPoints (slot : WheelSlots) (points : UInt16) :
    getWheelPoints (setPointsBySlotType s slot points) = getWheelPoints s := rfl

@[simp]
theorem slots_setPoints_self (slot : WheelSlots) (points : UInt16) :
    (setPointsBySlotType s slot points).slots slot = points := Function.update_self _ _ _

theorem slots_setPoints_of_ne {slot other : WheelSlots} (h : other ≠ slot) (points : UInt16) :
    (setPointsBySlotType s slot points).slots other = s.slots other := Function.update_of_ne h _ _

/-- The sum changes by the points of one slot. -/
theorem spent_setPoints (slot : WheelSlots) (points : UInt16) :
    (setPointsBySlotType s slot points).spent + (s.slots slot).toNat = s.spent + points.toNat := by
  have hothers : ∑ i ∈ Finset.univ.erase slot, ((setPointsBySlotType s slot points).slots i).toNat =
      ∑ i ∈ Finset.univ.erase slot, (s.slots i).toNat :=
    Finset.sum_congr rfl fun i hi => by
      rw [slots_setPoints_of_ne (Finset.ne_of_mem_erase hi)]
  rw [State.spent, State.spent, ← Finset.add_sum_erase _ _ (Finset.mem_univ slot),
    ← Finset.add_sum_erase Finset.univ (fun i => (s.slots i).toNat) (Finset.mem_univ slot), hothers,
    slots_setPoints_self]
  omega

theorem toNat_foldl_sub (l : List WheelSlots) (slots : WheelSlots → UInt16) {points : UInt16}
    (h : (l.map fun slot => (slots slot).toNat).sum ≤ points.toNat) :
    (l.foldl (fun points slot => points - slots slot) points).toNat =
      points.toNat - (l.map fun slot => (slots slot).toNat).sum := by
  induction l generalizing points with
  | nil => rfl
  | cons slot l ih =>
    rw [List.map_cons, List.sum_cons] at h
    have hsub : (points - slots slot).toNat = points.toNat - (slots slot).toNat :=
      UInt16.toNat_sub_of_le _ _ (UInt16.le_iff_toNat_le.2 (by omega))
    rw [List.foldl_cons, ih (by rw [hsub]; omega), hsub, List.map_cons, List.sum_cons]
    omega

/-- The unused points are what is left of the budget, as long as it is not exceeded. -/
theorem toNat_getUnusedPoints (h : s.spent ≤ (getWheelPoints s).toNat) :
    (getUnusedPoints s).toNat = (getWheelPoints s).toNat - s.spent := by
  rw [getUnusedPoints]
  split_ifs with hzero
  · rw [hzero]
    exact (Nat.zero_sub _).symm
  · exact toNat_foldl_sub all s.slots h

theorem slots_setPoints_le (h : ∀ slot, s.slots slot ≤ slot.getMaxPointsPerSlot) {slot : WheelSlots}
    {points : UInt16} (hpoints : points ≤ slot.getMaxPointsPerSlot) (other : WheelSlots) :
    (setPointsBySlotType s slot points).slots other ≤ other.getMaxPointsPerSlot := by
  by_cases hother : other = slot
  · subst hother
    rw [slots_setPoints_self]
    exact hpoints
  · rw [slots_setPoints_of_ne hother]
    exact h other

/-- **A slot that is saved** keeps the points within. -/
theorem within_checkSavePoints (h : Within s) {slot : WheelSlots} {points : UInt16}
    (hpoints : points ≤ slot.getMaxPointsPerSlot) : Within (checkSavePointsBySlotType s slot points).2 := by
  have hzero : Within (setPointsBySlotType s slot 0) := by
    refine ⟨?_, slots_setPoints_le h.slots (UInt16.le_iff_toNat_le.2 (Nat.zero_le _))⟩
    have hspent := spent_setPoints (s := s) slot 0
    have hbudget := h.budget
    rw [UInt16.toNat_zero] at hspent
    rw [getWheelPoints_setPoints]
    omega
  rw [checkSavePointsBySlotType]
  split_ifs with hselect
  · exact h
  · dsimp only
    split_ifs with hunused
    · exact hzero
    · refine ⟨?_, slots_setPoints_le hzero.slots hpoints⟩
      have hle := UInt16.le_iff_toNat_le.1 (UInt16.not_lt.1 hunused)
      rw [toNat_getUnusedPoints hzero.budget, getWheelPoints_setPoints] at hle
      have hbudget := hzero.budget
      have hspent := spent_setPoints (s := setPointsBySlotType s slot 0) slot points
      have hslot : ((setPointsBySlotType s slot 0).slots slot).toNat = 0 := by
        rw [slots_setPoints_self]
        rfl
      rw [getWheelPoints_setPoints] at hbudget
      show (setPointsBySlotType (setPointsBySlotType s slot 0) slot points).spent ≤
        (getWheelPoints s).toNat
      omega

/-- A loop over slots keeps what a slot that is saved keeps. -/
theorem savePass_keeps {P : State → Prop} {request : WheelSlots → UInt16}
    (hP : ∀ s slot, P s → P (checkSavePointsBySlotType s slot (request slot)).2)
    (slots : List WheelSlots) (h : P s) : P (savePass request slots s).1 := by
  induction slots generalizing s with
  | nil => exact h
  | cons slot slots ih => exact ih (hP s slot h)

/-- A request within the limits of the slots keeps what a slot that is saved keeps. -/
theorem save_keeps {P : State → Prop} {request : WheelSlots → UInt16}
    (hP : (∀ slot, request slot ≤ slot.getMaxPointsPerSlot) →
      ∀ s slot, P s → P (checkSavePointsBySlotType s slot (request slot)).2)
    (table : SortedTable) (h : P s) : P (saveSlotPointsOnPressSaveButton s table request) := by
  rw [saveSlotPointsOnPressSaveButton]
  split_ifs with hprotocol hopen hlimits
  · exact h
  · exact h
  · exact h
  · have hrequest : ∀ slot, request slot ≤ slot.getMaxPointsPerSlot := by
      intro slot
      by_contra hover
      exact hlimits (List.any_eq_true.2 ⟨slot, mem_all slot, decide_eq_true (UInt16.not_le.1 hover)⟩)
    have hfirst := savePass_keeps (hP hrequest) table.slots h
    dsimp only
    split_ifs
    · exact hfirst
    · have hiterate : ∀ (n : ℕ) (result : State × List WheelSlots), P result.1 →
          P (Nat.iterate (fun result => savePass request result.2 result.1) n result).1 := by
        intro n
        induction n with
        | zero => exact fun _ hresult => hresult
        | succ n ih => exact fun result hresult => ih _ (savePass_keeps (hP hrequest) result.2 hresult)
      exact hiterate 6 _ hfirst

/-- **A save** of points that are within leaves them within, whether or not it is accepted. -/
theorem within_save (h : Within s) (table : SortedTable) (request : WheelSlots → UInt16) :
    Within (saveSlotPointsOnPressSaveButton s table request) :=
  save_keeps (P := Within) (fun hrequest _ slot hs => within_checkSavePoints hs (hrequest slot)) table h

end Limits

/-! ## Runs -/

section Runs

/-- A change of the player, points loaded from the database, or a request to save. -/
inductive Step where
  | change (character : Character)
  /-- `loadDBPlayerSlotPointsOnLogin` -/
  | load (stored : List (WheelSlots × UInt16))
  | save (table : SortedTable) (request : WheelSlots → UInt16)

/-- The wheel after a step. -/
def step (s : State) : Step → State
  | .change character => { s with character := character }
  | .load stored => stored.foldl (fun s row => setPointsBySlotType s row.1 row.2) s
  | .save table request => saveSlotPointsOnPressSaveButton s table request

/-- A change of the player leaves him the points that he has spent, and stored points are within the
budget and the limits of the slots. -/
def Affordable (s : State) : Step → Prop
  | .save _ _ => True
  | a => Within (step s a)

/-- A request for more points than a slot can have is refused as a whole, so that all requests leave
the points within only if they were. -/
theorem within_iff_save (s : State) :
    Within s ↔ ∀ table request, Within (saveSlotPointsOnPressSaveButton s table request) := by
  refine ⟨fun h table request => within_save h table request, fun h => ?_⟩
  have hrefused := h ⟨all.mergeSort fun a b => a.getSlotPrioritaryOrder ≤ b.getSlotPrioritaryOrder,
    List.mergeSort_perm _ _, List.pairwise_mergeSort' _ _⟩ fun _ => 65535
  rw [saveSlotPointsOnPressSaveButton] at hrefused
  have hlimit : (all.any fun slot => (65535 : UInt16) > slot.getMaxPointsPerSlot) = true := by decide
  split_ifs at hrefused
  · exact hrefused
  · exact hrefused
  · exact hrefused

/-- **Points within the budget.** In all states of a run from a wheel without points, every request
leaves the points within the budget and the limits of the slots, if and only if no change of the
player and no stored points of the run have put them beyond.

**Proof sketch.** As long as the points are within, the unused ones are what is left of the budget,
and a slot gets no more of them. -/
theorem run_within_iff (character : Character) (pointsPerLevel : UInt16) (l : List Step) :
    (∀ m, m <+: l → ∀ table request,
      Within (saveSlotPointsOnPressSaveButton
        (Runs.run step ⟨character, pointsPerLevel, fun _ => 0⟩ m) table request)) ↔
      Runs.Meets step Affordable ⟨character, pointsPerLevel, fun _ => 0⟩ l := by
  have hstart : Within ⟨character, pointsPerLevel, fun _ => 0⟩ := by
    refine ⟨?_, fun slot => UInt16.le_iff_toNat_le.2 (Nat.zero_le _)⟩
    have hspent : (⟨character, pointsPerLevel, fun _ => 0⟩ : State).spent = 0 :=
      Finset.sum_eq_zero fun _ _ => rfl
    rw [hspent]
    exact Nat.zero_le _
  simp only [← within_iff_save]
  refine Runs.forall_prefix_iff step (P := Within) (fun s a h => ?_) hstart
  cases a with
  | change character => exact Iff.rfl
  | load stored => exact Iff.rfl
  | save table request => exact iff_of_true (within_save h table request) trivial

/-- A player of level 250 with a promoted vocation, and 200 points. -/
def hero : Character := ⟨250, 0, false, true, true, true⟩

/-- The slots row by row. -/
def rowTable : SortedTable where
  slots := (List.range 5).flatMap fun row => all.filter fun slot => slot.getSlotPrioritaryOrder == row
  perm := by decide +kernel
  sorted := by decide +kernel

/-- The four slots of 50 points are full. -/
def fullRoots : WheelSlots → UInt16 := fun slot => if slot.isRoot then 50 else 0

/-- A player who loses the levels keeps the points that he has spent, by the same request. -/
theorem not_run_within :
    ¬ ∀ (l : List Step) (table : SortedTable) (request : WheelSlots → UInt16),
      Within (saveSlotPointsOnPressSaveButton (Runs.run step ⟨hero, 1, fun _ => 0⟩ l) table request) := by
  intro h
  have hkept := (h [.save rowTable fullRoots, .change { hero with level := 150 }] rowTable
    fullRoots).budget
  revert hkept
  decide +kernel

end Runs

end TiabloServer.Wheel
