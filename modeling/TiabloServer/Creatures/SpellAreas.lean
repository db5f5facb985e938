import Mathlib

/-!
# The areas of spells

`AreaCombat` (`creatures/combat/combat.cpp`) makes the areas of the other directions from that of
the north or the north-west: it rotates a matrix into one twice as large, or mirrors and flips it.
Sines and cosines of right angles are exact, and sizes and coordinates are integers, of which those
of a matrix that fits in memory do not overflow. A centre may be negative: `getList` reads it modulo
the size of a coordinate.

## Main definitions

* `SpellAreas.MatrixArea.area` — the offsets of the true cells from the centre.
* `SpellAreas.Images` — the other areas are those of north and north-west, turned and mirrored.

## Main results

* `SpellAreas.copyArea_spec` — writing each cell once makes an image of the area.
* `SpellAreas.rotate_spec`, `SpellAreas.mirror_spec`, `SpellAreas.flip_spec` — which images.
* `SpellAreas.images_iff` — the areas are exact images if the matrix is square, and only if it is or
  is empty.
-/

namespace TiabloServer.SpellAreas

/-! ## Matrices -/

structure MatrixArea where
  centerX : ℤ
  centerY : ℤ
  rows : ℕ
  cols : ℕ
  data_ : ℤ → ℤ → Bool

namespace MatrixArea

/-- The constructor. -/
def new (initRows initCols : ℕ) : MatrixArea := ⟨0, 0, initRows, initCols, fun _ _ => false⟩

variable (a : MatrixArea)

def InBounds (row col : ℤ) : Prop := (0 ≤ row ∧ row < a.rows) ∧ 0 ≤ col ∧ col < a.cols

instance (row col : ℤ) : Decidable (a.InBounds row col) := inferInstanceAs (Decidable (_ ∧ _))

/-- `data_[row][col] = value`, and `setValue`. -/
def setValue (row col : ℤ) (value : Bool) : Option MatrixArea :=
  if a.InBounds row col then
    some { a with data_ := fun y x => if y = row ∧ x = col then value else a.data_ y x }
  else none

def getValue (row col : ℤ) : Option Bool := if a.InBounds row col then some (a.data_ row col) else none

def setCenter (y x : ℤ) : MatrixArea := { a with centerX := x, centerY := y }

/-- `clone`, by the copy constructor. -/
def clone : MatrixArea :=
  { a with data_ := fun y x => if a.InBounds y x then a.data_ y x else false }

/-- The offsets, in x and y, of the true cells from the centre. -/
def area : Finset (ℤ × ℤ) :=
  ((Finset.range a.rows ×ˢ Finset.range a.cols).filter fun c => a.data_ c.1 c.2 = true).image
    fun c => (c.2 - a.centerX, c.1 - a.centerY)

end MatrixArea

/-! ## The functions of the source -/

inductive MatrixOperation
  | COPY
  | MIRROR
  | FLIP
  | ROTATE90
  | ROTATE180
  | ROTATE270

inductive Direction
  | NORTH
  | EAST
  | SOUTH
  | WEST
  | SOUTHWEST
  | SOUTHEAST
  | NORTHWEST
  | NORTHEAST
  deriving DecidableEq

/-- The cosine and the sine of a rotation. -/
def MatrixOperation.cosSin : MatrixOperation → ℤ × ℤ
  | .ROTATE90 => (0, 1)
  | .ROTATE180 => (-1, 0)
  | .ROTATE270 => (0, -1)
  | _ => (1, 0)

/-- A cell that is read, in row and column, and the one that it is written to. -/
abbrev Write := (ℤ × ℤ) × (ℤ × ℤ)

/-- The assignments of a loop. -/
def copyCells (input : MatrixArea) : List Write → MatrixArea → Option MatrixArea
  | [], output => some output
  | w :: l, output => do
    let value ← input.getValue w.1.1 w.1.2
    let output ← output.setValue w.2.1 w.2.2 value
    copyCells input l output

section CopyArea

variable (input output : MatrixArea)

/-- The loops of `copyArea`. Those of a mirror and a flip count down in the input and up in the
output. -/
def writes : MatrixOperation → List Write
  | .COPY => (List.range input.rows).flatMap fun (y : ℕ) => (List.range input.cols).map fun (x : ℕ) =>
      ((y, x), (y, x))
  | .MIRROR => (List.range input.rows).flatMap fun (y : ℕ) =>
      (List.range input.cols).reverse.zipIdx.map fun ((x, rx) : ℕ × ℕ) => ((y, x), (y, rx))
  | .FLIP => (List.range input.cols).flatMap fun (x : ℕ) =>
      (List.range input.rows).reverse.zipIdx.map fun ((y, ry) : ℕ × ℕ) => ((y, x), (ry, x))
  | op => (List.range input.cols).flatMap fun (x : ℕ) => (List.range input.rows).map fun (y : ℕ) =>
      let rotateCenterX : ℤ := output.cols / 2 - 1
      let rotateCenterY : ℤ := output.rows / 2 - 1
      let a := op.cosSin.1
      let b := -op.cosSin.2
      let c := op.cosSin.2
      let d := op.cosSin.1
      let newX : ℤ := x - input.centerX
      let newY : ℤ := y - input.centerY
      ((y, x), (newX * c + newY * d + rotateCenterY, newX * a + newY * b + rotateCenterX))

/-- The new centre, in y and x. -/
def newCenter : MatrixOperation → ℤ × ℤ
  | .COPY => (input.centerY, input.centerX)
  | .MIRROR => (input.centerY, (input.rows - 1) - input.centerX)
  | .FLIP => ((input.cols - 1) - input.centerY, input.centerX)
  | _ => (output.rows / 2 - 1, output.cols / 2 - 1)

def copyArea (op : MatrixOperation) : Option MatrixArea := do
  let result ← copyCells input (writes input output op) output
  return result.setCenter (newCenter input output op).1 (newCenter input output op).2

end CopyArea

/-- The coordinates and the matrix of the loop of `createArea`. -/
structure Cursor where
  x : ℕ
  y : ℕ
  area : MatrixArea

/-- The cell of a value. -/
def Cursor.mark (s : Cursor) (value : ℕ) : Option MatrixArea :=
  if value = 1 ∨ value = 3 then s.area.setValue s.y s.x true else some s.area

/-- The loop of `createArea`. -/
def createCells (cols : ℕ) : List ℕ → Cursor → Option MatrixArea
  | [], s => some s.area
  | value :: list, s => do
    let area ← s.mark value
    let area := if value = 2 ∨ value = 3 then area.setCenter s.y s.x else area
    if cols = s.x + 1 then createCells cols list ⟨0, s.y + 1, area⟩ else createCells cols list ⟨s.x + 1, s.y, area⟩

def createArea (list : List ℕ) (rows : ℕ) : Option MatrixArea :=
  let cols := if rows = 0 then 0 else list.length / rows
  createCells cols list ⟨0, 0, .new rows cols⟩

structure AreaCombat where
  areas : Direction → Option MatrixArea
  hasExtArea : Bool

namespace AreaCombat

variable (ac : AreaCombat)

/-- The copy constructor. -/
def clone : AreaCombat := ⟨fun d => (ac.areas d).map MatrixArea.clone, ac.hasExtArea⟩

def setArea (d : Direction) (a : MatrixArea) : AreaCombat :=
  { ac with areas := Function.update ac.areas d (some a) }

def setupArea (list : List ℕ) (rows : ℕ) : Option AreaCombat := do
  let northArea ← createArea list rows
  let maxOutput := max northArea.cols northArea.rows * 2
  let southArea ← copyArea northArea (.new maxOutput maxOutput) .ROTATE180
  let eastArea ← copyArea northArea (.new maxOutput maxOutput) .ROTATE90
  let westArea ← copyArea northArea (.new maxOutput maxOutput) .ROTATE270
  return (((ac.setArea .NORTH northArea).setArea .SOUTH southArea).setArea .EAST eastArea).setArea .WEST westArea

def setupExtArea (list : List ℕ) (rows : ℕ) : Option AreaCombat := do
  if list.isEmpty then return ac
  let ac := { ac with hasExtArea := true }
  let nwArea ← createArea list rows
  let maxOutput := max nwArea.cols nwArea.rows * 2
  let neArea ← copyArea nwArea (.new maxOutput maxOutput) .MIRROR
  let swArea ← copyArea nwArea (.new maxOutput maxOutput) .FLIP
  let seArea ← copyArea swArea (.new maxOutput maxOutput) .MIRROR
  return (((ac.setArea .NORTHWEST nwArea).setArea .SOUTHWEST swArea).setArea .NORTHEAST neArea).setArea
    .SOUTHEAST seArea

/-- The area of a direction. -/
def area (d : Direction) : Finset (ℤ × ℤ) := (ac.areas d).elim ∅ MatrixArea.area

end AreaCombat

/-! ## What the areas should be -/

/-- A turn by 90 degrees; y grows downwards. -/
def turn (offset : ℤ × ℤ) : ℤ × ℤ := (-offset.2, offset.1)

def mirror (offset : ℤ × ℤ) : ℤ × ℤ := (-offset.1, offset.2)

def flip (offset : ℤ × ℤ) : ℤ × ℤ := (offset.1, -offset.2)

/-- All accesses are in bounds, the other areas are images of those of north and north-west, and
clones have equal areas. -/
def Images (ac : AreaCombat) (list : List ℕ) (rows : ℕ) : Prop :=
  (∃ ac', ac.setupArea list rows = some ac' ∧ ac'.area .EAST = (ac'.area .NORTH).image turn ∧
    ac'.area .SOUTH = (ac'.area .NORTH).image (turn ∘ turn) ∧
    ac'.area .WEST = (ac'.area .NORTH).image (turn ∘ turn ∘ turn) ∧ ∀ d, ac'.clone.area d = ac'.area d) ∧
  ∃ ac', ac.setupExtArea list rows = some ac' ∧ ac'.area .NORTHEAST = (ac'.area .NORTHWEST).image mirror ∧
    ac'.area .SOUTHWEST = (ac'.area .NORTHWEST).image flip ∧
    ac'.area .SOUTHEAST = (ac'.area .NORTHWEST).image (mirror ∘ flip) ∧ ∀ d, ac'.clone.area d = ac'.area d

/-! ## Areas -/

theorem mem_area {a : MatrixArea} {p : ℤ × ℤ} : p ∈ a.area ↔
    ∃ y x, a.InBounds y x ∧ a.data_ y x = true ∧ p = (x - a.centerX, y - a.centerY) := by
  simp only [MatrixArea.area, Finset.mem_image, Finset.mem_filter, Finset.mem_product, Finset.mem_range,
    MatrixArea.InBounds, Prod.exists]
  constructor
  · rintro ⟨y, x, ⟨⟨hy, hx⟩, hdata⟩, rfl⟩
    exact ⟨y, x, ⟨⟨by omega, by omega⟩, by omega, by omega⟩, hdata, rfl⟩
  · rintro ⟨y, x, ⟨⟨hy, hy'⟩, hx, hx'⟩, hdata, rfl⟩
    obtain ⟨y, rfl⟩ := Int.eq_ofNat_of_zero_le hy
    obtain ⟨x, rfl⟩ := Int.eq_ofNat_of_zero_le hx
    exact ⟨y, x, ⟨⟨by omega, by omega⟩, hdata⟩, rfl⟩

theorem data_clone {a : MatrixArea} {y x : ℤ} (h : a.InBounds y x) : a.clone.data_ y x = a.data_ y x := if_pos h

theorem area_clone (a : MatrixArea) : a.clone.area = a.area := by
  ext p
  rw [mem_area, mem_area]
  constructor
  · rintro ⟨y, x, hin, hdata, rfl⟩
    exact ⟨y, x, hin, (data_clone (a := a) hin).symm.trans hdata, rfl⟩
  · rintro ⟨y, x, hin, hdata, rfl⟩
    exact ⟨y, x, hin, (data_clone hin).trans hdata, rfl⟩

theorem AreaCombat.area_clone (ac : AreaCombat) (d : Direction) : ac.clone.area d = ac.area d := by
  simp only [AreaCombat.area, AreaCombat.clone]
  cases ac.areas d with
  | none => rfl
  | some a => exact SpellAreas.area_clone a

/-! ## Copying -/

/-- Cells that are written are those of the input, when no two different ones are written to the
same place. -/
theorem copyCells_spec {input : MatrixArea} {l : List Write} (output : MatrixArea)
    (hin : ∀ w ∈ l, input.InBounds w.1.1 w.1.2) (hout : ∀ w ∈ l, output.InBounds w.2.1 w.2.2)
    (hinj : ∀ w ∈ l, ∀ w' ∈ l, w.2 = w'.2 → w.1 = w'.1) :
    ∃ data, copyCells input l output = some { output with data_ := data } ∧
      ∀ y x, data y x = true ↔ (∃ w ∈ l, w.2 = (y, x) ∧ input.data_ w.1.1 w.1.2 = true) ∨
        (∀ w ∈ l, w.2 ≠ (y, x)) ∧ output.data_ y x = true := by
  induction l generalizing output with
  | nil => exact ⟨output.data_, rfl, fun y x => by simp⟩
  | cons w l ih =>
    have hget : input.getValue w.1.1 w.1.2 = some (input.data_ w.1.1 w.1.2) := if_pos (hin w List.mem_cons_self)
    obtain ⟨data, hcopy, hdata⟩ := ih
      ({ output with
        data_ := fun y x => if y = w.2.1 ∧ x = w.2.2 then input.data_ w.1.1 w.1.2 else output.data_ y x })
      (fun w' hw' => hin w' (List.mem_cons_of_mem _ hw')) (fun w' hw' => hout w' (List.mem_cons_of_mem _ hw'))
      (fun w₁ h₁ w₂ h₂ => hinj w₁ (List.mem_cons_of_mem _ h₁) w₂ (List.mem_cons_of_mem _ h₂))
    refine ⟨data, ?_, fun y x => ?_⟩
    · rw [copyCells, hget, Option.bind_eq_bind, Option.bind_some, MatrixArea.setValue,
        if_pos (hout w List.mem_cons_self), Option.bind_eq_bind, Option.bind_some, hcopy]
    · rw [hdata]
      by_cases hw : w.2 = (y, x)
      · have hpair : y = w.2.1 ∧ x = w.2.2 := by rw [hw]; exact ⟨rfl, rfl⟩
        simp only [List.mem_cons, exists_eq_or_imp, forall_eq_or_imp, hw, ne_eq, not_true_eq_false, true_and,
          false_and, or_false]
        by_cases hlater : ∃ w' ∈ l, w'.2 = (y, x)
        · obtain ⟨w', hw', heq⟩ := hlater
          have hsame : w'.1 = w.1 := hinj w' (List.mem_cons_of_mem _ hw') w List.mem_cons_self (heq.trans hw.symm)
          constructor
          · rintro (h | h)
            · exact .inr h
            · exact absurd heq (h.1 w' hw')
          · rintro (h | h)
            · exact .inl ⟨w', hw', heq, by rwa [hsame]⟩
            · exact .inl h
        · have hnone : ∀ w' ∈ l, w'.2 ≠ (y, x) := fun w' hw' heq => hlater ⟨w', hw', heq⟩
          constructor
          · rintro (h | h)
            · exact .inr h
            · exact .inl h.2
          · rintro (h | h)
            · exact .inr ⟨hnone, h⟩
            · exact .inl h
      · have hpair : ¬ (y = w.2.1 ∧ x = w.2.2) := fun h => hw (by rw [h.1, h.2])
        simp only [List.mem_cons, exists_eq_or_imp, forall_eq_or_imp, hw, ne_eq, not_false_eq_true, true_and,
          false_and, false_or, if_neg hpair]

/-- **A copy** of all cells into a new matrix, that moves offsets by an injective function, makes
the image of the area under it. -/
theorem copyArea_spec (input : MatrixArea) (n : ℕ) (op : MatrixOperation) {g : ℤ × ℤ → ℤ × ℤ}
    (hg : Function.Injective g) (hall : ∀ y x, input.InBounds y x → ∃ t, ((y, x), t) ∈ writes input (.new n n) op)
    (hwrites : ∀ w ∈ writes input (.new n n) op, input.InBounds w.1.1 w.1.2 ∧ (0 ≤ w.2.1 ∧ w.2.1 < n) ∧
      (0 ≤ w.2.2 ∧ w.2.2 < n) ∧ g (w.1.2 - input.centerX, w.1.1 - input.centerY) =
        (w.2.2 - (newCenter input (.new n n) op).2, w.2.1 - (newCenter input (.new n n) op).1)) :
    ∃ result, copyArea input (.new n n) op = some result ∧ result.rows = n ∧ result.cols = n ∧
      result.area = input.area.image g := by
  have hinj : ∀ w ∈ writes input (.new n n) op, ∀ w' ∈ writes input (.new n n) op, w.2 = w'.2 → w.1 = w'.1 := by
    intro w hw w' hw' heq
    obtain ⟨-, -, -, h1⟩ := hwrites w hw
    obtain ⟨-, -, -, h2⟩ := hwrites w' hw'
    rw [heq, ← h2] at h1
    have hoffset := hg h1
    rw [Prod.mk.injEq] at hoffset
    exact Prod.ext (by omega) (by omega)
  obtain ⟨data, hcopy, hdata⟩ := copyCells_spec (.new n n) (fun w hw => (hwrites w hw).1)
    (fun w hw => ⟨(hwrites w hw).2.1, (hwrites w hw).2.2.1⟩) hinj
  refine ⟨_, by rw [copyArea, hcopy]; rfl, rfl, rfl, ?_⟩
  ext p
  rw [mem_area, Finset.mem_image]
  constructor
  · rintro ⟨y, x, hin, htrue, rfl⟩
    rcases (hdata y x).1 htrue with ⟨w, hw, hplace, hvalue⟩ | ⟨-, hvalue⟩
    · obtain ⟨hwin, -, -, hoffset⟩ := hwrites w hw
      refine ⟨_, mem_area.2 ⟨_, _, hwin, hvalue, rfl⟩, ?_⟩
      rw [hoffset, hplace]
      rfl
    · cases hvalue
  · rintro ⟨q, hq, rfl⟩
    obtain ⟨y, x, hin, htrue, rfl⟩ := mem_area.1 hq
    obtain ⟨t, ht⟩ := hall y x hin
    obtain ⟨-, hy, hx, hoffset⟩ := hwrites _ ht
    exact ⟨t.1, t.2, ⟨hy, hx⟩, (hdata t.1 t.2).2 (.inl ⟨_, ht, rfl, htrue⟩), hoffset⟩

/-! ## Rotations -/

theorem mem_flatMap_map {α β : Type*} {l : List α} {l' : List β} {f : α → β → Write} {w : Write} :
    (w ∈ l.flatMap fun a => l'.map (f a)) ↔ ∃ a ∈ l, ∃ b ∈ l', f a b = w := by
  simp only [List.mem_flatMap, List.mem_map]

theorem mem_reverse_range {n x rx : ℕ} : (x, rx) ∈ (List.range n).reverse.zipIdx ↔ rx < n ∧ x = n - 1 - rx := by
  rw [List.mem_zipIdx_iff_getElem?, List.getElem?_eq_some_iff]
  simp only [List.length_reverse, List.length_range, List.getElem_reverse, List.getElem_range]
  constructor
  · rintro ⟨h, rfl⟩
    exact ⟨h, rfl⟩
  · rintro ⟨h, rfl⟩
    exact ⟨h, rfl⟩

/-- The centre is a cell. -/
def Centered (a : MatrixArea) : Prop := a.InBounds a.centerY a.centerX

/-- A rotation of offsets. -/
def rotated (op : MatrixOperation) (p : ℤ × ℤ) : ℤ × ℤ :=
  (p.1 * op.cosSin.1 - p.2 * op.cosSin.2, p.1 * op.cosSin.2 + p.2 * op.cosSin.1)

/-- **A rotation** into a matrix of twice the size. -/
theorem rotate_spec {input : MatrixArea} (hcentered : Centered input) {op : MatrixOperation}
    (hop : op = .ROTATE90 ∨ op = .ROTATE180 ∨ op = .ROTATE270) :
    ∃ result, copyArea input (.new (max input.cols input.rows * 2) (max input.cols input.rows * 2)) op = some result ∧
      result.area = input.area.image (rotated op) := by
  obtain ⟨⟨hcy, hcy'⟩, hcx, hcx'⟩ := hcentered
  have hg : Function.Injective (rotated op) := by
    rintro ⟨x, y⟩ ⟨x', y'⟩ h
    rcases hop with rfl | rfl | rfl <;>
    · simp only [rotated, MatrixOperation.cosSin, Prod.mk.injEq] at h ⊢
      omega
  obtain ⟨result, hrun, -, -, harea⟩ :=
    copyArea_spec input (max input.cols input.rows * 2) op hg
      (by
        rintro y x ⟨⟨hy, hy'⟩, hx, hx'⟩
        obtain ⟨y, rfl⟩ := Int.eq_ofNat_of_zero_le hy
        obtain ⟨x, rfl⟩ := Int.eq_ofNat_of_zero_le hx
        have hyr : y ∈ List.range input.rows := List.mem_range.2 (by omega)
        have hxr : x ∈ List.range input.cols := List.mem_range.2 (by omega)
        rcases hop with rfl | rfl | rfl <;>
        · simp only [writes]
          exact ⟨_, mem_flatMap_map.2 ⟨x, hxr, y, hyr, rfl⟩⟩)
      (by
        intro w hw
        rcases hop with rfl | rfl | rfl <;>
        · simp only [writes] at hw
          obtain ⟨x, hx, y, hy, rfl⟩ := mem_flatMap_map.1 hw
          rw [List.mem_range] at hx hy
          simp only [MatrixArea.InBounds, MatrixOperation.cosSin, MatrixArea.new, newCenter, rotated, Prod.mk.injEq]
          omega)
  exact ⟨result, hrun, harea⟩

/-! ## Mirrors and flips -/

/-- A mirror, which moves the area by what the matrix has more columns than rows. -/
def mirrored (a : MatrixArea) (p : ℤ × ℤ) : ℤ × ℤ := (-p.1 + (a.cols - a.rows), p.2)

/-- A flip, which moves the area by what the matrix has more rows than columns. -/
def flipped (a : MatrixArea) (p : ℤ × ℤ) : ℤ × ℤ := (p.1, -p.2 + (a.rows - a.cols))

theorem mirror_spec (input : MatrixArea) (n : ℕ) (hrows : input.rows ≤ n) (hcols : input.cols ≤ n) :
    ∃ result, copyArea input (.new n n) .MIRROR = some result ∧ result.rows = n ∧ result.cols = n ∧
      result.area = input.area.image (mirrored input) := by
  refine copyArea_spec input n .MIRROR ?_ ?_ ?_
  · rintro ⟨x, y⟩ ⟨x', y'⟩ h
    simp only [mirrored, Prod.mk.injEq] at h ⊢
    omega
  · rintro y x ⟨⟨hy, hy'⟩, hx, hx'⟩
    obtain ⟨y, rfl⟩ := Int.eq_ofNat_of_zero_le hy
    obtain ⟨x, rfl⟩ := Int.eq_ofNat_of_zero_le hx
    have hyr : y ∈ List.range input.rows := List.mem_range.2 (by omega)
    have hxr : (x, input.cols - 1 - x) ∈ (List.range input.cols).reverse.zipIdx :=
      mem_reverse_range.2 ⟨by omega, by omega⟩
    simp only [writes]
    exact ⟨_, mem_flatMap_map.2 ⟨y, hyr, (x, input.cols - 1 - x), hxr, rfl⟩⟩
  · intro w hw
    simp only [writes] at hw
    obtain ⟨y, hy, ⟨x, rx⟩, hx, rfl⟩ := mem_flatMap_map.1 hw
    obtain ⟨hrx, rfl⟩ := mem_reverse_range.1 hx
    rw [List.mem_range] at hy
    simp only [MatrixArea.InBounds, newCenter, mirrored, Prod.mk.injEq, and_true]
    omega

theorem flip_spec (input : MatrixArea) (n : ℕ) (hrows : input.rows ≤ n) (hcols : input.cols ≤ n) :
    ∃ result, copyArea input (.new n n) .FLIP = some result ∧ result.rows = n ∧ result.cols = n ∧
      result.area = input.area.image (flipped input) := by
  refine copyArea_spec input n .FLIP ?_ ?_ ?_
  · rintro ⟨x, y⟩ ⟨x', y'⟩ h
    simp only [flipped, Prod.mk.injEq] at h ⊢
    omega
  · rintro y x ⟨⟨hy, hy'⟩, hx, hx'⟩
    obtain ⟨y, rfl⟩ := Int.eq_ofNat_of_zero_le hy
    obtain ⟨x, rfl⟩ := Int.eq_ofNat_of_zero_le hx
    have hxr : x ∈ List.range input.cols := List.mem_range.2 (by omega)
    have hyr : (y, input.rows - 1 - y) ∈ (List.range input.rows).reverse.zipIdx :=
      mem_reverse_range.2 ⟨by omega, by omega⟩
    simp only [writes]
    exact ⟨_, mem_flatMap_map.2 ⟨x, hxr, (y, input.rows - 1 - y), hyr, rfl⟩⟩
  · intro w hw
    simp only [writes] at hw
    obtain ⟨x, hx, ⟨y, ry⟩, hy, rfl⟩ := mem_flatMap_map.1 hw
    obtain ⟨hry, rfl⟩ := mem_reverse_range.1 hy
    rw [List.mem_range] at hx
    simp only [MatrixArea.InBounds, newCenter, flipped, Prod.mk.injEq, true_and]
    omega

/-- A finite set that is moved is another one, unless it is empty. -/
theorem shift_ne {S : Finset (ℤ × ℤ)} {k : ℤ} (h : S.image (fun p => (p.1, p.2 + k)) = S) : S = ∅ ∨ k = 0 := by
  have hsum : ∑ p ∈ S, (p.2 + k) = ∑ p ∈ S, p.2 := by
    conv_rhs => rw [← h]
    rw [Finset.sum_image]
    rintro ⟨x, y⟩ - ⟨x', y'⟩ - heq
    simp only [Prod.mk.injEq] at heq ⊢
    omega
  rw [Finset.sum_add_distrib, Finset.sum_const, nsmul_eq_mul] at hsum
  have hzero : (S.card : ℤ) * k = 0 := by omega
  rcases mul_eq_zero.1 hzero with hcard | hk
  · exact .inl (Finset.card_eq_zero.1 (by exact_mod_cast hcard))
  · exact .inr hk

/-! ## The first area -/

theorem area_eq_empty_iff {a : MatrixArea} : a.area = ∅ ↔ ∀ y x, a.InBounds y x → a.data_ y x = false := by
  rw [Finset.eq_empty_iff_forall_notMem]
  constructor
  · intro h y x hin
    by_contra htrue
    exact h _ (mem_area.2 ⟨y, x, hin, Bool.eq_true_of_not_eq_false htrue, rfl⟩)
  · rintro h p hp
    obtain ⟨y, x, hin, htrue, -⟩ := mem_area.1 hp
    rw [h y x hin] at htrue
    cases htrue

/-- A value is that of a true cell. -/
def Marked (value : ℕ) : Prop := value = 1 ∨ value = 3

/-- **The cells of a list** are set in bounds, from a cursor on.

**Proof sketch.** Induction on the list. The cursor counts the cells before it, so that it is in a
row of the matrix while there are values left. -/
theorem createCells_spec {rows cols : ℕ} {list : List ℕ} {s : Cursor} (hx : s.x < cols)
    (hlength : s.y * cols + s.x + list.length = rows * cols) (hrows : s.area.rows = rows) (hcols : s.area.cols = cols)
    (hcentered : Centered s.area) :
    ∃ a, createCells cols list s = some a ∧ a.rows = rows ∧ a.cols = cols ∧ Centered a ∧
      (a.area = ∅ ↔ s.area.area = ∅ ∧ ∀ value ∈ list, ¬ Marked value) := by
  induction list generalizing s with
  | nil => exact ⟨s.area, rfl, hrows, hcols, hcentered, by simp⟩
  | cons value list ih =>
    rw [List.length_cons] at hlength
    have hy : s.y < rows := by
      by_contra hge
      have := Nat.mul_le_mul_right cols (not_lt.1 hge)
      omega
    have hin : s.area.InBounds s.y s.x := ⟨⟨by omega, by omega⟩, by omega, by omega⟩
    -- The cell at the cursor.
    obtain ⟨b, hset, hbrows, hbcols, hbcentered, hbarea⟩ :
        ∃ b, s.mark value = some b ∧
          b.rows = rows ∧ b.cols = cols ∧ Centered b ∧ (b.area = ∅ ↔ s.area.area = ∅ ∧ ¬ Marked value) := by
      by_cases hvalue : value = 1 ∨ value = 3
      · refine ⟨{ s.area with data_ := fun y x => if y = s.y ∧ x = s.x then true else s.area.data_ y x },
          by rw [Cursor.mark, if_pos hvalue, MatrixArea.setValue, if_pos hin], hrows, hcols, hcentered, ?_⟩
        refine iff_of_false (fun hempty => ?_) fun h => h.2 hvalue
        have hcell := area_eq_empty_iff.1 hempty s.y s.x hin
        simp at hcell
      · exact ⟨s.area, if_neg hvalue, hrows, hcols, hcentered, (and_iff_left hvalue).symm⟩
    -- The centre.
    obtain ⟨c, hc, hcrows, hccols, hccentered, hcarea⟩ :
        ∃ c, (if value = 2 ∨ value = 3 then b.setCenter s.y s.x else b) = c ∧ c.rows = rows ∧ c.cols = cols ∧
          Centered c ∧ (c.area = ∅ ↔ b.area = ∅) := by
      refine ⟨_, rfl, ?_⟩
      split_ifs
      · refine ⟨hbrows, hbcols, ⟨⟨by simp [MatrixArea.setCenter], ?_⟩, by simp [MatrixArea.setCenter], ?_⟩, ?_⟩
        · simp only [MatrixArea.setCenter]
          omega
        · simp only [MatrixArea.setCenter]
          omega
        · rw [area_eq_empty_iff, area_eq_empty_iff]
          rfl
      · exact ⟨hbrows, hbcols, hbcentered, Iff.rfl⟩
    have hempty : c.area = ∅ ∧ (∀ v ∈ list, ¬ Marked v) ↔ s.area.area = ∅ ∧ ∀ v ∈ value :: list, ¬ Marked v := by
      rw [hcarea, hbarea, List.forall_mem_cons, and_assoc]
    rw [createCells, hset, Option.bind_eq_bind, Option.bind_some]
    simp only [hc]
    split_ifs with hend
    · obtain ⟨a, ha, h1, h2, h3, h4⟩ := @ih ⟨0, s.y + 1, c⟩ (by dsimp only; omega)
        (by dsimp only; rw [Nat.add_mul]; omega) hcrows hccols hccentered
      exact ⟨a, ha, h1, h2, h3, h4.trans hempty⟩
    · obtain ⟨a, ha, h1, h2, h3, h4⟩ := @ih ⟨s.x + 1, s.y, c⟩ (by dsimp only; omega) (by dsimp only; omega)
        hcrows hccols hccentered
      exact ⟨a, ha, h1, h2, h3, h4.trans hempty⟩

theorem createArea_spec {list : List ℕ} {rows cols : ℕ} (hrows : 1 ≤ rows) (hcols : 1 ≤ cols)
    (hlength : list.length = rows * cols) :
    ∃ a, createArea list rows = some a ∧ a.rows = rows ∧ a.cols = cols ∧ Centered a ∧
      (a.area = ∅ ↔ ∀ value ∈ list, ¬ Marked value) := by
  have hdiv : (if rows = 0 then 0 else list.length / rows) = cols := by
    rw [if_neg (by omega), hlength, Nat.mul_div_cancel_left _ (by omega)]
  have hnew : (MatrixArea.new rows cols).area = ∅ := area_eq_empty_iff.2 fun _ _ _ => rfl
  rw [createArea, hdiv]
  obtain ⟨a, ha, h1, h2, h3, h4⟩ := @createCells_spec rows cols list ⟨0, 0, .new rows cols⟩ (by dsimp only; omega)
    (by dsimp only; omega) rfl rfl ⟨⟨le_rfl, by simp [MatrixArea.new]; omega⟩, le_rfl, by simp [MatrixArea.new]; omega⟩
  exact ⟨a, ha, h1, h2, h3, h4.trans (and_iff_right hnew)⟩

/-! ## The other areas -/

@[simp] theorem AreaCombat.area_setArea_self (ac : AreaCombat) (d : Direction) (a : MatrixArea) :
    (ac.setArea d a).area d = a.area := by
  simp [AreaCombat.area, AreaCombat.setArea]

theorem AreaCombat.area_setArea_of_ne (ac : AreaCombat) {d e : Direction} (h : d ≠ e) (a : MatrixArea) :
    (ac.setArea e a).area d = ac.area d := by
  simp [AreaCombat.area, AreaCombat.setArea, Function.update_of_ne h]

theorem rotated_ROTATE90 : rotated .ROTATE90 = turn := by
  funext p
  simp [rotated, MatrixOperation.cosSin, turn]

theorem rotated_ROTATE180 : rotated .ROTATE180 = turn ∘ turn := by
  funext p
  simp [rotated, MatrixOperation.cosSin, turn]

theorem rotated_ROTATE270 : rotated .ROTATE270 = turn ∘ turn ∘ turn := by
  funext p
  simp [rotated, MatrixOperation.cosSin, turn]

theorem mirrored_of_square {a : MatrixArea} (h : a.rows = a.cols) : mirrored a = mirror := by
  funext p
  simp [mirrored, mirror, h]

theorem flipped_of_square {a : MatrixArea} (h : a.rows = a.cols) : flipped a = flip := by
  funext p
  simp [flipped, flip, h]

section Directions

variable (ac : AreaCombat) {list : List ℕ} {rows cols : ℕ}

/-- **The areas of the other directions** are turns of that of the north. -/
theorem setupArea_spec (hrows : 1 ≤ rows) (hcols : 1 ≤ cols) (hlength : list.length = rows * cols) :
    ∃ ac', ac.setupArea list rows = some ac' ∧ ac'.area .EAST = (ac'.area .NORTH).image turn ∧
      ac'.area .SOUTH = (ac'.area .NORTH).image (turn ∘ turn) ∧
      ac'.area .WEST = (ac'.area .NORTH).image (turn ∘ turn ∘ turn) := by
  obtain ⟨a, hcreate, -, -, hcentered, -⟩ := createArea_spec hrows hcols hlength
  obtain ⟨s, hs, hsouth⟩ := rotate_spec hcentered (.inr (.inl rfl))
  obtain ⟨e, he, heast⟩ := rotate_spec hcentered (.inl rfl)
  obtain ⟨w, hw, hwest⟩ := rotate_spec hcentered (.inr (.inr rfl))
  have hrun : ac.setupArea list rows =
      some ((((ac.setArea .NORTH a).setArea .SOUTH s).setArea .EAST e).setArea .WEST w) := by
    simp only [AreaCombat.setupArea, hcreate, Option.bind_eq_bind, Option.bind_some, hs, he, hw]
    rfl
  refine ⟨_, hrun, ?_, ?_, ?_⟩
  · simp (disch := decide) only [AreaCombat.area_setArea_of_ne, AreaCombat.area_setArea_self]
    rw [heast, rotated_ROTATE90]
  · simp (disch := decide) only [AreaCombat.area_setArea_of_ne, AreaCombat.area_setArea_self]
    rw [hsouth, rotated_ROTATE180]
  · simp (disch := decide) only [AreaCombat.area_setArea_of_ne, AreaCombat.area_setArea_self]
    rw [hwest, rotated_ROTATE270]

/-- The diagonal areas are images of that of the north-west, which a matrix that is not square
moves. -/
theorem setupExtArea_spec (hrows : 1 ≤ rows) (hcols : 1 ≤ cols) (hlength : list.length = rows * cols) :
    ∃ (a : MatrixArea) (ac' : AreaCombat), a.rows = rows ∧ a.cols = cols ∧ (a.area = ∅ ↔ ∀ value ∈ list, ¬ Marked value) ∧
      ac.setupExtArea list rows = some ac' ∧ ac'.area .NORTHWEST = a.area ∧
      ac'.area .NORTHEAST = a.area.image (mirrored a) ∧ ac'.area .SOUTHWEST = a.area.image (flipped a) ∧
      ac'.area .SOUTHEAST = (a.area.image (flipped a)).image mirror := by
  obtain ⟨a, hcreate, harows, hacols, -, hempty⟩ := createArea_spec hrows hcols hlength
  obtain ⟨ne, hne, -, -, hnortheast⟩ := mirror_spec a (max a.cols a.rows * 2) (by omega) (by omega)
  obtain ⟨sw, hsw, hswrows, hswcols, hsouthwest⟩ :=
    flip_spec a (max a.cols a.rows * 2) (by omega) (by omega)
  obtain ⟨se, hse, -, -, hsoutheast⟩ := mirror_spec sw (max a.cols a.rows * 2) hswrows.le hswcols.le
  have hlist : list.isEmpty = false := by
    have : 0 < list.length := by
      rw [hlength]
      exact Nat.mul_pos hrows hcols
    cases list with
    | nil => cases this
    | cons value list => rfl
  have hrun : ac.setupExtArea list rows = some (((({ ac with hasExtArea := true } : AreaCombat).setArea .NORTHWEST
      a).setArea .SOUTHWEST sw).setArea .NORTHEAST ne |>.setArea .SOUTHEAST se) := by
    simp only [AreaCombat.setupExtArea, hlist, hcreate, Option.bind_eq_bind, Option.bind_some, hne, hsw, hse]
    rfl
  refine ⟨a, _, harows, hacols, hempty, hrun, ?_, ?_, ?_, ?_⟩
  · simp (disch := decide) only [AreaCombat.area_setArea_of_ne, AreaCombat.area_setArea_self]
  · simp (disch := decide) only [AreaCombat.area_setArea_of_ne, AreaCombat.area_setArea_self]
    exact hnortheast
  · simp (disch := decide) only [AreaCombat.area_setArea_of_ne, AreaCombat.area_setArea_self]
    exact hsouthwest
  · rw [AreaCombat.area_setArea_self, hsoutheast, mirrored_of_square (hswrows.trans hswcols.symm), hsouthwest]

/-- A flip of a matrix that is not square moves the area away from its image. -/
theorem flipped_eq_iff {a : MatrixArea} : a.area.image (flipped a) = a.area.image flip ↔
    a.rows = a.cols ∨ a.area = ∅ := by
  constructor
  · intro h
    have hmoved : a.area.image (fun p => (p.1, p.2 + ((a.cols : ℤ) - a.rows))) = a.area := by
      have hflip := congrArg (Finset.image flip) h
      rw [Finset.image_image, Finset.image_image] at hflip
      have hid : flip ∘ flip = id := by
        funext p
        simp [flip]
      have hshift : flip ∘ flipped a = fun p => (p.1, p.2 + ((a.cols : ℤ) - a.rows)) := by
        funext p
        simp only [Function.comp_apply, flip, flipped, Prod.mk.injEq, true_and]
        omega
      rwa [hid, hshift, Finset.image_id] at hflip
    rcases shift_ne hmoved with hempty | hk
    · exact .inr hempty
    · exact .inl (by omega)
  · rintro (hsquare | hempty)
    · rw [flipped_of_square hsquare]
    · rw [hempty, Finset.image_empty, Finset.image_empty]

/-- **The areas are exact images** when the matrix is square or has no true cell, and in no other
case, for then the flip and the mirror of the north-west area have wrong centres. -/
theorem images_iff (hrows : 1 ≤ rows) (hlength : list.length = rows * cols)
    (hcentre : list.countP (fun value => value = 2 ∨ value = 3) = 1) :
    Images ac list rows ↔ rows = cols ∨ ∀ value ∈ list, value ≠ 1 ∧ value ≠ 3 := by
  have hcols : 1 ≤ cols := by
    by_contra hzero
    obtain rfl : cols = 0 := by omega
    rw [List.length_eq_zero_iff.1 hlength] at hcentre
    cases hcentre
  have hmarked : (∀ value ∈ list, ¬ Marked value) ↔ ∀ value ∈ list, value ≠ 1 ∧ value ≠ 3 :=
    forall₂_congr fun value _ => not_or
  obtain ⟨north, hnorth, heast, hsouth, hwest⟩ := setupArea_spec ac hrows hcols hlength
  obtain ⟨a, ac', rfl, rfl, hempty, hrun, hnw, hne, hsw, hse⟩ := setupExtArea_spec ac hrows hcols hlength
  rw [← hmarked, ← hempty]
  constructor
  · rintro ⟨-, _, hrun', -, hsw', -⟩
    obtain rfl := Option.some.inj (hrun.symm.trans hrun')
    rw [hnw, hsw] at hsw'
    exact flipped_eq_iff.1 hsw'
  · intro h
    refine ⟨⟨north, hnorth, heast, hsouth, hwest, AreaCombat.area_clone north⟩,
      ac', hrun, ?_, ?_, ?_, AreaCombat.area_clone ac'⟩
    · rw [hnw, hne]
      rcases h with hsquare | hnone
      · rw [mirrored_of_square hsquare]
      · rw [hnone, Finset.image_empty, Finset.image_empty]
    · rw [hnw, hsw]
      exact flipped_eq_iff.2 h
    · rw [hnw, hse, flipped_eq_iff.2 h, Finset.image_image]

end Directions

/-- No areas. -/
def noAreas : AreaCombat := ⟨fun _ => none, false⟩

/-- A cross is square, and a beam is not. -/
theorem images_iff_cross :
    Images noAreas [0, 1, 0, 1, 3, 1, 0, 1, 0] 3 ∧ ¬ Images noAreas [1, 1, 3, 1] 4 := by
  have hcross : [0, 1, 0, 1, 3, 1, 0, 1, 0].length = 3 * 3 := rfl
  have hbeam : [1, 1, 3, 1].length = 4 * 1 := rfl
  refine ⟨(images_iff noAreas (by decide) hcross (by decide)).2 (.inl rfl), fun h => ?_⟩
  exact absurd ((images_iff noAreas (by decide) hbeam (by decide)).1 h) (by decide)

/-- The flip of a column of two cells is beside its centre. -/
theorem not_images_column : ¬ Images noAreas [1, 2] 2 := by
  rintro ⟨-, ac', hrun, -, hsw, -⟩
  obtain ⟨a, _, harows, hacols, hempty, hrun', hnw, -, hflip, -⟩ :=
    @setupExtArea_spec noAreas [1, 2] 2 1 (by decide) (by decide) (by decide)
  obtain rfl := Option.some.inj (hrun.symm.trans hrun')
  rw [hnw, hflip] at hsw
  rcases flipped_eq_iff.1 hsw with hsquare | hnone
  · rw [harows, hacols] at hsquare
    cases hsquare
  · exact hempty.1 hnone 1 (by decide) (.inl rfl)

end TiabloServer.SpellAreas
