import TiabloServer.Lib.ArrayLoops
import TiabloServer.Map.Position

/-!
# The walk cache of a creature

A creature keeps, for the tiles around it, whether it could walk there (`localMapCache` in
`creatures/creature.hpp`). After a step `Creature::onCreatureMove` shifts the rows and columns of
the cache in place and asks only for the tiles that have come into view; `Creature::updateMapCache`
asks for all of them.

## Main definitions

* `WalkCache.UpToDate` — a rebuild would not change the cache.
* `WalkCache.Unharmed` — the steps that lose nothing.

## Main results

* `WalkCache.updateMapCache_apply` — the cells that a rebuild writes, and what it writes.
* `WalkCache.onCreatureMove_apply` — the cells after a step to a neighbouring position.
* `WalkCache.upToDate_onCreatureMove_iff` — the steps after which the cache is still up to date.
-/

namespace TiabloServer.WalkCache

open ArrayLoops

/-! ## The cache -/

def mapWalkWidth : ℤ := MAP_MAX_VIEW_PORT_X * 2 + 1
def mapWalkHeight : ℤ := MAP_MAX_VIEW_PORT_Y * 2 + 1
def maxWalkCacheWidth : ℤ := (mapWalkWidth - 1) / 2
def maxWalkCacheHeight : ℤ := (mapWalkHeight - 1) / 2

/-- `localMapCache`, by row and column. -/
abbrev Cache : Type := ℤ → ℤ → Bool

/-- The map, and whether `queryAdd` lets the creature onto a tile. -/
structure World (τ : Type) where
  getTile : UInt16 → UInt16 → UInt8 → Option τ
  queryAdd : τ → Bool

/-- `Position::getOffsetX`. -/
def getOffsetX (p1 p2 : Position) : ℤ := p1.x.toNat - p2.x.toNat

/-- `Position::getOffsetY`. -/
def getOffsetY (p1 p2 : Position) : ℤ := p1.y.toNat - p2.y.toNat

/-- `Position::getDistanceY`. -/
def getDistanceY (p1 p2 : Position) : ℤ := |getOffsetY p1 p2|

/-- The conversion to `uint16_t`. -/
def toUInt16 (z : ℤ) : UInt16 := UInt16.ofNat (z % 65536).toNat

section Operations

variable {τ : Type} (world : World τ)

/-- Writes a cell. -/
def setCell (c : Cache) (y x : ℤ) (value : Bool) : Cache :=
  Function.update c y (Function.update (c y) x value)

/-- `Creature::updateTileCache`, by offsets. -/
def updateTileCache (newTile : Option τ) (dx dy : ℤ) (c : Cache) : Cache :=
  if |dx| ≤ maxWalkCacheWidth ∧ |dy| ≤ maxWalkCacheHeight then
    setCell c (maxWalkCacheHeight + dy) (maxWalkCacheWidth + dx) (newTile.any world.queryAdd)
  else c

/-- `Creature::updateTileCache`, by the position of the tile. -/
def updateTileCacheAt (upTile : Option τ) (pos myPos : Position) (c : Cache) : Cache :=
  if pos.z = myPos.z then
    updateTileCache world upTile (getOffsetX pos myPos) (getOffsetY pos myPos) c
  else c

/-- `Creature::updateMapCache`. -/
def updateMapCache (myPos : Position) (c : Cache) : Cache :=
  (upTo (-maxWalkCacheHeight) maxWalkCacheHeight).foldl (fun c y =>
    (upTo (-maxWalkCacheWidth) maxWalkCacheWidth).foldl (fun c x =>
      let pos : Position := ⟨toUInt16 (myPos.x.toNat + x), toUInt16 (myPos.y.toNat + y), myPos.z⟩
      updateTileCacheAt world (world.getTile pos.x pos.y pos.z) pos myPos c) c) c

/-- The tile at an offset from a position. -/
def tileAt (myPos : Position) (dx dy : ℤ) : Option τ :=
  world.getTile (toUInt16 (myPos.x.toNat + dx)) (toUInt16 (myPos.y.toNat + dy)) myPos.z

/-- The rows of a step to the north or the south. -/
def shiftRows (oldPos myPos : Position) (c : Cache) : Cache :=
  if oldPos.y > myPos.y then
    -- shift y south
    let c := (upTo 0 (mapWalkHeight - 2)).reverse.foldl (fun c y => Function.update c (y + 1) (c y)) c
    -- update 0
    (upTo (-maxWalkCacheWidth) maxWalkCacheWidth).foldl (fun c x =>
      updateTileCache world (tileAt world myPos x (-maxWalkCacheHeight)) x (-maxWalkCacheHeight) c) c
  else if oldPos.y < myPos.y then
    -- shift y north
    let c := (upTo 0 (mapWalkHeight - 2)).foldl (fun c y => Function.update c y (c (y + 1))) c
    -- update mapWalkHeight - 1
    (upTo (-maxWalkCacheWidth) maxWalkCacheWidth).foldl (fun c x =>
      updateTileCache world (tileAt world myPos x maxWalkCacheHeight) x maxWalkCacheHeight c) c
  else c

/-- The rows whose columns are shifted, from the first to the last. -/
def shiftedRows (oldPos newPos : Position) : List ℤ :=
  let dy := getDistanceY oldPos newPos
  let starty := if dy < 0 then 0 else if dy > 0 then dy else 0
  let endy := if dy < 0 then mapWalkHeight - 1 + dy else mapWalkHeight - 1
  upTo starty endy

/-- The columns of a step to the east or the west. -/
def shiftColumns (oldPos newPos : Position) (c : Cache) : Cache :=
  if oldPos.x < newPos.x then
    let c := (shiftedRows oldPos newPos).foldl (fun c y =>
      (upTo 0 (mapWalkWidth - 2)).foldl (fun c x => setCell c y x (c y (x + 1))) c) c
    -- update mapWalkWidth - 1
    (upTo (-maxWalkCacheHeight) maxWalkCacheHeight).foldl (fun c y =>
      updateTileCache world (tileAt world newPos maxWalkCacheWidth y) maxWalkCacheWidth y c) c
  else if oldPos.x > newPos.x then
    let c := (shiftedRows oldPos newPos).foldl (fun c y =>
      (upTo 0 (mapWalkWidth - 2)).reverse.foldl (fun c x => setCell c y (x + 1) (c y x)) c) c
    -- update 0
    (upTo (-maxWalkCacheHeight) maxWalkCacheHeight).foldl (fun c y =>
      updateTileCache world (tileAt world newPos (-maxWalkCacheWidth) y) (-maxWalkCacheWidth) y c) c
  else c

/-- What `Creature::onCreatureMove` does with the cache of the creature that moves; its position is
the new one already. -/
def onCreatureMove (newPos : Position) (oldTile : Option τ) (oldPos : Position) (teleport : Bool)
    (c : Cache) : Cache :=
  if teleport ∨ oldPos.z ≠ newPos.z then updateMapCache world newPos c
  else
    updateTileCacheAt world oldTile oldPos newPos
      (shiftColumns world oldPos newPos (shiftRows world oldPos newPos c))

end Operations

/-! ## What the updates write -/

section Written

variable {τ : Type} {world : World τ}

theorem mapWalkWidth_eq : mapWalkWidth = 23 := rfl
theorem mapWalkHeight_eq : mapWalkHeight = 23 := rfl
theorem maxWalkCacheWidth_eq : maxWalkCacheWidth = 11 := rfl
theorem maxWalkCacheHeight_eq : maxWalkCacheHeight = 11 := rfl

/-- A cell of the array. -/
def InView (y x : ℤ) : Prop := (0 ≤ y ∧ y < mapWalkHeight) ∧ 0 ≤ x ∧ x < mapWalkWidth

/-- The cell is that of a position that there is. -/
def OnMap (pos : Position) (y x : ℤ) : Prop :=
  (0 ≤ pos.y.toNat + y - maxWalkCacheHeight ∧ pos.y.toNat + y - maxWalkCacheHeight < 65536) ∧
    0 ≤ pos.x.toNat + x - maxWalkCacheWidth ∧ pos.x.toNat + x - maxWalkCacheWidth < 65536

/-- What belongs into a cell. -/
def cellValue (world : World τ) (pos : Position) (y x : ℤ) : Bool :=
  (tileAt world pos (x - maxWalkCacheWidth) (y - maxWalkCacheHeight)).any world.queryAdd

theorem setCell_apply (c : Cache) (y x : ℤ) (value : Bool) (y' x' : ℤ) :
    setCell c y x value y' x' = if y' = y ∧ x' = x then value else c y' x' := by
  rw [setCell]
  by_cases hy : y' = y
  · subst hy
    rw [Function.update_self]
    by_cases hx : x' = x
    · rw [hx, Function.update_self, if_pos ⟨rfl, rfl⟩]
    · rw [Function.update_of_ne hx, if_neg fun h => hx h.2]
  · rw [Function.update_of_ne hy, if_neg fun h => hy h.1]

theorem writes_updateTileCache (world : World τ) (pos : Position) {dx dy : ℤ}
    (hdx : |dx| ≤ maxWalkCacheWidth) (hdy : |dy| ≤ maxWalkCacheHeight) :
    Writes (fun y x => y = maxWalkCacheHeight + dy ∧ x = maxWalkCacheWidth + dx) (cellValue world pos)
      (updateTileCache world (tileAt world pos dx dy) dx dy) := by
  intro c y x
  rw [updateTileCache, if_pos ⟨hdx, hdy⟩, setCell_apply]
  refine ⟨fun hcell => ?_, fun hcell => if_neg hcell⟩
  rw [if_pos hcell, cellValue, hcell.1, hcell.2, add_sub_cancel_left, add_sub_cancel_left]

theorem toNat_toUInt16 (z : ℤ) : ((toUInt16 z).toNat : ℤ) = z % 65536 := by
  rw [toUInt16, UInt16.toNat_ofNat']
  omega

/-- The position at an offset, where there is one, is at that offset, and another is far away. -/
theorem writes_updateTileCacheAt (world : World τ) (pos : Position) {dx dy : ℤ}
    (hdx : |dx| ≤ maxWalkCacheWidth) (hdy : |dy| ≤ maxWalkCacheHeight) :
    Writes (fun y x => (y = maxWalkCacheHeight + dy ∧ x = maxWalkCacheWidth + dx) ∧ OnMap pos y x)
      (cellValue world pos)
      (updateTileCacheAt world (tileAt world pos dx dy)
        ⟨toUInt16 (pos.x.toNat + dx), toUInt16 (pos.y.toNat + dy), pos.z⟩ pos) := by
  intro c y x
  have hx := pos.x.toNat_lt
  have hy := pos.y.toNat_lt
  rw [maxWalkCacheWidth_eq, abs_le] at hdx
  rw [maxWalkCacheHeight_eq, abs_le] at hdy
  rw [updateTileCacheAt, if_pos rfl]
  have hoffx : getOffsetX ⟨toUInt16 (pos.x.toNat + dx), toUInt16 (pos.y.toNat + dy), pos.z⟩ pos =
      (pos.x.toNat + dx) % 65536 - pos.x.toNat := by
    rw [getOffsetX, toNat_toUInt16]
  have hoffy : getOffsetY ⟨toUInt16 (pos.x.toNat + dx), toUInt16 (pos.y.toNat + dy), pos.z⟩ pos =
      (pos.y.toNat + dy) % 65536 - pos.y.toNat := by
    rw [getOffsetY, toNat_toUInt16]
  rw [hoffx, hoffy]
  by_cases hmap : (0 ≤ pos.y.toNat + dy ∧ pos.y.toNat + dy < 65536) ∧
      0 ≤ pos.x.toNat + dx ∧ pos.x.toNat + dx < 65536
  · have hsamex : (pos.x.toNat + dx) % 65536 - pos.x.toNat = dx := by omega
    have hsamey : (pos.y.toNat + dy) % 65536 - pos.y.toNat = dy := by omega
    rw [hsamex, hsamey]
    have hwrites := @writes_updateTileCache τ world pos dx dy
      (by rw [maxWalkCacheWidth_eq, abs_le]; exact hdx)
      (by rw [maxWalkCacheHeight_eq, abs_le]; exact hdy) c y x
    refine ⟨fun hcell => hwrites.1 hcell.1, fun hcell => hwrites.2 fun hsame => hcell ⟨hsame, ?_⟩⟩
    rw [OnMap, maxWalkCacheHeight_eq, maxWalkCacheWidth_eq, hsame.1, hsame.2, maxWalkCacheHeight_eq,
      maxWalkCacheWidth_eq]
    omega
  · have hfar : ¬ (|(pos.x.toNat + dx) % 65536 - pos.x.toNat| ≤ maxWalkCacheWidth ∧
        |(pos.y.toNat + dy) % 65536 - pos.y.toNat| ≤ maxWalkCacheHeight) := by
      rw [maxWalkCacheWidth_eq, maxWalkCacheHeight_eq, abs_le, abs_le]
      omega
    rw [updateTileCache, if_neg hfar]
    refine ⟨?_, fun _ => rfl⟩
    rintro ⟨⟨rfl, rfl⟩, hcell⟩
    rw [OnMap, maxWalkCacheHeight_eq, maxWalkCacheWidth_eq] at hcell
    omega

/-- **The rebuild** writes the cells of all positions that there are. -/
theorem writes_updateMapCache (world : World τ) (pos : Position) :
    Writes (fun y x => InView y x ∧ OnMap pos y x) (cellValue world pos) (updateMapCache world pos) := by
  have hrow : ∀ dy ∈ upTo (-maxWalkCacheHeight) maxWalkCacheHeight,
      Writes (fun y x => ∃ dx ∈ upTo (-maxWalkCacheWidth) maxWalkCacheWidth,
        (y = maxWalkCacheHeight + dy ∧ x = maxWalkCacheWidth + dx) ∧ OnMap pos y x) (cellValue world pos)
        fun c => (upTo (-maxWalkCacheWidth) maxWalkCacheWidth).foldl (fun c dx =>
          updateTileCacheAt world (tileAt world pos dx dy)
            ⟨toUInt16 (pos.x.toNat + dx), toUInt16 (pos.y.toNat + dy), pos.z⟩ pos c) c := by
    intro dy hdy
    refine Writes.foldl fun dx hdx => writes_updateTileCacheAt world pos ?_ ?_
    · exact abs_le.2 (mem_upTo.1 hdx)
    · exact abs_le.2 (mem_upTo.1 hdy)
  refine (Writes.foldl hrow).congr fun y x => ?_
  constructor
  · rintro ⟨dy, hdy, dx, hdx, ⟨rfl, rfl⟩, hmap⟩
    refine ⟨?_, hmap⟩
    rw [mem_upTo, maxWalkCacheHeight_eq] at hdy
    rw [mem_upTo, maxWalkCacheWidth_eq] at hdx
    rw [InView, mapWalkHeight_eq, mapWalkWidth_eq, maxWalkCacheHeight_eq, maxWalkCacheWidth_eq]
    omega
  · rintro ⟨hview, hmap⟩
    rw [InView, mapWalkHeight_eq, mapWalkWidth_eq] at hview
    refine ⟨y - maxWalkCacheHeight, ?_, x - maxWalkCacheWidth, ?_, ⟨by omega, by omega⟩, hmap⟩
    · rw [mem_upTo, maxWalkCacheHeight_eq]
      omega
    · rw [mem_upTo, maxWalkCacheWidth_eq]
      omega

end Written

/-! ## A step -/

section Steps

variable {τ : Type} {world : World τ} {oldPos newPos : Position}

/-- A step to a neighbouring position of the floor. -/
structure Neighbours (oldPos newPos : Position) : Prop where
  x : |getOffsetX newPos oldPos| ≤ 1
  y : |getOffsetY newPos oldPos| ≤ 1
  z : oldPos.z = newPos.z

/-- The edge row that has come into view. -/
theorem writes_row (world : World τ) (pos : Position) {dy : ℤ} (hdy : |dy| ≤ maxWalkCacheHeight) :
    Writes (fun y x => y = maxWalkCacheHeight + dy ∧ 0 ≤ x ∧ x < mapWalkWidth) (cellValue world pos)
      fun c => (upTo (-maxWalkCacheWidth) maxWalkCacheWidth).foldl (fun c dx =>
        updateTileCache world (tileAt world pos dx dy) dx dy c) c := by
  have hcells : ∀ dx ∈ upTo (-maxWalkCacheWidth) maxWalkCacheWidth,
      Writes (fun y x => y = maxWalkCacheHeight + dy ∧ x = maxWalkCacheWidth + dx) (cellValue world pos)
        (updateTileCache world (tileAt world pos dx dy) dx dy) :=
    fun dx hdx => writes_updateTileCache world pos (abs_le.2 (mem_upTo.1 hdx)) hdy
  refine (Writes.foldl hcells).congr fun y x => ?_
  rw [mapWalkWidth_eq, maxWalkCacheWidth_eq]
  constructor
  · rintro ⟨dx, hdx, hy, hx⟩
    rw [mem_upTo] at hdx
    exact ⟨hy, by omega⟩
  · rintro ⟨hy, hx⟩
    exact ⟨x - 11, mem_upTo.2 (by omega), hy, by omega⟩

/-- The edge column that has come into view. -/
theorem writes_column (world : World τ) (pos : Position) {dx : ℤ} (hdx : |dx| ≤ maxWalkCacheWidth) :
    Writes (fun y x => x = maxWalkCacheWidth + dx ∧ 0 ≤ y ∧ y < mapWalkHeight) (cellValue world pos)
      fun c => (upTo (-maxWalkCacheHeight) maxWalkCacheHeight).foldl (fun c dy =>
        updateTileCache world (tileAt world pos dx dy) dx dy c) c := by
  have hcells : ∀ dy ∈ upTo (-maxWalkCacheHeight) maxWalkCacheHeight,
      Writes (fun y x => y = maxWalkCacheHeight + dy ∧ x = maxWalkCacheWidth + dx) (cellValue world pos)
        (updateTileCache world (tileAt world pos dx dy) dx dy) :=
    fun dy hdy => writes_updateTileCache world pos hdx (abs_le.2 (mem_upTo.1 hdy))
  refine (Writes.foldl hcells).congr fun y x => ?_
  rw [mapWalkHeight_eq, maxWalkCacheHeight_eq]
  constructor
  · rintro ⟨dy, hdy, hy, hx⟩
    rw [mem_upTo] at hdy
    exact ⟨hx, by omega⟩
  · rintro ⟨hx, hy⟩
    exact ⟨y - 11, mem_upTo.2 (by omega), by omega, hx⟩

/-- **The rows are shifted** against the step, and the row at the edge is new. -/
theorem shiftRows_apply (h : Neighbours oldPos newPos) (c : Cache) {y x : ℤ} (hview : InView y x) :
    shiftRows world oldPos newPos c y x =
      if 0 ≤ y + getOffsetY newPos oldPos ∧ y + getOffsetY newPos oldPos < mapWalkHeight then
        c (y + getOffsetY newPos oldPos) x
      else cellValue world newPos y x := by
  have hstep := abs_le.1 h.y
  obtain ⟨hy, hx⟩ := hview
  have hoffset : getOffsetY newPos oldPos = newPos.y.toNat - oldPos.y.toNat := rfl
  rw [shiftRows]
  rw [mapWalkHeight_eq] at hy ⊢
  by_cases hnorth : oldPos.y > newPos.y
  · have hlt := UInt16.lt_iff_toNat_lt.1 hnorth
    have hone : getOffsetY newPos oldPos = -1 := by omega
    have hrow := @writes_row τ world newPos (-maxWalkCacheHeight) (by decide)
      ((upTo 0 (23 - 2)).reverse.foldl (fun c y => Function.update c (y + 1) (c y)) c) y x
    dsimp only at hrow
    rw [if_pos hnorth, hone]
    by_cases hzero : y = 0
    · rw [if_neg (by omega)]
      exact hrow.1 ⟨by rw [hzero]; rfl, hx⟩
    · rw [if_pos (by omega)]
      refine (hrow.2 fun hcell => hzero (hcell.1.trans (by rfl))).trans ?_
      rw [foldl_reverse_upTo (by omega), if_pos (by omega)]
      rfl
  · rw [if_neg hnorth]
    by_cases hsouth : oldPos.y < newPos.y
    · have hlt := UInt16.lt_iff_toNat_lt.1 hsouth
      have hone : getOffsetY newPos oldPos = 1 := by omega
      have hrow := @writes_row τ world newPos maxWalkCacheHeight (by decide)
        ((upTo 0 (23 - 2)).foldl (fun c y => Function.update c y (c (y + 1))) c) y x
      dsimp only at hrow
      rw [if_pos hsouth, hone]
      by_cases hlast : y = 22
      · rw [if_neg (by omega)]
        exact hrow.1 ⟨by rw [hlast]; rfl, hx⟩
      · rw [if_pos (by omega)]
        refine (hrow.2 fun hcell => hlast (hcell.1.trans (by rfl))).trans ?_
        rw [foldl_upTo (g := fun i f => f (i + 1)) (fun i f f' hf => hf _ (by omega)), if_pos (by omega)]
    · rw [if_neg hsouth]
      have hzero : getOffsetY newPos oldPos = 0 := by
        have hle := UInt16.lt_iff_toNat_lt.not.1 hnorth
        have hge := UInt16.lt_iff_toNat_lt.not.1 hsouth
        omega
      rw [hzero, add_zero, if_pos hy]

/-- A loop over the cells of a row changes the row. -/
theorem foldl_setCell (l : List ℤ) (y : ℤ) (p q : ℤ → ℤ) (c : Cache) :
    l.foldl (fun c x => setCell c y (p x) (c y (q x))) c =
      Function.update c y (l.foldl (fun f x => Function.update f (p x) (f (q x))) (c y)) := by
  induction l generalizing c with
  | nil => exact (Function.update_eq_self y c).symm
  | cons x l ih =>
    rw [List.foldl_cons, ih, List.foldl_cons, setCell, Function.update_self, Function.update_idem]

/-- The first rows are left out, as many as the step goes to the north or the south: the distance is
never negative. -/
theorem shiftedRows_eq (oldPos newPos : Position) :
    shiftedRows oldPos newPos = upTo |getOffsetY newPos oldPos| (mapWalkHeight - 1) := by
  have hdistance : getDistanceY oldPos newPos = |getOffsetY newPos oldPos| := abs_sub_comm _ _
  have hnonneg := abs_nonneg (getOffsetY newPos oldPos)
  rw [shiftedRows, hdistance]
  simp only [if_neg (not_lt.2 hnonneg)]
  split_ifs with hpos
  · rfl
  · rw [le_antisymm (not_lt.1 hpos) hnonneg]

/-- Rows that are shifted one after the other. -/
theorem foldl_shiftedRows (p q : ℤ → ℤ) (l : List ℤ) (c : Cache) (y x : ℤ) :
    (shiftedRows oldPos newPos).foldl (fun c y =>
      l.foldl (fun c x => setCell c y (p x) (c y (q x))) c) c y x =
      if |getOffsetY newPos oldPos| ≤ y ∧ y ≤ mapWalkHeight - 1 then
        l.foldl (fun f x => Function.update f (p x) (f (q x))) (c y) x
      else c y x := by
  rw [shiftedRows_eq]
  simp only [foldl_setCell]
  have hloop := foldl_upTo (β := ℤ → Bool)
    (g := fun i f => l.foldl (fun (f : ℤ → Bool) x => Function.update f (p x) (f (q x))) (f i))
    (fun i f f' hf => by rw [hf i le_rfl]) |getOffsetY newPos oldPos| (mapWalkHeight - 1) c y
  rw [hloop]
  split_ifs <;> rfl

/-- **The columns are shifted** against the step, but for the rows that are left out, and the column
at the edge is new. -/
theorem shiftColumns_apply (h : Neighbours oldPos newPos) (c : Cache) {y x : ℤ} (hview : InView y x) :
    shiftColumns world oldPos newPos c y x =
      if 0 ≤ x + getOffsetX newPos oldPos ∧ x + getOffsetX newPos oldPos < mapWalkWidth then
        if |getOffsetY newPos oldPos| ≤ y then c y (x + getOffsetX newPos oldPos) else c y x
      else cellValue world newPos y x := by
  have hstep := abs_le.1 h.x
  obtain ⟨hy, hx⟩ := hview
  have hoffset : getOffsetX newPos oldPos = newPos.x.toNat - oldPos.x.toNat := rfl
  have hrows : |getOffsetY newPos oldPos| ≤ y ∧ y ≤ mapWalkHeight - 1 ↔ |getOffsetY newPos oldPos| ≤ y :=
    and_iff_left (by omega)
  rw [shiftColumns]
  rw [mapWalkWidth_eq] at hx ⊢
  by_cases heast : oldPos.x < newPos.x
  · have hlt := UInt16.lt_iff_toNat_lt.1 heast
    have hone : getOffsetX newPos oldPos = 1 := by omega
    have hcolumn := @writes_column τ world newPos maxWalkCacheWidth (by decide)
      ((shiftedRows oldPos newPos).foldl (fun c y =>
        (upTo 0 (23 - 2)).foldl (fun c x => setCell c y x (c y (x + 1))) c) c) y x
    dsimp only at hcolumn
    rw [if_pos heast, hone]
    by_cases hlast : x = 22
    · rw [if_neg (by omega)]
      exact hcolumn.1 ⟨by rw [hlast]; rfl, hy⟩
    · rw [if_pos (by omega)]
      refine (hcolumn.2 fun hcell => hlast (hcell.1.trans (by rfl))).trans ?_
      have hrow : (upTo 0 (23 - 2)).foldl (fun f x => Function.update f x (f (x + 1))) (c y) x =
          c y (x + 1) := by
        rw [foldl_upTo (g := fun i f => f (i + 1)) (fun i f f' hf => hf _ (by omega)), if_pos (by omega)]
      rw [foldl_shiftedRows (fun x => x) (fun x => x + 1), if_congr hrows hrow rfl]
  · rw [if_neg heast]
    by_cases hwest : oldPos.x > newPos.x
    · have hlt := UInt16.lt_iff_toNat_lt.1 hwest
      have hone : getOffsetX newPos oldPos = -1 := by omega
      have hcolumn := @writes_column τ world newPos (-maxWalkCacheWidth) (by decide)
        ((shiftedRows oldPos newPos).foldl (fun c y =>
          (upTo 0 (23 - 2)).reverse.foldl (fun c x => setCell c y (x + 1) (c y x)) c) c) y x
      dsimp only at hcolumn
      rw [if_pos hwest, hone]
      by_cases hzero : x = 0
      · rw [if_neg (by omega)]
        exact hcolumn.1 ⟨by rw [hzero]; rfl, hy⟩
      · rw [if_pos (by omega)]
        refine (hcolumn.2 fun hcell => hzero (hcell.1.trans (by rfl))).trans ?_
        have hrow : (upTo 0 (23 - 2)).reverse.foldl (fun f x => Function.update f (x + 1) (f x)) (c y) x =
            c y (x + -1) := by
          rw [foldl_reverse_upTo (by omega), if_pos (by omega)]
          rfl
        rw [foldl_shiftedRows (fun x => x + 1) (fun x => x), if_congr hrows hrow rfl]
    · rw [if_neg hwest]
      have hzero : getOffsetX newPos oldPos = 0 := by
        have hle := UInt16.lt_iff_toNat_lt.not.1 heast
        have hge := UInt16.lt_iff_toNat_lt.not.1 hwest
        omega
      rw [hzero, add_zero, if_pos hx, ite_self]

/-- What belongs into a cell belongs into the cell of the same position before the step. -/
theorem cellValue_eq (world : World τ) (h : Neighbours oldPos newPos) (y x : ℤ) : cellValue world newPos y x =
      cellValue world oldPos (y + getOffsetY newPos oldPos) (x + getOffsetX newPos oldPos) := by
  have hx : (newPos.x.toNat : ℤ) + (x - maxWalkCacheWidth) =
      oldPos.x.toNat + (x + getOffsetX newPos oldPos - maxWalkCacheWidth) := by
    rw [getOffsetX]
    ring
  have hy : (newPos.y.toNat : ℤ) + (y - maxWalkCacheHeight) =
      oldPos.y.toNat + (y + getOffsetY newPos oldPos - maxWalkCacheHeight) := by
    rw [getOffsetY]
    ring
  rw [cellValue, cellValue, tileAt, tileAt, hx, hy, h.z]

theorem onMap_iff (oldPos newPos : Position) (y x : ℤ) : OnMap newPos y x ↔
    OnMap oldPos (y + getOffsetY newPos oldPos) (x + getOffsetX newPos oldPos) := by
  rw [OnMap, OnMap, getOffsetX, getOffsetY]
  omega

theorem toUInt16_toNat (n : UInt16) : toUInt16 n.toNat = n := by
  refine UInt16.toNat_inj.1 ?_
  have hlt := n.toNat_lt
  have hmod := toNat_toUInt16 n.toNat
  omega

/-- The cell of the tile that the creature has left. -/
theorem writes_oldTile (world : World τ) (h : Neighbours oldPos newPos) :
    Writes (fun y x => y = maxWalkCacheHeight - getOffsetY newPos oldPos ∧
        x = maxWalkCacheWidth - getOffsetX newPos oldPos) (cellValue world newPos)
      (updateTileCacheAt world (world.getTile oldPos.x oldPos.y oldPos.z) oldPos newPos) := by
  have hx := abs_le.1 h.x
  have hy := abs_le.1 h.y
  have hoffx : getOffsetX oldPos newPos = -getOffsetX newPos oldPos := (neg_sub _ _).symm
  have hoffy : getOffsetY oldPos newPos = -getOffsetY newPos oldPos := (neg_sub _ _).symm
  have htile : tileAt world newPos (-getOffsetX newPos oldPos) (-getOffsetY newPos oldPos) =
      world.getTile oldPos.x oldPos.y oldPos.z := by
    rw [tileAt, getOffsetX, getOffsetY, neg_sub, neg_sub, add_sub_cancel, add_sub_cancel, toUInt16_toNat,
      toUInt16_toNat, h.z]
  have hwrites := @writes_updateTileCache τ world newPos (-getOffsetX newPos oldPos)
    (-getOffsetY newPos oldPos) (by rw [maxWalkCacheWidth_eq, abs_le]; omega)
    (by rw [maxWalkCacheHeight_eq, abs_le]; omega)
  rw [htile] at hwrites
  have heq : updateTileCacheAt world (world.getTile oldPos.x oldPos.y oldPos.z) oldPos newPos =
      updateTileCache world (world.getTile oldPos.x oldPos.y oldPos.z) (-getOffsetX newPos oldPos)
        (-getOffsetY newPos oldPos) := by
    funext c
    rw [updateTileCacheAt, if_pos h.z, hoffx, hoffy]
  rw [heq]
  exact hwrites.congr fun y x => by rw [sub_eq_add_neg, sub_eq_add_neg]

/-- The cells after a step. The rows that are left out in the second pass are the first ones,
wherever the step goes. -/
theorem onCreatureMove_apply (h : Neighbours oldPos newPos) (c : Cache) {y x : ℤ} (hview : InView y x)
    (hold : ¬ (y = maxWalkCacheHeight - getOffsetY newPos oldPos ∧
      x = maxWalkCacheWidth - getOffsetX newPos oldPos)) :
    onCreatureMove world newPos (world.getTile oldPos.x oldPos.y oldPos.z) oldPos false c y x =
      if 0 ≤ x + getOffsetX newPos oldPos ∧ x + getOffsetX newPos oldPos < mapWalkWidth then
        if |getOffsetY newPos oldPos| ≤ y then
          shiftRows world oldPos newPos c y (x + getOffsetX newPos oldPos)
        else shiftRows world oldPos newPos c y x
      else cellValue world newPos y x := by
  rw [onCreatureMove, if_neg (by simp [h.z]), (writes_oldTile world h _ y x).2 hold,
    shiftColumns_apply h _ hview]

/-- **The cache is up to date** for a position: a rebuild would not change it. -/
def UpToDate (world : World τ) (pos : Position) (c : Cache) : Prop := updateMapCache world pos c = c

theorem upToDate_iff {pos : Position} {c : Cache} : UpToDate world pos c ↔
    ∀ y x, InView y x → OnMap pos y x → c y x = cellValue world pos y x := by
  constructor
  · intro h y x hview hmap
    rw [← (writes_updateMapCache world pos c y x).1 ⟨hview, hmap⟩, h]
  · intro h
    funext y x
    by_cases hcell : InView y x ∧ OnMap pos y x
    · rw [(writes_updateMapCache world pos c y x).1 hcell, h y x hcell.1 hcell.2]
    · exact (writes_updateMapCache world pos c y x).2 hcell

/-- The steps that lose nothing: all but those to the south-east and the south-west, and of these
the ones where the first row, which is not shifted to the side, and the last one, which is shifted
though it is new, come out the same. -/
def Unharmed (world : World τ) (oldPos newPos : Position) (c : Cache) : Prop :=
  getOffsetY newPos oldPos = 1 → getOffsetX newPos oldPos ≠ 0 →
    ∀ x, 0 ≤ x → x < mapWalkWidth →
      0 ≤ x + getOffsetX newPos oldPos → x + getOffsetX newPos oldPos < mapWalkWidth →
        (OnMap newPos 0 x → c 1 x = cellValue world newPos 0 x) ∧
          (OnMap newPos (mapWalkHeight - 1) x →
            cellValue world newPos (mapWalkHeight - 1) (x + getOffsetX newPos oldPos) =
              cellValue world newPos (mapWalkHeight - 1) x)

/-- **A step to a neighbouring position** leaves a cache that was up to date so exactly if it loses
nothing. -/
theorem upToDate_onCreatureMove_iff (h : Neighbours oldPos newPos) {c : Cache}
    (hc : UpToDate world oldPos c) :
    UpToDate world newPos
        (onCreatureMove world newPos (world.getTile oldPos.x oldPos.y oldPos.z) oldPos false c) ↔
      Unharmed world oldPos newPos c := by
  have hstepx := abs_le.1 h.x
  have hstepy := abs_le.1 h.y
  rw [upToDate_iff] at hc ⊢
  constructor
  · intro hnew hsouth hside x hx hx' hshift hshift'
    have hfirst : InView 0 x := ⟨⟨le_rfl, by rw [mapWalkHeight_eq]; omega⟩, hx, hx'⟩
    have hlast : InView (mapWalkHeight - 1) x := by
      refine ⟨?_, hx, hx'⟩
      rw [mapWalkHeight_eq]
      omega
    refine ⟨fun hmap => ?_, fun hmap => ?_⟩
    · rw [← hnew 0 x hfirst hmap, onCreatureMove_apply h c hfirst (by rw [maxWalkCacheHeight_eq]; omega),
        if_pos ⟨hshift, hshift'⟩, hsouth, if_neg (by decide), shiftRows_apply h c hfirst, hsouth,
        if_pos (by decide), zero_add]
    · rw [← hnew _ x hlast hmap,
        onCreatureMove_apply h c hlast (by rw [maxWalkCacheHeight_eq, mapWalkHeight_eq]; omega),
        if_pos ⟨hshift, hshift'⟩, hsouth, if_pos (by decide),
        shiftRows_apply h c ⟨hlast.1, hshift, hshift'⟩, hsouth, if_neg (by decide)]
  · intro hfair y x hview hmap
    by_cases hold : y = maxWalkCacheHeight - getOffsetY newPos oldPos ∧
        x = maxWalkCacheWidth - getOffsetX newPos oldPos
    · rw [onCreatureMove, if_neg (by simp [h.z])]
      exact (writes_oldTile world h _ y x).1 hold
    · have hbefore := (onMap_iff oldPos newPos y x).1 hmap
      have hkept : InView (y + getOffsetY newPos oldPos) (x + getOffsetX newPos oldPos) →
          c (y + getOffsetY newPos oldPos) (x + getOffsetX newPos oldPos) = cellValue world newPos y x := by
        intro hcell
        rw [hc _ _ hcell hbefore, cellValue_eq world h]
      obtain ⟨⟨hy, hy'⟩, hx, hx'⟩ := hview
      rw [onCreatureMove_apply h c ⟨⟨hy, hy'⟩, hx, hx'⟩ hold]
      split_ifs with hcolumn hrow
      · rw [shiftRows_apply h c ⟨⟨hy, hy'⟩, hcolumn⟩]
        split_ifs with hin
        · exact hkept ⟨hin, hcolumn⟩
        · -- the last row, which is new
          have habs := abs_le.1 hrow
          rw [mapWalkHeight_eq] at hin hy'
          have hlast : y = mapWalkHeight - 1 := by
            rw [mapWalkHeight_eq]
            omega
          by_cases hside : getOffsetX newPos oldPos = 0
          · rw [hside, add_zero]
          · rw [hlast] at hmap ⊢
            exact (hfair (by omega) hside x hx hx' hcolumn.1 hcolumn.2).2 hmap
      · rw [shiftRows_apply h c ⟨⟨hy, hy'⟩, hx, hx'⟩]
        split_ifs with hin
        · -- the first row, which comes from the second one
          have hone : |getOffsetY newPos oldPos| ≤ 1 := h.y
          have hfirst : y = 0 := by omega
          have hsouth : getOffsetY newPos oldPos = 1 := by
            rw [hfirst, abs_le] at hrow
            omega
          by_cases hside : getOffsetX newPos oldPos = 0
          · rw [hside, add_zero] at hkept
            exact hkept ⟨hin, hx, hx'⟩
          · rw [hfirst] at hmap ⊢
            rw [hsouth, zero_add]
            exact (hfair hsouth hside x hx hx' hcolumn.1 hcolumn.2).1 hmap
        · rfl
      · rfl

/-- A world with one tile. -/
def oneTile : World Unit := ⟨fun x y z => if x = 100 ∧ y = 90 ∧ z = 7 then some () else none, fun _ => true⟩

/-- A step to the north-east, by which the tile comes into view. -/
theorem upToDate_onCreatureMove_oneTile :
    UpToDate oneTile ⟨101, 99, 7⟩ (onCreatureMove oneTile ⟨101, 99, 7⟩ (oneTile.getTile 100 100 7)
      ⟨100, 100, 7⟩ false (cellValue oneTile ⟨100, 100, 7⟩)) := by
  have hstep : Neighbours ⟨100, 100, 7⟩ ⟨101, 99, 7⟩ := ⟨by decide, by decide, rfl⟩
  have hold : UpToDate oneTile ⟨100, 100, 7⟩ (cellValue oneTile ⟨100, 100, 7⟩) :=
    upToDate_iff.2 fun _ _ _ _ => rfl
  have hnorth : getOffsetY ⟨101, 99, 7⟩ ⟨100, 100, 7⟩ ≠ 1 := by decide
  exact (upToDate_onCreatureMove_iff hstep hold).2 fun hsouth => absurd hsouth hnorth

/-- A step to the south-east, under a single tile in the row that comes to be the first. -/
theorem not_upToDate_onCreatureMove :
    UpToDate oneTile ⟨100, 100, 7⟩ (cellValue oneTile ⟨100, 100, 7⟩) ∧
      ¬ UpToDate oneTile ⟨101, 101, 7⟩ (onCreatureMove oneTile ⟨101, 101, 7⟩
        (oneTile.getTile 100 100 7) ⟨100, 100, 7⟩ false (cellValue oneTile ⟨100, 100, 7⟩)) := by
  refine ⟨upToDate_iff.2 fun _ _ _ _ => rfl, fun h => ?_⟩
  have hstep : Neighbours ⟨100, 100, 7⟩ ⟨101, 101, 7⟩ := ⟨by decide, by decide, rfl⟩
  have hview : InView 0 10 := ⟨by decide, by decide⟩
  have hmap : OnMap ⟨101, 101, 7⟩ 0 10 := ⟨by decide, by decide⟩
  have hcell := upToDate_iff.1 h 0 10 hview hmap
  have hside : getOffsetX ⟨101, 101, 7⟩ ⟨100, 100, 7⟩ = 1 := by decide
  have hsouth : getOffsetY ⟨101, 101, 7⟩ ⟨100, 100, 7⟩ = 1 := by decide
  rw [onCreatureMove_apply hstep _ hview (by rw [hsouth]; decide), hside, hsouth, if_pos (by decide),
    if_neg (by decide), shiftRows_apply hstep _ hview, hsouth, if_pos (by decide)] at hcell
  have hnew : cellValue oneTile ⟨101, 101, 7⟩ 0 10 = true := by decide +kernel
  have hold : cellValue oneTile ⟨100, 100, 7⟩ (0 + 1) 10 = false := by decide +kernel
  rw [hnew, hold] at hcell
  cases hcell

end Steps

end TiabloServer.WalkCache
