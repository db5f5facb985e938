import TiabloServer.Map.Creatures

/-!
# The search for spectators

`Spectators::find` (`map/spectators.cpp`) without its cache: it goes through the leaves of the quad
tree that a window can reach, along the links between them, and keeps the creatures that are in the
window. The window of a floor is shifted by the distance of the floor to that of the centre.

## Main definitions

* `Spectators.search` — the loops over the leaves.
* `Spectators.Sees` — the creatures of the visible floors inside the shifted window.

## Main results

* `Spectators.mem_search` — the search finds exactly these creatures.
-/

namespace TiabloServer.Spectators

open QuadTree

/-! ## Queries -/

/-- The ranges of a search, relative to its centre. -/
structure Range where
  minRangeX : ℤ
  maxRangeX : ℤ
  minRangeY : ℤ
  maxRangeY : ℤ
  deriving DecidableEq

/-- The arguments of `find`. -/
structure Query where
  centerPos : Position
  multifloor : Bool
  onlyPlayers : Bool
  minRangeX : ℤ
  maxRangeX : ℤ
  minRangeY : ℤ
  maxRangeY : ℤ

/-- The ranges of a query, which are those of the view port where they are zero. -/
def Query.range (q : Query) : Range where
  minRangeX := if q.minRangeX = 0 then -MAP_MAX_VIEW_PORT_X else -q.minRangeX
  maxRangeX := if q.maxRangeX = 0 then MAP_MAX_VIEW_PORT_X else q.maxRangeX
  minRangeY := if q.minRangeY = 0 then -MAP_MAX_VIEW_PORT_Y else -q.minRangeY
  maxRangeY := if q.maxRangeY = 0 then MAP_MAX_VIEW_PORT_Y else q.maxRangeY

/-- The `minRangeZ` and `maxRangeZ` of a search. -/
def floors (centerPos : Position) (multifloor : Bool) : UInt8 × UInt8 :=
  if multifloor then
    let z : ℤ := centerPos.z.toNat
    if z > MAP_INIT_SURFACE_LAYER then
      ((max (Int8.ofInt (z - MAP_LAYER_VIEW_LIMIT)) 0).toUInt8,
        (min (Int8.ofInt (z + MAP_LAYER_VIEW_LIMIT)) (Int8.ofInt (MAP_MAX_LAYERS - 1))).toUInt8)
    else if z = MAP_INIT_SURFACE_LAYER - 1 then
      (0, UInt8.ofNat (MAP_INIT_SURFACE_LAYER - 1 + MAP_LAYER_VIEW_LIMIT).toNat)
    else if z = MAP_INIT_SURFACE_LAYER then
      (0, UInt8.ofNat (MAP_INIT_SURFACE_LAYER + MAP_LAYER_VIEW_LIMIT).toNat)
    else (0, UInt8.ofNat MAP_INIT_SURFACE_LAYER.toNat)
  else (centerPos.z, centerPos.z)

/-- `Position::getOffsetZ`. -/
def getOffsetZ (p1 p2 : Position) : ℤ := (p1.z.toNat : ℤ) - p2.z.toNat

/-- The test of the search for a position. -/
def visible (centerPos : Position) (multifloor : Bool) (range : Range) (cpos : Position) : Bool :=
  let (minRangeZ, maxRangeZ) := floors centerPos multifloor
  let offsetZ := getOffsetZ centerPos cpos
  !(decide (minRangeZ > cpos.z) || decide (maxRangeZ < cpos.z)) &&
    !(decide (centerPos.y.toNat + range.minRangeY + offsetZ > cpos.y.toNat) ||
      decide (centerPos.y.toNat + range.maxRangeY + offsetZ < cpos.y.toNat) ||
      decide (centerPos.x.toNat + range.minRangeX + offsetZ > cpos.x.toNat) ||
      decide (centerPos.x.toNat + range.maxRangeX + offsetZ < cpos.x.toNat))

/-- The clamping of a coordinate, rounded down to the start of its block. -/
def blockStart (v : ℤ) : ℕ :=
  let v := (min 0xFFFF (max 0 v)).toNat
  v - v % 8

/-! ## The search -/

section Search

variable {γ : Type*} (w : CreatureMap γ) (spectators : LeafId → List γ) (startx1 endx2 endy2 : ℕ)

/-- The loop over the leaves of a row, from `nx`. -/
def scanRow (ny : ℕ) (leafE : Option LeafId) (nx : ℕ) : List γ :=
  if nx ≤ endx2 then
    match leafE with
    | some leaf => spectators leaf ++ scanRow ny (w.tree.leaves leaf).leafE (nx + 8)
    | none => scanRow ny (w.getQTNode (UInt16.ofNat (nx + 8)) (UInt16.ofNat ny)) (nx + 8)
  else []
termination_by endx2 + 1 - nx

/-- The first leaf of the row after `ny`. -/
def nextLeafS (leafS : Option LeafId) (ny : ℕ) : Option LeafId :=
  match leafS with
  | some leaf => (w.tree.leaves leaf).leafS
  | none => w.getQTNode (UInt16.ofNat startx1) (UInt16.ofNat (ny + 8))

/-- The loop over the rows, from `ny`. -/
def scan (leafS : Option LeafId) (ny : ℕ) : List γ :=
  if ny ≤ endy2 then
    scanRow w spectators endx2 ny leafS startx1 ++
      scan (nextLeafS w startx1 leafS ny) (ny + 8)
  else []
termination_by endy2 + 1 - ny

/-- The creatures of a leaf that pass the test of the search. -/
def leafSpectators (q : Query) (range : Range) (leaf : LeafId) : List γ :=
  let node := w.tree.leaves leaf
  (if q.onlyPlayers then node.player_list else node.creature_list).filter fun creature =>
    (w.creatures creature).any (visible q.centerPos q.multifloor range)

/-- The search of `find`, in a range. -/
def search (q : Query) (range : Range) : List γ :=
  let (minRangeZ, maxRangeZ) := floors q.centerPos q.multifloor
  let minoffset : ℤ := (q.centerPos.z.toNat : ℤ) - maxRangeZ.toNat
  let maxoffset : ℤ := (q.centerPos.z.toNat : ℤ) - minRangeZ.toNat
  let startx1 := blockStart (q.centerPos.x.toNat + range.minRangeX + minoffset)
  let starty1 := blockStart (q.centerPos.y.toNat + range.minRangeY + minoffset)
  let endx2 := blockStart (q.centerPos.x.toNat + range.maxRangeX + maxoffset)
  let endy2 := blockStart (q.centerPos.y.toNat + range.maxRangeY + maxoffset)
  scan w (leafSpectators w q range) startx1 endx2 endy2
    (w.getQTNode (UInt16.ofNat startx1) (UInt16.ofNat starty1)) starty1

end Search

/-! ## What it finds -/

section Found

variable {γ : Type*} (isPlayer : γ → Bool) (w : CreatureMap γ)

/-- The creatures, or players, of the visible floors that are inside the window of their floor. -/
def Sees (centerPos : Position) (multifloor onlyPlayers : Bool) (range : Range) (c : γ) : Prop :=
  ∃ p, w.creatures c = some p ∧ (onlyPlayers = true → isPlayer c = true) ∧
    visible centerPos multifloor range p = true

variable {isPlayer w} (h : CreatureMap.WellFormed isPlayer w) {spectators : LeafId → List γ}
  {startx1 endx2 endy2 : ℕ} {c : γ}

include h

/-- A row is that of the blocks from the first one on. -/
theorem mem_scanRow {ny nx : ℕ} {leafE : Option LeafId}
    (hleaf : leafE = w.tree.leafAt (UInt16.ofNat nx) (UInt16.ofNat ny)) :
    c ∈ scanRow w spectators endx2 ny leafE nx ↔ ∃ k leaf, nx + 8 * k ≤ endx2 ∧
      w.tree.leafAt (UInt16.ofNat (nx + 8 * k)) (UInt16.ofNat ny) = some leaf ∧ c ∈ spectators leaf := by
  induction hn : endx2 + 1 - nx using Nat.strong_induction_on generalizing nx leafE with
  | _ n ih =>
    subst hn
    by_cases hle : nx ≤ endx2
    · -- the first block, and those after it
      have hsplit : (∃ k leaf, nx + 8 * k ≤ endx2 ∧
          w.tree.leafAt (UInt16.ofNat (nx + 8 * k)) (UInt16.ofNat ny) = some leaf ∧
          c ∈ spectators leaf) ↔
          (∃ leaf, leafE = some leaf ∧ c ∈ spectators leaf) ∨
          ∃ k leaf, nx + 8 + 8 * k ≤ endx2 ∧
            w.tree.leafAt (UInt16.ofNat (nx + 8 + 8 * k)) (UInt16.ofNat ny) = some leaf ∧
            c ∈ spectators leaf := by
        constructor
        · rintro ⟨k, leaf, hk, hat, hc⟩
          cases k with
          | zero =>
            rw [hleaf]
            exact Or.inl ⟨leaf, hat, hc⟩
          | succ k =>
            have hsum : nx + 8 * (k + 1) = nx + 8 + 8 * k := by omega
            rw [hsum] at hk hat
            exact Or.inr ⟨k, leaf, hk, hat, hc⟩
        · rintro (⟨leaf, hat, hc⟩ | ⟨k, leaf, hk, hat, hc⟩)
          · rw [hleaf] at hat
            exact ⟨0, leaf, hle, hat, hc⟩
          · have hsum : nx + 8 + 8 * k = nx + 8 * (k + 1) := by omega
            rw [hsum] at hk hat
            exact ⟨k + 1, leaf, hk, hat, hc⟩
      rw [hsplit, scanRow.eq_def, if_pos hle]
      have hlt : endx2 + 1 - (nx + 8) < endx2 + 1 - nx := by omega
      cases leafE with
      | some leaf =>
        have hnext : (w.tree.leaves leaf).leafE =
            w.tree.leafAt (UInt16.ofNat (nx + 8)) (UInt16.ofNat ny) := by
          rw [h.linked.leafE_eq _ _ leaf hleaf.symm, UInt16.ofNat_add]
          rfl
        rw [List.mem_append, ih _ hlt hnext rfl]
        simp only [Option.some.injEq, exists_eq_left']
      | none =>
        simp only
        rw [ih _ hlt (h.getQTNode_eq _ _) rfl]
        simp only [reduceCtorEq, false_and, exists_false, false_or]
    · rw [scanRow.eq_def, if_neg hle]
      refine iff_of_false List.not_mem_nil ?_
      rintro ⟨k, leaf, hk, -⟩
      omega

theorem mem_scan {ny : ℕ} {leafS : Option LeafId}
    (hleaf : leafS = w.tree.leafAt (UInt16.ofNat startx1) (UInt16.ofNat ny)) :
    c ∈ scan w spectators startx1 endx2 endy2 leafS ny ↔ ∃ j k leaf, ny + 8 * j ≤ endy2 ∧ startx1 + 8 * k ≤ endx2 ∧
      w.tree.leafAt (UInt16.ofNat (startx1 + 8 * k)) (UInt16.ofNat (ny + 8 * j)) = some leaf ∧
      c ∈ spectators leaf := by
  induction hn : endy2 + 1 - ny using Nat.strong_induction_on generalizing ny leafS with
  | _ n ih =>
    subst hn
    by_cases hle : ny ≤ endy2
    · have hnext : nextLeafS w startx1 leafS ny =
          w.tree.leafAt (UInt16.ofNat startx1) (UInt16.ofNat (ny + 8)) := by
        cases leafS with
        | some leaf =>
          rw [nextLeafS, h.linked.leafS_eq _ _ leaf hleaf.symm, UInt16.ofNat_add]
          rfl
        | none => exact h.getQTNode_eq _ _
      have hlt : endy2 + 1 - (ny + 8) < endy2 + 1 - ny := by omega
      rw [scan.eq_def, if_pos hle, List.mem_append, mem_scanRow h hleaf, ih _ hlt hnext rfl]
      constructor
      · rintro (⟨k, leaf, hk, hat, hc⟩ | ⟨j, k, leaf, hj, hk, hat, hc⟩)
        · exact ⟨0, k, leaf, hle, hk, hat, hc⟩
        · have hsum : ny + 8 + 8 * j = ny + 8 * (j + 1) := by omega
          rw [hsum] at hj hat
          exact ⟨j + 1, k, leaf, hj, hk, hat, hc⟩
      · rintro ⟨j, k, leaf, hj, hk, hat, hc⟩
        cases j with
        | zero => exact Or.inl ⟨k, leaf, hk, hat, hc⟩
        | succ j =>
          have hsum : ny + 8 * (j + 1) = ny + 8 + 8 * j := by omega
          rw [hsum] at hj hat
          exact Or.inr ⟨j, k, leaf, hj, hk, hat, hc⟩
    · rw [scan.eq_def, if_neg hle]
      refine iff_of_false List.not_mem_nil ?_
      rintro ⟨j, k, leaf, hj, -⟩
      omega

omit h in
theorem visible_iff {centerPos cpos : Position} {multifloor : Bool} {range : Range} :
    visible centerPos multifloor range cpos = true ↔ ((floors centerPos multifloor).1.toNat ≤ cpos.z.toNat ∧
        cpos.z.toNat ≤ (floors centerPos multifloor).2.toNat) ∧
      (centerPos.x.toNat + range.minRangeX + getOffsetZ centerPos cpos ≤ cpos.x.toNat ∧
        cpos.x.toNat ≤ centerPos.x.toNat + range.maxRangeX + getOffsetZ centerPos cpos) ∧
      (centerPos.y.toNat + range.minRangeY + getOffsetZ centerPos cpos ≤ cpos.y.toNat ∧
        cpos.y.toNat ≤ centerPos.y.toNat + range.maxRangeY + getOffsetZ centerPos cpos) := by
  simp only [visible, Bool.and_eq_true, Bool.not_eq_true', Bool.or_eq_false_iff,
    decide_eq_false_iff_not, gt_iff_lt, UInt8.lt_iff_toNat_lt, not_lt]
  constructor
  · rintro ⟨hz, ⟨⟨hy, hy'⟩, hx⟩, hx'⟩
    exact ⟨hz, ⟨hx, hx'⟩, hy, hy'⟩
  · rintro ⟨hz, ⟨hx, hx'⟩, hy, hy'⟩
    exact ⟨hz, ⟨⟨hy, hy'⟩, hx⟩, hx'⟩

omit h in
/-- A coordinate in a window is in a block between the first and the last one. -/
theorem exists_block {v : UInt16} (low high : ℤ) (hlow : low ≤ v.toNat) (hhigh : v.toNat ≤ high) :
    ∃ k, blockStart low + 8 * k ≤ blockStart high ∧
      v.toNat / 8 = (UInt16.ofNat (blockStart low + 8 * k)).toNat / 8 := by
  have hlt := v.toNat_lt
  have hfirst : blockStart low ≤ v.toNat - v.toNat % 8 := by
    simp only [blockStart]
    omega
  have hlast : v.toNat - v.toNat % 8 ≤ blockStart high := by
    simp only [blockStart]
    omega
  have hmod : blockStart low % 8 = 0 := by
    simp only [blockStart]
    omega
  refine ⟨(v.toNat - v.toNat % 8 - blockStart low) / 8, by omega, ?_⟩
  rw [UInt16.toNat_ofNat']
  omega

/-- The creatures of a leaf that a search keeps. -/
theorem mem_leafSpectators {q : Query} {range : Range} {x y : UInt16} {leaf : LeafId}
    (hleaf : w.tree.leafAt x y = some leaf) : c ∈ leafSpectators w q range leaf ↔ ∃ p, w.creatures c = some p ∧
      blockPath p.x p.y = blockPath x y ∧ (q.onlyPlayers = true → isPlayer c = true) ∧
      visible q.centerPos q.multifloor range p = true := by
  have hlist : (c ∈ if q.onlyPlayers then (w.tree.leaves leaf).player_list
      else (w.tree.leaves leaf).creature_list) ↔ ∃ p, w.creatures c = some p ∧
        blockPath p.x p.y = blockPath x y ∧ (q.onlyPlayers = true → isPlayer c = true) := by
    by_cases hplayers : q.onlyPlayers = true
    · rw [if_pos hplayers, h.mem_player_list x y leaf c hleaf,
        h.mem_creature_list x y leaf c hleaf]
      constructor
      · rintro ⟨⟨p, hp, hblock⟩, hplayer⟩
        exact ⟨p, hp, hblock, fun _ => hplayer⟩
      · rintro ⟨p, hp, hblock, hplayer⟩
        exact ⟨⟨p, hp, hblock⟩, hplayer hplayers⟩
    · rw [if_neg hplayers, h.mem_creature_list x y leaf c hleaf]
      constructor
      · rintro ⟨p, hp, hblock⟩
        exact ⟨p, hp, hblock, fun hplayers' => absurd hplayers' hplayers⟩
      · rintro ⟨p, hp, hblock, -⟩
        exact ⟨p, hp, hblock⟩
  rw [leafSpectators, List.mem_filter, hlist, Option.any_eq_true]
  constructor
  · rintro ⟨⟨p, hp, hblock, hplayer⟩, p', hp', hvisible⟩
    obtain rfl := Option.some.inj (hp.symm.trans hp')
    exact ⟨p, hp, hblock, hplayer, hvisible⟩
  · rintro ⟨p, hp, hblock, hplayer, hvisible⟩
    exact ⟨⟨p, hp, hblock, hplayer⟩, p, hp, hvisible⟩

/-- **The search is exact**: it finds the creatures that the query asks for. -/
theorem mem_search (q : Query) (range : Range) :
    c ∈ search w q range ↔ Sees isPlayer w q.centerPos q.multifloor q.onlyPlayers range c := by
  rw [search, mem_scan h (h.getQTNode_eq _ _)]
  constructor
  · rintro ⟨j, k, leaf, -, -, hat, hc⟩
    obtain ⟨p, hp, -, hplayer, hvisible⟩ := (mem_leafSpectators h hat).1 hc
    exact ⟨p, hp, hplayer, hvisible⟩
  · rintro ⟨p, hp, hplayer, hvisible⟩
    obtain ⟨⟨hz, hz'⟩, ⟨hx, hx'⟩, hy, hy'⟩ := visible_iff.1 hvisible
    rw [getOffsetZ] at hx hx' hy hy'
    obtain ⟨k, hk, hblockx⟩ := exists_block (v := p.x)
      (q.centerPos.x.toNat + range.minRangeX +
        ((q.centerPos.z.toNat : ℤ) - (floors q.centerPos q.multifloor).2.toNat))
      (q.centerPos.x.toNat + range.maxRangeX +
        ((q.centerPos.z.toNat : ℤ) - (floors q.centerPos q.multifloor).1.toNat))
      (by omega) (by omega)
    obtain ⟨j, hj, hblocky⟩ := exists_block (v := p.y)
      (q.centerPos.y.toNat + range.minRangeY +
        ((q.centerPos.z.toNat : ℤ) - (floors q.centerPos q.multifloor).2.toNat))
      (q.centerPos.y.toNat + range.maxRangeY +
        ((q.centerPos.z.toNat : ℤ) - (floors q.centerPos q.multifloor).1.toNat))
      (by omega) (by omega)
    obtain ⟨leaf, hleaf⟩ := h.leaf_of_creature hp
    have hblock := (blockPath_eq_iff p.x p.y _ _).2 ⟨hblockx, hblocky⟩
    have hat := (Linked.leafAt_congr (s := w.tree) hblock).symm.trans hleaf
    exact ⟨j, k, leaf, hj, hk, hat, (mem_leafSpectators h hat).2 ⟨p, hp, hblock, hplayer, hvisible⟩⟩

end Found

end TiabloServer.Spectators
