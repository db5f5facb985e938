import TiabloServer.Map.PathDiagonals
import TiabloServer.Map.SightLine

/-!
# Fleeing

A creature with `ConditionFeared` flees from the caster (`creatures/combat/condition.cpp`). The
condition keeps an index into its vector of directions. In a pass `getFleePath` asks for ways to
four positions, at distances 15, 9, 3 and 1 in the direction of the index, and goes on to the next
index if it finds none.

`Creature::getPathTo` (`creatures/creature.cpp`) is the search of `Pathfinding` for a position that
sees the target, in one of both directions of the ray of `Sight`.

## Main definitions

* `Feared.tryWalkSizes`, `Feared.passRound`, `Feared.getFleePath` — the passes.
* `Feared.Reachable` — the indices that a condition comes to.

## Main results

* `Feared.isSightClear_returns` — the lines of sight that a search asks for end, and nothing
  overflows.
* `Feared.getPathMatching_found` — a search whose start meets the condition returns true.
* `Feared.passRound_spec` — a pass ends the function or advances the index.
* `Feared.executeCondition_ends` — the condition ends after at most eight advances.
-/

namespace TiabloServer.Feared

open Pathfinding (Direction TileMap Creature FindPathParams MagicField getNextPosition SearchState Found
  AStarNodes pathCondition isInRange getPathMatching expand expandNode searchRound)
open Sight (X Y)

/-! ## The functions of the source -/

/-- `m_directionsVector`. -/
def directionsVector : List Direction :=
  [.north, .northeast, .east, .southeast, .south, .southwest, .west, .northwest]

/-- The value of a direction. -/
def value : Direction → ℕ
  | .north => 0
  | .east => 1
  | .south => 2
  | .west => 3
  | .southwest => 4
  | .southeast => 5
  | .northwest => 6
  | .northeast => 7

/-- What the condition reads: the map, and the creature. -/
structure World (τ : Type*) where
  map : TileMap τ
  /-- What a line of sight asks a tile. -/
  sightTile : τ → Sight.Tile
  creature : Creature τ
  /-- `queryAdd` of a tile returns `RETURNVALUE_NOERROR`, with `FLAG_PATHFINDING` alone. -/
  queryAdd : τ → Bool

/-- The directions after `std::ranges::shuffle`. -/
abbrev Shuffled := { directions : List Direction // directions.Perm directionsVector }

/-- The rounds of a ray that a search may ask for. -/
def sightRounds : ℕ := 61

/-- `Map::isSightClear`; none if a ray does not end, or a value overflows. -/
def isSightClear (getTile : Position → Option Sight.Tile) (fromPos toPos : Position) (floorCheck : Bool) :
    Option Bool :=
  if floorCheck && fromPos.z != toPos.z then some false
  else
    match (Sight.checkSightLine Sight.int32 getTile sightRounds fromPos toPos).join with
    | none => none
    | some true => some true
    | some false => (Sight.checkSightLine Sight.int32 getTile sightRounds toPos fromPos).join

section Source

variable {τ : Type*} [DecidableEq τ] (w : World τ)

/-- The tile of a position, for lines of sight. -/
def World.getTile (pos : Position) : Option Sight.Tile := (w.map.getTile pos).map w.sightTile

/-- `canWalkTo` of the condition. -/
def canWalkTo (pos : Position) (moveDirection : Direction) : Bool :=
  match w.map.getTile (getNextPosition moveDirection pos) with
  | none => false
  | some tile =>
    if !w.creature.seesCreature tile && w.queryAdd tile then
      match w.map.getFieldItem tile with
      | some field => field.isBlocking || field.damage == 0
      | none => true
    else false

def isStuck (pos : Position) : Bool := !directionsVector.any (canWalkTo w pos)

/-- `getRandomDirection`: the index after it, if it returns true. -/
def getRandomDirection (directions : List Direction) (pos : Position) : Option ℕ :=
  (directions.find? (canWalkTo w pos)).map value

/-- `getFleeDirection`: the index after it. -/
def getFleeDirection (directions : List Direction) (pos fleeingFromPos : Position) (fleeIndx : ℕ) : ℕ :=
  let offx := X pos - X fleeingFromPos
  let offy := Y pos - Y fleeingFromPos
  if offx = 0 ∧ offy = 0 then (getRandomDirection w directions pos).getD fleeIndx
  else if offx ≥ 1 ∧ offy ≤ 0 then if offy = 0 then 2 else 0
  else if offx ≥ 0 ∧ offy ≥ 1 then if offx = 0 then 4 else 2
  else if offx ≤ -1 ∧ offy ≥ 0 then if offy = 0 then 6 else 4
  else if offx ≤ 0 ∧ offy ≤ -1 then if offx = 0 then 0 else 6
  else fleeIndx

/-- The position that a pass asks for, with the signs of the source. -/
def futurePos (direction : Direction) (wsize : UInt16) (pos : Position) : Position :=
  match direction with
  | .north => { pos with y := pos.y + wsize }
  | .northeast => { pos with x := pos.x + wsize, y := pos.y - wsize }
  | .east => { pos with x := pos.x - wsize }
  | .southeast => { pos with x := pos.x - wsize, y := pos.y + wsize }
  | .south => { pos with y := pos.y + wsize }
  | .southwest => { pos with x := pos.x + wsize, y := pos.y + wsize }
  | .west => { pos with x := pos.x + wsize }
  | .northwest => { pos with x := pos.x + wsize, y := pos.y - wsize }

/-- The parameters of `getPathTo(futurePos, dirList, 0, 30)`. -/
def fleeParams : FindPathParams where
  fullPathSearch := true
  clearSight := true
  allowDiagonal := true
  keepDistance := false
  maxSearchDist := 7
  minTargetDist := 0
  maxTargetDist := 30

/-- `Creature::getPathTo`, with fuel for its loops: the directions, if it returns true. -/
def getPathTo (fuel : ℕ) (pos targetPos : Position) : Option (Option (List Direction)) :=
  getPathMatching w.map (some w.creature) pos targetPos
    (fun testPos targetPos => isSightClear w.getTile testPos targetPos true == some true) fleeParams fuel

/-- The variables of `getFleePath`. -/
structure FleeState where
  fleeIndx : ℕ
  found : Bool
  dirList : List Direction

/-- How `getFleePath` ends. -/
inductive Flee where
  /-- The fuel is not enough for a search. -/
  | unfinished
  /-- The vector of directions is read outside its entries. -/
  | outside
  /-- It returns false. -/
  | stuck (fleeIndx : ℕ)
  /-- It returns true. -/
  | path (s : FleeState)

/-- The reset of the index. -/
def FleeState.reset (s : FleeState) : FleeState := if s.fleeIndx = 8 then { s with fleeIndx := 0 } else s

/-- The loop of a pass over the distances. -/
def tryWalkSizes (fuel : ℕ) (pos : Position) : List UInt16 → FleeState → Except Flee FleeState
  | [], s => .ok s
  | wsize :: walkSize, s =>
    if isStuck w pos then .error (.stuck s.reset.fleeIndx)
    else
      match directionsVector[s.reset.fleeIndx]? with
      | none => .error .outside
      | some direction =>
        match getPathTo w fuel pos (futurePos direction wsize pos) with
        | none => .error .unfinished
        | some none => tryWalkSizes fuel pos walkSize { s.reset with found := false }
        | some (some path) =>
          let s : FleeState := { s.reset with found := true, dirList := path ++ s.dirList }
          if s.dirList ≠ [] then .ok s else tryWalkSizes fuel pos walkSize s

/-- A pass of `getFleePath`. -/
def passRound (fuel : ℕ) (pos : Position) (s : FleeState) : Loop.Round FleeState Flee :=
  match tryWalkSizes w fuel pos [15, 9, 3, 1] s with
  | .error flee => .done flee
  | .ok s =>
    let s := if !s.found || s.dirList.isEmpty then { s with fleeIndx := s.fleeIndx + 1 } else s
    if !s.found && s.dirList.isEmpty then .next s else .done (.path s)

/-- `getFleePath`, with a bound on the passes. -/
def getFleePath (fuel passes : ℕ) (pos : Position) (fleeIndx : ℕ) : Option Flee :=
  Loop.run (passRound w fuel pos) passes ⟨fleeIndx, false, []⟩

/-- The index with which `executeCondition` calls `getFleePath`. -/
def firstIndx (directions : List Direction) (pos fleeingFromPos : Position) (fleeIndx : ℕ) : ℕ :=
  if fleeIndx = 99 then getFleeDirection w directions pos fleeingFromPos fleeIndx else fleeIndx

/-- `executeCondition`: how it ends, and none in it where the creature still walks. -/
def executeCondition (fuel passes : ℕ) (directions : List Direction) (pos fleeingFromPos : Position)
    (walkSize fleeIndx : ℕ) : Option (Option Flee) :=
  if walkSize < 2 then
    (getFleePath w fuel passes pos (firstIndx w directions pos fleeingFromPos fleeIndx)).map some
  else some none

/-- The index of the condition after `getFleePath`. -/
def Flee.fleeIndx : Flee → Option ℕ
  | .unfinished => none
  | .outside => none
  | .stuck fleeIndx => some fleeIndx
  | .path s => some s.fleeIndx

variable (τ) in
/-- The indices that a condition comes to: a new one is started and executed, on maps that change,
for creatures that move. -/
inductive Reachable : ℕ → Prop where
  | new : Reachable 99
  | startCondition {fleeIndx : ℕ} (h : Reachable fleeIndx) (w : World τ) (directions : Shuffled)
      (pos fleeingFromPos : Position) :
      Reachable (getFleeDirection w directions.1 pos fleeingFromPos fleeIndx)
  | executeCondition {fleeIndx fleeIndx' : ℕ} (h : Reachable fleeIndx) (w : World τ) (directions : Shuffled)
      (pos fleeingFromPos : Position) {fuel passes walkSize : ℕ} {flee : Flee}
      (hrun : executeCondition w fuel passes directions.1 pos fleeingFromPos walkSize fleeIndx =
        some (some flee)) (hflee : flee.fleeIndx = some fleeIndx') : Reachable fleeIndx'

end Source

/-! ## Lines of sight -/

section Lines

variable (getTile : Position → Option Sight.Tile) {fromPos toPos : Position}

/-- A ray over at most 30 tiles in each direction ends, and no value in it overflows. -/
theorem checkSightLine_near (hz : fromPos.z = toPos.z) (hx : |X toPos - X fromPos| ≤ 30)
    (hy : |Y toPos - Y fromPos| ≤ 30) :
    ∃ clear, (Sight.checkSightLine Sight.int32 getTile sightRounds fromPos toPos).join = some clear := by
  have hdistance : Sight.distance toPos fromPos < sightRounds := by
    unfold Sight.distance sightRounds
    omega
  obtain ⟨clear, hclear⟩ := Sight.checkSightLine_rounds getTile hz hdistance
  refine ⟨clear, ?_⟩
  rw [Sight.checkSightLine_int32 (hx.trans (by norm_num)) (hy.trans (by norm_num)), hclear]
  rfl

/-- **The lines of sight that a search asks for end.** -/
theorem isSightClear_returns (hx : |X toPos - X fromPos| ≤ 30) (hy : |Y toPos - Y fromPos| ≤ 30) :
    ∃ clear, isSightClear getTile fromPos toPos true = some clear := by
  unfold isSightClear
  by_cases hz : fromPos.z = toPos.z
  · obtain ⟨there, hthere⟩ := checkSightLine_near getTile hz hx hy
    obtain ⟨back, hback⟩ := checkSightLine_near getTile hz.symm (by rwa [abs_sub_comm])
      (by rwa [abs_sub_comm])
    rw [if_neg (by simp [hz]), hthere, hback]
    cases there with
    | true => exact ⟨true, rfl⟩
    | false => exact ⟨back, rfl⟩
  · exact ⟨false, if_pos (by simp [hz])⟩

/-- A position beside another one on its floor. -/
structure Beside (fromPos toPos : Position) : Prop where
  ne : toPos.x ≠ fromPos.x ∨ toPos.y ≠ fromPos.y
  x : |X fromPos - X toPos| ≤ 1
  y : |Y fromPos - Y toPos| ≤ 1
  z : toPos.z = fromPos.z

/-- From a tile that does not block projectiles, a position beside it is in sight: the ray back to
it meets no other tile. -/
theorem isSightClear_beside (h : Beside fromPos toPos)
    (hclear : (getTile fromPos).any Sight.Tile.blockProjectile = false) :
    isSightClear getTile fromPos toPos true = some true := by
  have hx : |X toPos - X fromPos| ≤ 30 := by
    rw [abs_sub_comm]
    exact h.x.trans (by norm_num)
  have hy : |Y toPos - Y fromPos| ≤ 30 := by
    rw [abs_sub_comm]
    exact h.y.trans (by norm_num)
  obtain ⟨there, hthere⟩ := checkSightLine_near getTile h.z.symm hx hy
  have hback := Sight.checkSightLine_adjacent h.z h.ne h.x h.y hclear (show 2 ≤ sightRounds by decide)
  unfold isSightClear
  rw [if_neg (by simp [h.z]), hthere, hback]
  cases there <;> rfl

end Lines

/-! ## Searches that start at a match -/

section Search

variable {τ : Type*} [DecidableEq τ] {map : TileMap τ} {creature : Option (Creature τ)}
  {startPos targetPos : Position} {sight : Position → Position → Bool} {fpp : FindPathParams}

variable (map creature startPos targetPos fpp) in
/-- Once there is a match, no lack of nodes ends the search without a path. -/
theorem expand_found (n : ℕ) (x y : UInt16) (f : ℕ) (offsets : List (ℤ × ℤ)) (nodes : AStarNodes) :
    ∃ nodes', expand map creature startPos targetPos fpp true n x y f offsets nodes = some nodes' := by
  induction offsets generalizing nodes with
  | nil => exact ⟨nodes, rfl⟩
  | cons offset offsets ih =>
    unfold expand
    dsimp only
    split
    · exact ih nodes
    · split
      · exact ih nodes
      · split
        · split
          · exact ih nodes
          · exact ih _
        · split
          · exact ih _
          · exact ⟨_, if_pos rfl⟩

/-- What a round keeps: there is a match. -/
theorem expandNode_found {s : SearchState} (hfound : s.found.isSome = true) (n : ℕ) :
    ∃ s', expandNode map creature startPos targetPos fpp s n = .next s' ∧ s'.found.isSome = true := by
  unfold expandNode
  obtain ⟨nodes', hnodes⟩ := expand_found map creature startPos targetPos fpp n (s.nodes.nodes n).x
    (s.nodes.nodes n).y (s.nodes.nodes n).f (Pathfinding.neighbors s.nodes fpp n) s.nodes
  dsimp only
  rw [hfound, hnodes]
  exact ⟨_, rfl, hfound⟩

theorem searchRound_found {s : SearchState} (hfound : s.found.isSome = true) :
    (∃ s', searchRound map creature startPos targetPos sight fpp s = .next s' ∧ s'.found.isSome = true) ∨
      ∃ found, searchRound map creature startPos targetPos sight fpp s = .done (some found) := by
  have hresult : ∃ found, s.result = some found := by
    obtain ⟨i, hi⟩ := Option.isSome_iff_exists.1 hfound
    exact ⟨_, by rw [SearchState.result, hi]; rfl⟩
  obtain ⟨found, hresult⟩ := hresult
  unfold searchRound
  split_ifs
  · cases hbest : s.nodes.getBestNode with
    | none => exact .inr ⟨found, by rw [hresult]⟩
    | some n =>
      dsimp only
      cases hvisit : s.visit startPos targetPos sight fpp n with
      | none => exact .inl (expandNode_found hfound n)
      | some s' =>
        dsimp only
        obtain ⟨bestMatch, -, rfl⟩ := Option.map_eq_some_iff.1 hvisit
        split_ifs
        · exact .inr ⟨_, rfl⟩
        · exact .inl (expandNode_found rfl n)
  · exact .inr ⟨found, by rw [hresult]⟩

/-- **A search whose start meets the condition returns true**, if it ends. -/
theorem getPathMatching_found {bestMatch : ℤ}
    (hmatch : pathCondition targetPos startPos fpp sight startPos 0 = some bestMatch) {fuel : ℕ}
    {result : Option (List Direction)}
    (hrun : getPathMatching map creature startPos targetPos sight fpp fuel = some result) :
    ∃ directions, result = some directions := by
  -- after the first round there is a match
  have hround : ∀ s : SearchState, (s.found.isSome = true ∨
      s = ⟨.new startPos.x startPos.y, 0, none, ⟨0, 0, 0⟩⟩) →
      (∃ s', searchRound map creature startPos targetPos sight fpp s = .next s' ∧ s'.found.isSome = true) ∨
        ∃ found, searchRound map creature startPos targetPos sight fpp s = .done (some found) := by
    rintro s (hfound | rfl)
    · exact searchRound_found hfound
    have hvisit : SearchState.visit startPos targetPos sight fpp
        ⟨.new startPos.x startPos.y, 0, none, ⟨0, 0, 0⟩⟩ 0 =
        some ⟨.new startPos.x startPos.y, bestMatch, some 0, startPos⟩ := by
      unfold SearchState.visit
      dsimp only [AStarNodes.new]
      rw [hmatch]
      rfl
    unfold searchRound
    rw [if_pos (.inr (show (0 : ℤ) < 100 by decide))]
    simp only [Pathfinding.getBestNode_new, hvisit]
    split_ifs
    · exact .inr ⟨_, rfl⟩
    · exact .inl (expandNode_found rfl 0)
  unfold getPathMatching at hrun
  obtain ⟨found, hsearch, hpath⟩ := Option.bind_eq_some_iff.1 hrun
  have hsome : ∃ found', found = some found' := by
    refine Loop.run_invariant (P := fun s => s.found.isSome = true ∨
      s = ⟨.new startPos.x startPos.y, 0, none, ⟨0, 0, 0⟩⟩) (Q := fun found => ∃ found', found = some found')
      ?_ ?_ (.inr rfl) hsearch
    · intro s s' hs hnext
      rcases hround s hs with ⟨s'', heq, hfound⟩ | ⟨found', heq⟩
      · rw [hnext] at heq
        obtain rfl := Loop.Round.next.inj heq
        exact .inl hfound
      · rw [hnext] at heq
        cases heq
    · intro s r hs hdone
      rcases hround s hs with ⟨s'', heq, -⟩ | ⟨found', heq⟩
      · rw [hdone] at heq
        cases heq
      · rw [hdone] at heq
        exact ⟨found', Loop.Round.done.inj heq⟩
  obtain ⟨⟨nodes, i, endPos⟩, rfl⟩ := hsome
  obtain ⟨directions, -, rfl⟩ := Option.map_eq_some_iff.1 hpath
  exact ⟨directions, rfl⟩

end Search

/-! ## The searches of a pass -/

section Passes

variable {τ : Type*} [DecidableEq τ] {w : World τ} {fuel : ℕ} {pos targetPos : Position}

instance : Finite Position :=
  Finite.of_injective (fun pos : Position => (pos.x.toFin, pos.y.toFin, pos.z.toFin)) <| by
    rintro ⟨x, y, z⟩ ⟨x', y', z'⟩ h
    simp only [Prod.mk.injEq, UInt16.toFin_inj, UInt8.toFin_inj] at h
    obtain ⟨rfl, rfl, rfl⟩ := h
    rfl

variable (w pos) in
/-- **The searches end**, with one amount of fuel for all targets. -/
theorem getPathTo_total : ∃ (result : Position → Option (List Direction)) (fuel : ℕ),
    ∀ fuel', fuel ≤ fuel' → ∀ targetPos, getPathTo w fuel' pos targetPos = some (result targetPos) := by
  have htotal : ∀ targetPos, ∃ result fuel, ∀ fuel', fuel ≤ fuel' →
      getPathTo w fuel' pos targetPos = some result := by
    intro targetPos
    obtain ⟨result, fuel, hrun, -⟩ := @Pathfinding.getPathMatching_total τ _ w.map (some w.creature) pos
      targetPos (fun testPos targetPos => isSightClear w.getTile testPos targetPos true == some true)
      fleeParams (.inr (by decide))
    exact ⟨result, fuel, hrun⟩
  choose result fuel hrun using htotal
  obtain ⟨bound, hbound⟩ := (Set.finite_range fuel).bddAbove
  exact ⟨result, bound, fun fuel' hle targetPos =>
    hrun targetPos fuel' ((hbound ⟨targetPos, rfl⟩).trans hle)⟩

/-- What a search asks a line of sight for is near. -/
theorem isInRange_iff {startPos testPos : Position} : isInRange targetPos startPos fleeParams testPos = true ↔
    |X targetPos - X testPos| ≤ 30 ∧ |Y targetPos - Y testPos| ≤ 30 := by
  have hfull : fleeParams.fullPathSearch = true := rfl
  have hmax : fleeParams.maxTargetDist = 30 := rfl
  simp only [isInRange, if_pos hfull, Bool.not_eq_true', Bool.or_eq_false_iff, decide_eq_false_iff_not]
  rw [hmax]
  simp only [X, Y, abs_le]
  omega

omit [DecidableEq τ] in
/-- **The start is a match** for a target beside it. -/
theorem pathCondition_beside (h : Beside pos targetPos)
    (hclear : (w.getTile pos).any Sight.Tile.blockProjectile = false) : pathCondition targetPos pos fleeParams
      (fun testPos targetPos => isSightClear w.getTile testPos targetPos true == some true) pos 0 = some 1 := by
  have hx := h.x
  have hy := h.y
  have hrange : isInRange targetPos pos fleeParams pos = true := by
    rw [isInRange_iff, abs_sub_comm, abs_sub_comm (Y targetPos)]
    exact ⟨hx.trans (by norm_num), hy.trans (by norm_num)⟩
  have hdist : max (Pathfinding.getDistanceX targetPos pos) (Pathfinding.getDistanceY targetPos pos) = 1 := by
    have hne : (targetPos.x.toNat : ℤ) ≠ pos.x.toNat ∨ (targetPos.y.toNat : ℤ) ≠ pos.y.toNat :=
      h.ne.imp (fun hne heq => hne (Sight.eq_of_X heq)) (fun hne heq => hne (Sight.eq_of_X heq))
    simp only [X, Y, abs_eq_max_neg] at hx hy
    simp only [Pathfinding.getDistanceX, Pathfinding.getDistanceY, abs_eq_max_neg]
    omega
  have hsight := isSightClear_beside w.getTile h hclear
  simp only [pathCondition, hrange, hsight, hdist]
  decide

/-- A search for a target beside the creature returns true. -/
theorem getPathTo_beside (h : Beside pos targetPos)
    (hclear : (w.getTile pos).any Sight.Tile.blockProjectile = false) {result : Option (List Direction)}
    (hrun : getPathTo w fuel pos targetPos = some result) : ∃ path, result = some path :=
  getPathMatching_found (pathCondition_beside h hclear) hrun

theorem beside_east (h : pos.x ≠ 0) : Beside pos (futurePos .east 1 pos) := by
  have hx := pos.x.toNat_lt
  have hpos : 0 < pos.x.toNat := Nat.pos_of_ne_zero fun h0 => h (UInt16.toNat_inj.1 h0)
  have hsub : (pos.x - 1).toNat = pos.x.toNat - 1 :=
    UInt16.toNat_sub_of_le _ _ (UInt16.le_iff_toNat_le.2 hpos)
  refine ⟨.inl fun heq => ?_, ?_, ?_, rfl⟩
  · have := congrArg UInt16.toNat heq
    rw [futurePos, hsub] at this
    omega
  · rw [X, X, futurePos, hsub, abs_le]
    omega
  · simp [Y, futurePos]

theorem beside_west (h : pos.x ≠ 65535) : Beside pos (futurePos .west 1 pos) := by
  have hx := pos.x.toNat_lt
  have hne : pos.x.toNat ≠ 65535 := fun h0 => h (UInt16.toNat_inj.1 h0)
  have hadd : (pos.x + 1).toNat = pos.x.toNat + 1 := by
    rw [UInt16.toNat_add, UInt16.toNat_one, Nat.mod_eq_of_lt (by omega)]
  refine ⟨.inl fun heq => ?_, ?_, ?_, rfl⟩
  · have := congrArg UInt16.toNat heq
    rw [futurePos, hadd] at this
    omega
  · rw [X, X, futurePos, hadd, abs_le]
    omega
  · simp [Y, futurePos]

/-! ## A pass -/

variable (fuel) in
/-- The loop over the distances keeps the index, and finds a path if there is one at the last
distance. -/
theorem tryWalkSizes_spec (hstuck : isStuck w pos = false) (walkSize : List UInt16) {s : FleeState}
    (hidx : s.fleeIndx < 8) (hdir : s.dirList = []) : ((∃ targetPos, getPathTo w fuel pos targetPos = none) ∧
        tryWalkSizes w fuel pos walkSize s = .error .unfinished) ∨
      ∃ s', tryWalkSizes w fuel pos walkSize s = .ok s' ∧ s'.fleeIndx = s.fleeIndx ∧
        (s'.dirList ≠ [] → s'.found = true) ∧ ∀ wsize direction path, walkSize.getLast? = some wsize →
          directionsVector[s.fleeIndx]? = some direction →
          getPathTo w fuel pos (futurePos direction wsize pos) = some (some path) → s'.found = true := by
  induction walkSize generalizing s with
  | nil => exact .inr ⟨s, rfl, rfl, fun h => absurd hdir h, fun _ _ _ h => by cases h⟩
  | cons wsize walkSize ih =>
    have hreset : s.reset = s := if_neg (by omega)
    obtain ⟨direction, hdirection⟩ : ∃ direction, directionsVector[s.fleeIndx]? = some direction :=
      ⟨_, List.getElem?_eq_getElem hidx⟩
    unfold tryWalkSizes
    rw [if_neg (by simp [hstuck]), hreset, hdirection]
    dsimp only
    -- the search at this distance
    cases hpath : getPathTo w fuel pos (futurePos direction wsize pos) with
    | none => exact .inl ⟨⟨_, hpath⟩, rfl⟩
    | some result =>
      cases result with
      | none =>
        rcases ih (s := { s with found := false }) hidx hdir with htarget | ⟨s', hrun, hkeep, hfound, hlast⟩
        · exact .inl htarget
        refine .inr ⟨s', hrun, hkeep, hfound, fun wsize' direction' path hwsize hdir' hpath' => ?_⟩
        cases walkSize with
        | nil =>
          -- this is the last distance, and nothing has been found there
          obtain rfl : wsize = wsize' := Option.some.inj hwsize
          obtain rfl : direction = direction' := Option.some.inj hdir'
          exact absurd (hpath.symm.trans hpath') (by simp)
        | cons next walkSize =>
          exact hlast wsize' direction' path (by rwa [List.getLast?_cons_cons] at hwsize)
            (hdirection.trans hdir') hpath'
      | some path =>
        dsimp only
        split_ifs with hempty
        · exact .inr ⟨_, rfl, rfl, fun _ => rfl, fun _ _ _ _ _ _ => rfl⟩
        · have hempty' : path ++ s.dirList = [] := not_not.1 hempty
          rcases ih (s := { s with found := true, dirList := path ++ s.dirList }) hidx hempty' with
            htarget | ⟨s', hrun, hkeep, hfound, hlast⟩
          · exact .inl htarget
          refine .inr ⟨s', hrun, hkeep, hfound, fun wsize' direction' path' hwsize hdir' hpath' => ?_⟩
          cases walkSize with
          | nil =>
            obtain rfl := Except.ok.inj hrun
            rfl
          | cons next walkSize =>
            exact hlast wsize' direction' path' (by rwa [List.getLast?_cons_cons] at hwsize)
              (hdirection.trans hdir') hpath'

/-- A state at the start of a pass. -/
structure Started (w : World τ) (pos : Position) (s : FleeState) : Prop where
  dirList : s.dirList = []
  fleeIndx : s.fleeIndx ≤ 8 ∨ s.fleeIndx = 99 ∧ isStuck w pos = true

/-- The pass has found no path at the last distance. -/
def FoundNothing (w : World τ) (fuel : ℕ) (pos : Position) (s : FleeState) : Prop :=
  ∀ direction path, directionsVector[s.reset.fleeIndx]? = some direction →
    getPathTo w fuel pos (futurePos direction 1 pos) ≠ some (some path)

theorem reset_fleeIndx {s : FleeState} (h : s.fleeIndx ≤ 8) : s.reset.fleeIndx < 8 := by
  unfold FleeState.reset
  split_ifs with h8
  · exact Nat.succ_pos 7
  · omega

@[simp] theorem reset_dirList (s : FleeState) : s.reset.dirList = s.dirList := by
  unfold FleeState.reset
  split_ifs <;> rfl

@[simp] theorem reset_reset (s : FleeState) : s.reset.reset = s.reset := by
  by_cases h : s.fleeIndx = 8 <;> simp [FleeState.reset, h]

/-- The reset comes first. -/
theorem tryWalkSizes_reset (wsize : UInt16) (walkSize : List UInt16) (s : FleeState) :
    tryWalkSizes w fuel pos (wsize :: walkSize) s.reset = tryWalkSizes w fuel pos (wsize :: walkSize) s := by
  simp only [tryWalkSizes, reset_reset, reset_dirList]

variable (fuel) in
/-- **A pass** ends the function, without reading outside the vector, or advances the index. -/
theorem passRound_spec {s : FleeState} (h : Started w pos s) :
    ((∃ targetPos, getPathTo w fuel pos targetPos = none) ∧ passRound w fuel pos s = .done .unfinished) ∨
    (isStuck w pos = true ∧ passRound w fuel pos s = .done (.stuck s.reset.fleeIndx)) ∨
    (∃ s', passRound w fuel pos s = .done (.path s') ∧ s'.found = true ∧ s'.fleeIndx ≤ 8) ∨
      ∃ s', passRound w fuel pos s = .next s' ∧ s'.fleeIndx = s.reset.fleeIndx + 1 ∧ s'.dirList = [] ∧
        s'.fleeIndx ≤ 8 ∧ FoundNothing w fuel pos s := by
  by_cases hstuck : isStuck w pos = true
  · refine .inr (.inl ⟨hstuck, ?_⟩)
    unfold passRound tryWalkSizes
    rw [if_pos hstuck]
  have hfree : isStuck w pos = false := Bool.eq_false_iff.2 hstuck
  have hidx : s.fleeIndx ≤ 8 := h.fleeIndx.resolve_right fun h99 => hstuck h99.2
  have hlt := reset_fleeIndx hidx
  have hdir : s.reset.dirList = [] := (reset_dirList s).trans h.dirList
  rcases tryWalkSizes_spec fuel hfree [15, 9, 3, 1] hlt hdir with
    ⟨htarget, hrun⟩ | ⟨s', hrun, hkeep, hfound, hlast⟩
  · rw [tryWalkSizes_reset] at hrun
    refine .inl ⟨htarget, ?_⟩
    unfold passRound
    rw [hrun]
  rw [tryWalkSizes_reset] at hrun
  unfold passRound
  rw [hrun]
  dsimp only
  cases hf : s'.found with
  | true =>
    refine .inr (.inr (.inl
      ⟨if s'.dirList.isEmpty then { s' with fleeIndx := s'.fleeIndx + 1 } else s', ?_, ?_, ?_⟩))
    · cases hempty : s'.dirList.isEmpty <;> simp [hf, hempty]
    · split_ifs <;> exact hf
    · split_ifs
      · show s'.fleeIndx + 1 ≤ 8
        omega
      · omega
  | false =>
    have hnil : s'.dirList = [] := by
      by_contra hne
      exact absurd (hfound hne) (by simp [hf])
    refine .inr (.inr (.inr ⟨{ s' with fleeIndx := s'.fleeIndx + 1 }, ?_, ?_, hnil, ?_, ?_⟩))
    · simp [hf, hnil]
    · exact congrArg (· + 1) hkeep
    · show s'.fleeIndx + 1 ≤ 8
      omega
    · intro direction path hdirection hpath
      exact absurd (hlast 1 direction path rfl hdirection hpath) (by simp [hf])

/-- What a pass that advances keeps. -/
theorem Started.next {s s' : FleeState} (h : Started w pos s) (hround : passRound w fuel pos s = .next s') :
    Started w pos s' := by
  rcases passRound_spec fuel h with ⟨-, heq⟩ | ⟨-, heq⟩ | ⟨t, heq, -⟩ | ⟨t, heq, -, hdir, hidx, -⟩ <;>
    rw [hround] at heq
  · cases heq
  · cases heq
  · cases heq
  · obtain rfl := Loop.Round.next.inj heq
    exact ⟨hdir, .inl hidx⟩

/-! ## The index -/

/-- An index of a direction, the end of the vector, or the index of a new condition. -/
def Valid (fleeIndx : ℕ) : Prop := fleeIndx ≤ 8 ∨ fleeIndx = 99

theorem value_lt (direction : Direction) : value direction < 8 := by cases direction <;> decide

omit [DecidableEq τ] in
/-- Only a creature that is stuck gets no direction. -/
theorem getFleeDirection_cases (directions : Shuffled) (pos fleeingFromPos : Position) (fleeIndx : ℕ) :
    getFleeDirection w directions.1 pos fleeingFromPos fleeIndx < 8 ∨
      getFleeDirection w directions.1 pos fleeingFromPos fleeIndx = fleeIndx ∧ isStuck w pos = true := by
  unfold getFleeDirection
  dsimp only
  split_ifs with hsame
  · unfold getRandomDirection
    cases hfind : directions.1.find? (canWalkTo w pos) with
    | some direction => exact .inl (value_lt direction)
    | none =>
      refine .inr ⟨rfl, ?_⟩
      rw [List.find?_eq_none] at hfind
      rw [isStuck, Bool.not_eq_true', List.any_eq_false]
      exact fun direction h => hfind direction (directions.2.mem_iff.2 h)
  all_goals first
    | exact .inl (by decide)
    | exact absurd hsame (by omega)

omit [DecidableEq τ] in
theorem valid_getFleeDirection {fleeIndx : ℕ} (h : Valid fleeIndx) (directions : Shuffled)
    (pos fleeingFromPos : Position) : Valid (getFleeDirection w directions.1 pos fleeingFromPos fleeIndx) := by
  rcases getFleeDirection_cases (w := w) directions pos fleeingFromPos fleeIndx with hlt | ⟨heq, -⟩
  · exact .inl hlt.le
  · rwa [heq]

omit [DecidableEq τ] in
/-- The first pass starts with the index of a direction, or ends because the creature is stuck. -/
theorem started_firstIndx {fleeIndx : ℕ} (h : Valid fleeIndx) (directions : Shuffled)
    (pos fleeingFromPos : Position) :
    Started w pos ⟨firstIndx w directions.1 pos fleeingFromPos fleeIndx, false, []⟩ := by
  refine ⟨rfl, ?_⟩
  unfold firstIndx
  dsimp only
  split_ifs with h99
  · rcases getFleeDirection_cases (w := w) directions pos fleeingFromPos fleeIndx with hlt | ⟨heq, hstuck⟩
    · exact .inl hlt.le
    · exact .inr ⟨heq.trans h99, hstuck⟩
  · exact .inl (h.resolve_right h99)

/-- The index after the passes. -/
theorem valid_of_getFleePath {passes fleeIndx fleeIndx' : ℕ} {flee : Flee}
    (h : Started w pos ⟨fleeIndx, false, []⟩) (hrun : getFleePath w fuel passes pos fleeIndx = some flee)
    (hflee : flee.fleeIndx = some fleeIndx') : Valid fleeIndx' := by
  refine Loop.run_invariant (P := Started w pos) (Q := fun flee => ∀ i, flee.fleeIndx = some i → Valid i)
    (fun _ _ hs hround => hs.next hround) ?_ h hrun fleeIndx' hflee
  intro s flee hs hround i hi
  rcases passRound_spec fuel hs with ⟨-, heq⟩ | ⟨-, heq⟩ | ⟨t, heq, -, hidx⟩ | ⟨t, heq, -⟩ <;>
    rw [hround] at heq
  · obtain rfl := Loop.Round.done.inj heq
    cases hi
  · obtain rfl := Loop.Round.done.inj heq
    obtain rfl := Option.some.inj hi
    unfold FleeState.reset
    split_ifs
    · exact .inl (Nat.zero_le 8)
    · exact hs.fleeIndx.imp_right fun h99 => h99.1
  · obtain rfl := Loop.Round.done.inj heq
    obtain rfl := Option.some.inj hi
    exact .inl hidx
  · cases heq

/-- **The index of a condition** is always valid. -/
theorem valid_of_reachable {fleeIndx : ℕ} (h : Reachable τ fleeIndx) : Valid fleeIndx := by
  induction h with
  | new => exact .inr rfl
  | startCondition _ w directions pos fleeingFromPos ih =>
    exact valid_getFleeDirection ih directions pos fleeingFromPos
  | executeCondition _ w directions pos fleeingFromPos hrun hflee ih =>
    unfold executeCondition at hrun
    split_ifs at hrun
    · obtain ⟨flee, hpath, heq⟩ := Option.map_eq_some_iff.1 hrun
      obtain rfl := Option.some.inj heq
      exact valid_of_getFleePath (started_firstIndx ih directions pos fleeingFromPos) hpath hflee
    · cases hrun

/-! ## The passes -/

/-- One of east and west has a target beside the creature. -/
theorem exists_beside (pos : Position) : ∃ i direction, i < 8 ∧ directionsVector[i]? = some direction ∧
    Beside pos (futurePos direction 1 pos) := by
  by_cases h : pos.x = 0
  · exact ⟨6, .west, by decide, rfl, beside_west (by rw [h]; decide)⟩
  · exact ⟨2, .east, by decide, rfl, beside_east h⟩

/-- How many advances an index is away from the goal. -/
def advances (goal : ℕ) (s : FleeState) : ℕ := (goal + 8 - s.reset.fleeIndx) % 8

/-- **The passes end**, with eight advances at most: the index goes around, and at one of the
directions the start itself is a match for the last distance. -/
theorem getFleePath_ends {passes fleeIndx : ℕ} (h : Started w pos ⟨fleeIndx, false, []⟩)
    (hclear : (w.getTile pos).any Sight.Tile.blockProjectile = false)
    (hsearch : ∀ targetPos, getPathTo w fuel pos targetPos ≠ none) (hpasses : 8 < passes) :
    ∃ flee, getFleePath w fuel passes pos fleeIndx = some flee ∧
      ((∃ i, flee = .stuck i ∧ isStuck w pos = true) ∨ ∃ s, flee = .path s ∧ s.found = true) := by
  obtain ⟨goal, direction, hgoal, hdirection, hbeside⟩ := exists_beside pos
  have hlt : advances goal ⟨fleeIndx, false, []⟩ < passes :=
    (Nat.mod_lt _ (by decide : 0 < 8)).trans hpasses
  refine Loop.total_of_lt (advances goal) (P := Started w pos) ?_ ?_ h hlt
  · intro s s' hs hround
    refine ⟨hs.next hround, ?_⟩
    rcases passRound_spec fuel hs with ⟨-, heq⟩ | ⟨-, heq⟩ | ⟨t, heq, -⟩ |
      ⟨t, heq, hidx, -, hle, hnothing⟩ <;> rw [hround] at heq
    · cases heq
    · cases heq
    · cases heq
    obtain rfl := Loop.Round.next.inj heq
    -- at the goal there would have been a path
    have hne : s.reset.fleeIndx ≠ goal := by
      intro heq
      obtain ⟨result, hresult⟩ := Option.ne_none_iff_exists'.1 (hsearch (futurePos direction 1 pos))
      obtain ⟨path, rfl⟩ := getPathTo_beside hbeside hclear hresult
      exact hnothing direction path (by rw [heq, hdirection]) hresult
    have hreset : s'.reset.fleeIndx = if s'.fleeIndx = 8 then 0 else s'.fleeIndx := by
      unfold FleeState.reset
      split_ifs <;> rfl
    unfold advances
    rw [hreset]
    split_ifs
    · omega
    · omega
  · intro s flee hs hround
    rcases passRound_spec fuel hs with ⟨⟨targetPos, hnone⟩, -⟩ | ⟨hstuck, heq⟩ | ⟨t, heq, hfound, -⟩ |
      ⟨t, heq, -⟩
    · exact absurd hnone (hsearch targetPos)
    · rw [hround] at heq
      exact .inl ⟨_, Loop.Round.done.inj heq, hstuck⟩
    · rw [hround] at heq
      exact .inr ⟨t, Loop.Round.done.inj heq, hfound⟩
    · rw [hround] at heq
      cases heq

/-- Passes depend on the fuel only through the searches. -/
theorem tryWalkSizes_congr {fuel' : ℕ}
    (h : ∀ targetPos, getPathTo w fuel' pos targetPos = getPathTo w fuel pos targetPos) (walkSize : List UInt16)
    (s : FleeState) : tryWalkSizes w fuel' pos walkSize s = tryWalkSizes w fuel pos walkSize s := by
  induction walkSize generalizing s with
  | nil => rfl
  | cons wsize walkSize ih => simp only [tryWalkSizes, h, ih]

theorem passRound_congr {fuel' : ℕ}
    (h : ∀ targetPos, getPathTo w fuel' pos targetPos = getPathTo w fuel pos targetPos) :
    passRound w fuel' pos = passRound w fuel pos := by
  funext s
  unfold passRound
  rw [tryWalkSizes_congr h]

variable (w pos) in
/-- How a pass ends: with false for a creature that is stuck, with a path, or with the next
index. -/
def PassEnds (fuel : ℕ) (s : FleeState) : Prop :=
  (∃ i, passRound w fuel pos s = .done (.stuck i) ∧ isStuck w pos = true) ∨
  (∃ s', passRound w fuel pos s = .done (.path s') ∧ s'.found = true) ∨
    ∃ s', passRound w fuel pos s = .next s' ∧ s'.fleeIndx = s.reset.fleeIndx + 1

theorem Started.passEnds {s : FleeState} (h : Started w pos s)
    (hsearch : ∀ targetPos, getPathTo w fuel pos targetPos ≠ none) : PassEnds w pos fuel s := by
  rcases passRound_spec fuel h with ⟨⟨targetPos, hnone⟩, -⟩ | ⟨hstuck, heq⟩ | ⟨t, heq, hfound, -⟩ |
    ⟨t, heq, hidx, -⟩
  · exact absurd hnone (hsearch targetPos)
  · exact .inl ⟨_, heq, hstuck⟩
  · exact .inr (.inl ⟨t, heq, hfound⟩)
  · exact .inr (.inr ⟨t, heq, hidx⟩)

/-- **The flee-path search ends.** A condition is executed for a creature on a tile that does not
block projectiles. The lines of sight that its searches ask for return. With enough fuel, every pass
finds the creature stuck, finds a path, or advances the index, and after at most eight advances one
of the first two happens, so that the function returns and the vector of directions is not read
outside its entries. -/
theorem executeCondition_ends (w : World τ) (directions : Shuffled) (pos fleeingFromPos : Position)
    (walkSize : ℕ) {fleeIndx : ℕ} (hreach : Reachable τ fleeIndx)
    (hclear : (w.getTile pos).any Sight.Tile.blockProjectile = false) :
    (∀ testPos targetPos, isInRange targetPos pos fleeParams testPos = true →
      ∃ clear, isSightClear w.getTile testPos targetPos true = some clear) ∧
    ∃ fuel outcome,
      (∀ fuel', fuel ≤ fuel' →
        (∀ s, Loop.Reaches (passRound w fuel' pos)
          ⟨firstIndx w directions.1 pos fleeingFromPos fleeIndx, false, []⟩ s → PassEnds w pos fuel' s) ∧
        ∀ passes, 8 < passes →
          executeCondition w fuel' passes directions.1 pos fleeingFromPos walkSize fleeIndx = some outcome) ∧
      ((outcome = none ∧ 2 ≤ walkSize) ∨ (∃ i, outcome = some (.stuck i) ∧ isStuck w pos = true) ∨
        ∃ s, outcome = some (.path s) ∧ s.found = true) := by
  refine ⟨fun testPos targetPos hrange => ?_, ?_⟩
  · obtain ⟨hx, hy⟩ := isInRange_iff.1 hrange
    exact isSightClear_returns w.getTile hx hy
  obtain ⟨result, fuel, hresult⟩ := getPathTo_total w pos
  have hstart := started_firstIndx (w := w) (valid_of_reachable hreach) directions pos fleeingFromPos
  have hsearch : ∀ fuel', fuel ≤ fuel' → ∀ targetPos, getPathTo w fuel' pos targetPos ≠ none := by
    intro fuel' hle targetPos
    rw [hresult fuel' hle targetPos]
    exact Option.some_ne_none _
  have hpass : ∀ fuel', fuel ≤ fuel' → ∀ s, Loop.Reaches (passRound w fuel' pos)
      ⟨firstIndx w directions.1 pos fleeingFromPos fleeIndx, false, []⟩ s → PassEnds w pos fuel' s :=
    fun fuel' hle s hs => (hs.invariant hstart fun _ _ h hround => h.next hround).passEnds (hsearch fuel' hle)
  by_cases hwalk : walkSize < 2
  · obtain ⟨flee, hrun, hflee⟩ := getFleePath_ends hstart hclear (hsearch fuel le_rfl) (Nat.lt_succ_self 8)
    refine ⟨fuel, some flee, fun fuel' hle => ⟨hpass fuel' hle, fun passes hpasses => ?_⟩, .inr ?_⟩
    · have hcongr : passRound w fuel' pos = passRound w fuel pos :=
        passRound_congr fun targetPos => (hresult fuel' hle targetPos).trans (hresult fuel le_rfl targetPos).symm
      have hmore : getFleePath w fuel' passes pos (firstIndx w directions.1 pos fleeingFromPos fleeIndx) =
          some flee := by
        rw [getFleePath, hcongr]
        exact Loop.run_of_le hrun hpasses
      rw [executeCondition, if_pos hwalk, hmore]
      rfl
    · rcases hflee with ⟨i, rfl, hstuck⟩ | ⟨s, rfl, hfound⟩
      · exact .inl ⟨i, rfl, hstuck⟩
      · exact .inr ⟨s, rfl, hfound⟩
  · refine ⟨fuel, none, fun fuel' hle => ⟨hpass fuel' hle, fun passes _ => ?_⟩, .inl ⟨rfl, by omega⟩⟩
    rw [executeCondition, if_neg hwalk]

end Passes

/-! ## A creature in a lane -/

/-- A player, and tiles that nothing stands on, in a lane from west to east. -/
def lane : World Unit where
  map :=
    { getTile := fun pos => if pos.y = 100 ∧ 90 ≤ pos.x ∧ pos.x ≤ 110 then some () else none
      blockSolid := fun _ => false
      getFieldItem := fun _ => none }
  sightTile := fun _ => ⟨false, 1⟩
  creature :=
    { isRemoved := false
      getTile := some ()
      getWalkCache := fun _ => 2
      queryAdd := fun _ => true
      seesCreature := fun _ => false
      isImmune := fun _ => false
      hasCondition := fun _ => false
      monster := none
      isPlayer := true }
  queryAdd := fun _ => true

theorem executeCondition_ends_lane :
    (lane.getTile ⟨100, 100, 7⟩).any Sight.Tile.blockProjectile = false ∧
      ∃ fuel outcome,
        (∀ fuel', fuel ≤ fuel' → ∀ passes, 8 < passes →
          executeCondition lane fuel' passes directionsVector ⟨100, 100, 7⟩ ⟨101, 100, 7⟩ 0 99 =
            some outcome) ∧
        ((outcome = none ∧ 2 ≤ 0) ∨ (∃ i, outcome = some (.stuck i) ∧ isStuck lane ⟨100, 100, 7⟩ = true) ∨
          ∃ s, outcome = some (.path s) ∧ s.found = true) := by
  refine ⟨by decide, ?_⟩
  obtain ⟨-, fuel, outcome, hrun, hcases⟩ := executeCondition_ends lane ⟨directionsVector, .refl _⟩
    ⟨100, 100, 7⟩ ⟨101, 100, 7⟩ 0 .new (by decide)
  exact ⟨fuel, outcome, fun fuel' hle => (hrun fuel' hle).2, hcases⟩

end TiabloServer.Feared
