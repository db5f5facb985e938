import TiabloServer.Lib.Loop
import TiabloServer.Map.Position

/-!
# Pathfinding

`Map::getPathMatching` (`map/map.cpp`) searches for a way of a creature to a position that meets a
condition. It opens at most 512 nodes (`map/utils/astarnodes.cpp`), and reopens a node that it comes
to at a lower cost. The condition is that of `FrozenPathingConditionCall`
(`creatures/creature.cpp`).

Tiles are those of a map that does not change during the search. What the search asks a creature and
the line of sight is given by functions.

## Main definitions

* `Pathfinding.AStarNodes` — the nodes and their operations.
* `Pathfinding.getPathMatching` — the search, with fuel for its loops.
-/

namespace TiabloServer.Pathfinding

/-! ## Maps and creatures -/

/-- What a search reads of a magic field. -/
structure MagicField where
  combatType : ℕ
  isBlocking : Bool
  damage : ℤ

/-- The tiles of a map. -/
structure TileMap (τ : Type*) where
  getTile : Position → Option τ
  /-- `hasFlag(TILESTATE_BLOCKSOLID)` -/
  blockSolid : τ → Bool
  getFieldItem : τ → Option MagicField

/-- What a search asks a creature. -/
structure Creature (τ : Type*) where
  isRemoved : Bool
  getTile : Option τ
  getWalkCache : Position → ℤ
  /-- `queryAdd` of a tile returns `RETURNVALUE_NOERROR` for the creature. -/
  queryAdd : τ → Bool
  /-- `getTopVisibleCreature` of a tile is a creature. -/
  seesCreature : τ → Bool
  isImmune : ℕ → Bool
  /-- `hasCondition`, of the condition of a combat type. -/
  hasCondition : ℕ → Bool
  /-- `canWalkOnFieldType`, of a monster. -/
  monster : Option (ℕ → Bool)
  isPlayer : Bool

section Tiles

variable {τ : Type*} [DecidableEq τ] (map : TileMap τ)

/-- `Map::canWalkTo`. -/
def canWalkTo (creature : Option (Creature τ)) (pos : Position) : Option τ :=
  match creature with
  | none => none
  | some creature =>
    if creature.isRemoved then none
    else
      let walkCache := creature.getWalkCache pos
      if walkCache = 0 then none
      else if walkCache = 1 then map.getTile pos
      else
        let tile := map.getTile pos
        if creature.getTile ≠ tile then
          match tile with
          | some t => if creature.queryAdd t then tile else none
          | none => none
        else tile

def MAP_NORMALWALKCOST : ℕ := 10
def MAP_PREFERDIAGONALWALKCOST : ℕ := 14
def MAP_DIAGONALWALKCOST : ℕ := 25

/-- `AStarNodes::getTileWalkCost`. -/
def getTileWalkCost (creature : Option (Creature τ)) (tile : τ) : ℕ :=
  match creature with
  | none => 0
  | some creature =>
    let cost := if creature.seesCreature tile then MAP_NORMALWALKCOST * 3 else 0
    match map.getFieldItem tile with
    | none => cost
    | some field =>
      let cost :=
        if !creature.isImmune field.combatType && !creature.hasCondition field.combatType &&
            creature.monster.any fun canWalkOnFieldType => !canWalkOnFieldType field.combatType
        then cost + MAP_NORMALWALKCOST * 18 else cost
      if creature.isPlayer && !field.isBlocking && field.damage != 0 then
        cost + MAP_NORMALWALKCOST * 18
      else cost

end Tiles

/-! ## Positions -/

/-- The directions of a step. -/
inductive Direction where
  | north
  | east
  | south
  | west
  | southwest
  | southeast
  | northwest
  | northeast
  deriving DecidableEq

def getNextPosition (direction : Direction) (pos : Position) : Position :=
  match direction with
  | .north => { pos with y := pos.y - 1 }
  | .south => { pos with y := pos.y + 1 }
  | .west => { pos with x := pos.x - 1 }
  | .east => { pos with x := pos.x + 1 }
  | .southwest => { pos with x := pos.x - 1, y := pos.y + 1 }
  | .northwest => { pos with x := pos.x - 1, y := pos.y - 1 }
  | .northeast => { pos with x := pos.x + 1, y := pos.y - 1 }
  | .southeast => { pos with x := pos.x + 1, y := pos.y + 1 }

/-- `Position::getDistanceX`. -/
def getDistanceX (p1 p2 : Position) : ℤ := |(p1.x.toNat : ℤ) - p2.x.toNat|

/-- `Position::getDistanceY`. -/
def getDistanceY (p1 p2 : Position) : ℤ := |(p1.y.toNat : ℤ) - p2.y.toNat|

/-! ## The condition -/

structure FindPathParams where
  fullPathSearch : Bool
  clearSight : Bool
  allowDiagonal : Bool
  keepDistance : Bool
  maxSearchDist : ℤ
  minTargetDist : ℤ
  maxTargetDist : ℤ

section Condition

variable (targetPos startPos : Position) (fpp : FindPathParams)

/-- `FrozenPathingConditionCall::isInRange`. -/
def isInRange (testPos : Position) : Bool :=
  let testX : ℤ := testPos.x.toNat
  let testY : ℤ := testPos.y.toNat
  let targetX : ℤ := targetPos.x.toNat
  let targetY : ℤ := targetPos.y.toNat
  if fpp.fullPathSearch then
    !(decide (testX > targetX + fpp.maxTargetDist) || decide (testX < targetX - fpp.maxTargetDist) ||
      decide (testY > targetY + fpp.maxTargetDist) || decide (testY < targetY - fpp.maxTargetDist))
  else
    let dx : ℤ := (startPos.x.toNat : ℤ) - targetX
    let dxMax := if dx ≥ 0 then fpp.maxTargetDist else 0
    let dxMin := if dx ≤ 0 then fpp.maxTargetDist else 0
    let dy : ℤ := (startPos.y.toNat : ℤ) - targetY
    let dyMax := if dy ≥ 0 then fpp.maxTargetDist else 0
    let dyMin := if dy ≤ 0 then fpp.maxTargetDist else 0
    !(decide (testX > targetX + dxMax) || decide (testX < targetX - dxMin) ||
      decide (testY > targetY + dyMax) || decide (testY < targetY - dyMin))

/-- The condition of `FrozenPathingConditionCall`: where it is true, the best distance after it. -/
def pathCondition (isSightClear : Position → Position → Bool) (testPos : Position)
    (bestMatchDist : ℤ) : Option ℤ :=
  if !isInRange targetPos startPos fpp testPos then none
  else if fpp.clearSight && !isSightClear testPos targetPos then none
  else
    let testDist := max (getDistanceX targetPos testPos) (getDistanceY targetPos testPos)
    if fpp.maxTargetDist = 1 then
      if testDist < fpp.minTargetDist ∨ testDist > fpp.maxTargetDist then none
      else some bestMatchDist
    else if testDist ≤ fpp.maxTargetDist then
      if testDist < fpp.minTargetDist then none
      else if testDist = fpp.maxTargetDist then some 0
      else if testDist > bestMatchDist then some testDist
      else none
    else none

end Condition

/-! ## Nodes -/

structure AStarNode where
  parent : Option ℕ
  f : ℕ
  x : UInt16
  y : UInt16

structure AStarNodes where
  nodes : ℕ → AStarNode
  openNodes : ℕ → Bool
  nodeTable : UInt32 → Option ℕ
  curNode : ℕ
  closedNodes : ℤ

namespace AStarNodes

def MAX_NODES : ℕ := 512

/-- The key of a position in the table of nodes. -/
def key (x y : UInt16) : UInt32 := (x.toUInt32 <<< 16) ||| y.toUInt32

/-- The nodes at the start of a search. -/
def new (x y : UInt16) : AStarNodes where
  nodes := fun _ => ⟨none, 0, x, y⟩
  openNodes := fun i => i == 0
  nodeTable := Function.update (fun _ => none) (key x y) (some 0)
  curNode := 1
  closedNodes := 0

variable (nodes : AStarNodes)

def createOpenNode (parent : ℕ) (x y : UInt16) (f : ℕ) : Option AStarNodes :=
  if nodes.curNode ≥ MAX_NODES then none
  else
    let retNode := nodes.curNode
    some { nodes with
      curNode := nodes.curNode + 1
      openNodes := Function.update nodes.openNodes retNode true
      nodeTable := Function.update nodes.nodeTable (key x y) (some retNode)
      nodes := Function.update nodes.nodes retNode ⟨some parent, f, x, y⟩ }

/-- A round of the loop of `getBestNode`. -/
def betterNode (best : ℕ × Option ℕ) (i : ℕ) : ℕ × Option ℕ :=
  if nodes.openNodes i && decide ((nodes.nodes i).f < best.1) then ((nodes.nodes i).f, some i)
  else best

def getBestNode : Option ℕ :=
  ((List.range nodes.curNode).foldl nodes.betterNode (2 ^ 31 - 1, none)).2

def closeNode (node : ℕ) : AStarNodes :=
  if node ≥ MAX_NODES then nodes
  else
    { nodes with
      openNodes := Function.update nodes.openNodes node false
      closedNodes := nodes.closedNodes + 1 }

def openNode (node : ℕ) : AStarNodes :=
  if node ≥ MAX_NODES then nodes
  else if nodes.openNodes node then nodes
  else
    { nodes with
      openNodes := Function.update nodes.openNodes node true
      closedNodes := nodes.closedNodes - 1 }

def getNodeByPosition (x y : UInt16) : Option ℕ := nodes.nodeTable (key x y)

/-- A node gets a lower cost and another parent. -/
def setParent (node : ℕ) (f parent : ℕ) : AStarNodes :=
  { nodes with
    nodes := Function.update nodes.nodes node
      { nodes.nodes node with f := f, parent := some parent } }

end AStarNodes

/-- `AStarNodes::getMapWalkCost`. -/
def getMapWalkCost (x y : UInt16) (neighborPos : Position) (preferDiagonal : Bool) : ℕ :=
  if |(x.toNat : ℤ) - neighborPos.x.toNat| = |(y.toNat : ℤ) - neighborPos.y.toNat| then
    if preferDiagonal then MAP_PREFERDIAGONALWALKCOST else MAP_DIAGONALWALKCOST
  else MAP_NORMALWALKCOST

/-! ## The search -/

def allNeighbors : List (ℤ × ℤ) :=
  [(-1, 0), (0, 1), (1, 0), (0, -1), (-1, -1), (1, -1), (1, 1), (-1, 1)]

def dirNeighbors : Direction → List (ℤ × ℤ)
  | .north => [(-1, 0), (0, 1), (1, 0), (1, 1), (-1, 1)]
  | .east => [(-1, 0), (0, 1), (0, -1), (-1, -1), (-1, 1)]
  | .south => [(-1, 0), (1, 0), (0, -1), (-1, -1), (1, -1)]
  | .west => [(0, 1), (1, 0), (0, -1), (1, -1), (1, 1)]
  | .southwest => [(1, 0), (0, -1), (-1, -1), (1, -1), (1, 1)]
  | .southeast => [(-1, 0), (0, -1), (-1, -1), (1, -1), (-1, 1)]
  | .northwest => [(0, 1), (1, 0), (1, -1), (1, 1), (-1, 1)]
  | .northeast => [(-1, 0), (0, 1), (-1, -1), (1, 1), (-1, 1)]

/-- The direction from which the search has come to a node. -/
def arrival (allowDiagonal : Bool) (offset_x offset_y : ℤ) : Direction :=
  if offset_y = 0 then
    if offset_x = -1 then .west else .east
  else if !allowDiagonal || offset_x = 0 then
    if offset_y = -1 then .north else .south
  else if offset_y = -1 then
    if offset_x = -1 then .northwest else .northeast
  else if offset_x = -1 then .southwest
  else .southeast

/-- The neighbours of a node that the search looks at. -/
def neighbors (nodes : AStarNodes) (fpp : FindPathParams) (n : ℕ) : List (ℤ × ℤ) :=
  let node := nodes.nodes n
  match node.parent with
  | some parent =>
    let offset_x : ℤ := ((nodes.nodes parent).x.toNat : ℤ) - node.x.toNat
    let offset_y : ℤ := ((nodes.nodes parent).y.toNat : ℤ) - node.y.toNat
    (dirNeighbors (arrival fpp.allowDiagonal offset_x offset_y)).take
      (if fpp.allowDiagonal then 5 else 3)
  | none => allNeighbors

section Search

variable {τ : Type*} [DecidableEq τ] (map : TileMap τ) (creature : Option (Creature τ))
  (startPos targetPos : Position) (isSightClear : Position → Position → Bool)
  (fpp : FindPathParams)

/-- The neighbour of a node at some offset. -/
def neighborPos (x y : UInt16) (offset : ℤ × ℤ) : Position where
  x := UInt16.ofInt (x.toNat + offset.1)
  y := UInt16.ofInt (y.toNat + offset.2)
  z := startPos.z

/-- The tile of a neighbour, if the search goes on to it. -/
def neighborTile (neighborNode : Option ℕ) (pos : Position) : Option τ :=
  let withoutCreature := creature.isNone
  let tile := if neighborNode.isSome || withoutCreature then map.getTile pos
    else canWalkTo map creature pos
  match tile with
  | some t => if neighborNode.isNone && withoutCreature && map.blockSolid t then none else some t
  | none => none

/-- A neighbour that the search passes over because of its position. -/
def skipped (pos : Position) : Bool :=
  (fpp.maxSearchDist != 0 && (decide (getDistanceX startPos pos > fpp.maxSearchDist) ||
    decide (getDistanceY startPos pos > fpp.maxSearchDist))) ||
  (fpp.keepDistance && !isInRange targetPos startPos fpp pos)

/-- The loop over the neighbours of a node, or none if the search ends without a path. -/
def expand (found : Bool) (n : ℕ) (x y : UInt16) (f : ℕ) :
    List (ℤ × ℤ) → AStarNodes → Option AStarNodes
  | [], nodes => some nodes
  | offset :: neighbors, nodes =>
    let pos := neighborPos startPos x y offset
    if skipped startPos targetPos fpp pos then expand found n x y f neighbors nodes
    else
      let neighborNode := nodes.getNodeByPosition pos.x pos.y
      match neighborTile map creature neighborNode pos with
      | none => expand found n x y f neighbors nodes
      | some tile =>
        let cost := getMapWalkCost x y pos creature.isNone
        let extraCost := getTileWalkCost map creature tile
        let newf := f + cost + extraCost
        match neighborNode with
        | some neighborNode =>
          if (nodes.nodes neighborNode).f ≤ newf then expand found n x y f neighbors nodes
          else
            expand found n x y f neighbors
              ((nodes.setParent neighborNode newf n).openNode neighborNode)
        | none =>
          match nodes.createOpenNode n pos.x pos.y newf with
          | some nodes => expand found n x y f neighbors nodes
          | none => if found then some nodes else none

/-- The variables of the search. -/
structure SearchState where
  nodes : AStarNodes
  bestMatch : ℤ
  found : Option ℕ
  endPos : Position

/-- What the search has found: the nodes, the last node and its position. -/
abbrev Found := AStarNodes × ℕ × Position

/-- What is left after the search. -/
def SearchState.result (s : SearchState) : Option Found := s.found.map fun found =>
  (s.nodes, found, s.endPos)

/-- The test of the node that is looked at. -/
def SearchState.visit (s : SearchState) (n : ℕ) : Option SearchState :=
  let pos : Position := ⟨(s.nodes.nodes n).x, (s.nodes.nodes n).y, startPos.z⟩
  (pathCondition targetPos startPos fpp isSightClear pos s.bestMatch).map fun bestMatch =>
    { s with bestMatch := bestMatch, found := some n, endPos := pos }

/-- The neighbours of a node are opened, and the node is closed. -/
def expandNode (s : SearchState) (n : ℕ) : Loop.Round SearchState (Option Found) :=
  let node := s.nodes.nodes n
  match expand map creature startPos targetPos fpp s.found.isSome n node.x node.y node.f
      (neighbors s.nodes fpp n) s.nodes with
  | some nodes => .next { s with nodes := nodes.closeNode n }
  | none => .done none

/-- A round of the search. -/
def searchRound (s : SearchState) : Loop.Round SearchState (Option Found) :=
  if fpp.maxSearchDist ≠ 0 ∨ s.nodes.closedNodes < 100 then
    match s.nodes.getBestNode with
    | none => .done s.result
    | some n =>
      match s.visit startPos targetPos isSightClear fpp n with
      | some s =>
        if s.bestMatch = 0 then .done s.result
        else expandNode map creature startPos targetPos fpp s n
      | none => expandNode map creature startPos targetPos fpp s n
  else .done s.result

/-- The direction of a step back by an offset, if there is one. -/
def stepDirection (dx dy : ℤ) : Option Direction :=
  if dx = 1 ∧ dy = 1 then some .northwest
  else if dx = -1 ∧ dy = 1 then some .northeast
  else if dx = 1 ∧ dy = -1 then some .southwest
  else if dx = -1 ∧ dy = -1 then some .southeast
  else if dx = 1 then some .west
  else if dx = -1 then some .east
  else if dy = 1 then some .north
  else if dy = -1 then some .south
  else none

/-- The variables of the loop along the parents. -/
structure PathState where
  found : Option ℕ
  prevx : ℤ
  prevy : ℤ
  dirList : List Direction

/-- A round of the loop along the parents. -/
def pathRound (nodes : AStarNodes) (s : PathState) : Loop.Round PathState (List Direction) :=
  match s.found with
  | none => .done s.dirList
  | some found =>
    let x : ℤ := (nodes.nodes found).x.toNat
    let y : ℤ := (nodes.nodes found).y.toNat
    .next
      { found := (nodes.nodes found).parent
        prevx := x
        prevy := y
        dirList := (stepDirection (x - s.prevx) (y - s.prevy)).toList ++ s.dirList }

/-- `Map::getPathMatching`: the directions that are pushed, if it returns true. There is no result
when the fuel is not enough for its loops. -/
def getPathMatching (fuel : ℕ) : Option (Option (List Direction)) :=
  (Loop.run (searchRound map creature startPos targetPos isSightClear fpp) fuel
    ⟨.new startPos.x startPos.y, 0, none, ⟨0, 0, 0⟩⟩).bind fun found =>
    match found with
    | none => some none
    | some (nodes, found, endPos) =>
      (Loop.run (pathRound nodes) fuel
        ⟨(nodes.nodes found).parent, endPos.x.toNat, endPos.y.toNat, []⟩).map some

end Search

end TiabloServer.Pathfinding
