import TiabloServer.Map.Pathfinding

/-!
# Paths are walks

The search of `Map::getPathMatching` ends, and the directions it returns lead from the start over
tiles a creature may stand on to a position at which the condition was true. The nodes form a tree
with the start as its root: the cost of a node is above that of its parent, also when it is reopened
later on, so that the way along the parents ends.

## Main definitions

* `Pathfinding.Tree` — what holds of the nodes.
* `Pathfinding.RealWalk` — directions that lead over positions a creature may stand on.

## Main results

* `Pathfinding.expand_spec` — the loop over the neighbours keeps the tree.
* `Pathfinding.getPathMatching_realWalk` — the search ends, and its result is a real walk.
-/

namespace TiabloServer.Pathfinding

/-! ## Steps -/

/-- The second position is one step from the first, by some offset. -/
def Adjacent (x y x' y' : UInt16) : Prop :=
  ∃ offset ∈ allNeighbors, (x'.toNat : ℤ) = x.toNat + offset.1 ∧ (y'.toNat : ℤ) = y.toNat + offset.2

/-- One step up as integers is one step up as 16-bit coordinates. -/
theorem eq_add_one {x x' : UInt16} (h : (x'.toNat : ℤ) = x.toNat + 1) : x' = x + 1 := by
  have hlt : x'.toNat < 2 ^ 16 := x'.toNat_lt
  refine UInt16.toNat_inj.1 ?_
  rw [UInt16.toNat_add, UInt16.toNat_one, Nat.mod_eq_of_lt] <;> omega

/-- One step down as integers is one step down as coordinates. -/
theorem eq_sub_one {x x' : UInt16} (h : (x'.toNat : ℤ) = x.toNat - 1) : x' = x - 1 := by
  have hback : x = x' + 1 := eq_add_one (by omega)
  rw [hback, UInt16.add_sub_cancel]

theorem eq_of_toNat {x x' : UInt16} (h : (x'.toNat : ℤ) = x.toNat) : x' = x :=
  UInt16.toNat_inj.1 (by omega)

/-- The direction that is pushed for a step leads from one position to the other. -/
theorem stepDirection_of_adjacent {x y x' y' : UInt16} (z : UInt8) (h : Adjacent x y x' y') :
    ∃ direction, stepDirection ((x.toNat : ℤ) - x'.toNat) ((y.toNat : ℤ) - y'.toNat) = some direction ∧
      getNextPosition direction ⟨x, y, z⟩ = ⟨x', y', z⟩ := by
  obtain ⟨offset, hmem, hx, hy⟩ := h
  have hdx : (x.toNat : ℤ) - x'.toNat = -offset.1 := by omega
  have hdy : (y.toNat : ℤ) - y'.toNat = -offset.2 := by omega
  rw [hdx, hdy]
  simp only [allNeighbors, List.mem_cons, List.not_mem_nil, or_false] at hmem
  rcases hmem with rfl | rfl | rfl | rfl | rfl | rfl | rfl | rfl
  · exact ⟨.west, rfl, by rw [eq_sub_one hx, eq_of_toNat (hy.trans (add_zero _))]; rfl⟩
  · exact ⟨.south, rfl, by rw [eq_of_toNat (hx.trans (add_zero _)), eq_add_one hy]; rfl⟩
  · exact ⟨.east, rfl, by rw [eq_add_one hx, eq_of_toNat (hy.trans (add_zero _))]; rfl⟩
  · exact ⟨.north, rfl, by rw [eq_of_toNat (hx.trans (add_zero _)), eq_sub_one hy]; rfl⟩
  · exact ⟨.northwest, rfl, by rw [eq_sub_one hx, eq_sub_one hy]; rfl⟩
  · exact ⟨.northeast, rfl, by rw [eq_add_one hx, eq_sub_one hy]; rfl⟩
  · exact ⟨.southeast, rfl, by rw [eq_add_one hx, eq_add_one hy]; rfl⟩
  · exact ⟨.southwest, rfl, by rw [eq_sub_one hx, eq_add_one hy]; rfl⟩

/-- A coordinate strictly inside its range. -/
def Inside (x : UInt16) : Prop := 0 < x.toNat ∧ x.toNat < 65535

/-- A coordinate inside its range has not been wrapped by a step. -/
theorem toNat_ofInt_add {x : UInt16} {d : ℤ} (hd : d = -1 ∨ d = 0 ∨ d = 1)
    (h : Inside (UInt16.ofInt (x.toNat + d))) : ((UInt16.ofInt (x.toNat + d)).toNat : ℤ) = x.toNat + d := by
  obtain ⟨h0, h1⟩ := h
  have hlt : x.toNat < 2 ^ 16 := x.toNat_lt
  simp only [UInt16.ofInt, UInt16.toNat_ofNat'] at h0 h1 ⊢
  omega

/-- A coordinate that has not gone far has not been wrapped by a step. -/
theorem toNat_ofInt_near {x : UInt16} {d : ℤ} (hd : d = -1 ∨ d = 0 ∨ d = 1)
    (h : |((UInt16.ofInt (x.toNat + d)).toNat : ℤ) - x.toNat| < 65535) :
    ((UInt16.ofInt (x.toNat + d)).toNat : ℤ) = x.toNat + d := by
  have hlt : x.toNat < 2 ^ 16 := x.toNat_lt
  rw [abs_lt] at h
  simp only [UInt16.ofInt, UInt16.toNat_ofNat'] at h ⊢
  omega

theorem mem_allNeighbors {offset : ℤ × ℤ} (h : offset ∈ allNeighbors) :
    (offset.1 = -1 ∨ offset.1 = 0 ∨ offset.1 = 1) ∧ (offset.2 = -1 ∨ offset.2 = 0 ∨ offset.2 = 1) ∧
      ¬ (offset.1 = 0 ∧ offset.2 = 0) := by
  simp only [allNeighbors, List.mem_cons, List.not_mem_nil, or_false] at h
  rcases h with rfl | rfl | rfl | rfl | rfl | rfl | rfl | rfl <;> simp

theorem dirNeighbors_subset (direction : Direction) : dirNeighbors direction ⊆ allNeighbors := by
  cases direction <;> decide

theorem neighbors_subset (nodes : AStarNodes) (fpp : FindPathParams) (n : ℕ) :
    neighbors nodes fpp n ⊆ allNeighbors := by
  rw [neighbors]
  simp only
  split
  · exact fun offset h => dirNeighbors_subset _ (List.mem_of_mem_take h)
  · exact List.Subset.refl _

/-- A neighbour inside the coordinate range is one step away. -/
theorem adjacent_neighborPos {startPos : Position} {x y : UInt16} {offset : ℤ × ℤ}
    (h : offset ∈ allNeighbors) (hx : Inside (neighborPos startPos x y offset).x)
    (hy : Inside (neighborPos startPos x y offset).y) :
    Adjacent x y (neighborPos startPos x y offset).x (neighborPos startPos x y offset).y :=
  ⟨offset, h, toNat_ofInt_add (mem_allNeighbors h).1 hx,
    toNat_ofInt_add (mem_allNeighbors h).2.1 hy⟩

/-! ## The table of nodes -/

namespace AStarNodes

theorem toNat_key (x y : UInt16) : (key x y).toNat = x.toNat * 2 ^ 16 + y.toNat := by
  have hx : x.toNat < 2 ^ 16 := x.toNat_lt
  have hy : y.toNat < 2 ^ 16 := y.toNat_lt
  have hshift : (x.toUInt32 <<< 16).toNat = x.toNat <<< 16 := by
    rw [UInt32.toNat_shiftLeft, UInt16.toNat_toUInt32]
    exact Nat.mod_eq_of_lt (by rw [Nat.shiftLeft_eq]; simp; omega)
  rw [key, UInt32.toNat_or, hshift, UInt16.toNat_toUInt32, ← Nat.shiftLeft_add_eq_or_of_lt hy,
    Nat.shiftLeft_eq]

/-- Positions have keys of their own. -/
theorem key_injective {x y x' y' : UInt16} (h : key x y = key x' y') : x = x' ∧ y = y' := by
  have hx : x.toNat < 2 ^ 16 := x.toNat_lt
  have hy : y.toNat < 2 ^ 16 := y.toNat_lt
  have hy' : y'.toNat < 2 ^ 16 := y'.toNat_lt
  have heq : x.toNat * 2 ^ 16 + y.toNat = x'.toNat * 2 ^ 16 + y'.toNat := by
    rw [← toNat_key, ← toNat_key, h]
  exact ⟨UInt16.toNat_inj.1 (by omega), UInt16.toNat_inj.1 (by omega)⟩

variable (nodes : AStarNodes)

/-- The position of a node. -/
def pos (z : UInt8) (i : ℕ) : Position := ⟨(nodes.nodes i).x, (nodes.nodes i).y, z⟩

/-- A node has a parent of a lower cost, one step away. -/
def HasParent (i : ℕ) : Prop :=
  ∃ p < nodes.curNode, (nodes.nodes i).parent = some p ∧ (nodes.nodes p).f < (nodes.nodes i).f ∧
    Adjacent (nodes.nodes p).x (nodes.nodes p).y (nodes.nodes i).x (nodes.nodes i).y

/-- Decreases when a node is added or gets a lower cost. -/
def potential : ℕ ×ₗ ℕ :=
  toLex (MAX_NODES - nodes.curNode, ∑ i ∈ Finset.range MAX_NODES, (nodes.nodes i).f)

variable {nodes}

@[simp] theorem openNode_nodes (i : ℕ) : (nodes.openNode i).nodes = nodes.nodes := by
  unfold openNode
  split_ifs <;> rfl

@[simp] theorem openNode_curNode (i : ℕ) : (nodes.openNode i).curNode = nodes.curNode := by
  unfold openNode
  split_ifs <;> rfl

@[simp] theorem openNode_nodeTable (i : ℕ) : (nodes.openNode i).nodeTable = nodes.nodeTable := by
  unfold openNode
  split_ifs <;> rfl

@[simp] theorem closeNode_nodes (i : ℕ) : (nodes.closeNode i).nodes = nodes.nodes := by
  unfold closeNode
  split_ifs <;> rfl

@[simp] theorem closeNode_curNode (i : ℕ) : (nodes.closeNode i).curNode = nodes.curNode := by
  unfold closeNode
  split_ifs <;> rfl

@[simp] theorem closeNode_nodeTable (i : ℕ) : (nodes.closeNode i).nodeTable = nodes.nodeTable := by
  unfold closeNode
  split_ifs <;> rfl

theorem createOpenNode_eq_some {nodes' : AStarNodes} {parent f : ℕ} {x y : UInt16}
    (h : nodes.createOpenNode parent x y f = some nodes') :
    nodes.curNode < MAX_NODES ∧ nodes'.curNode = nodes.curNode + 1 ∧
      nodes'.nodeTable = Function.update nodes.nodeTable (key x y) (some nodes.curNode) ∧
      nodes'.nodes = Function.update nodes.nodes nodes.curNode ⟨some parent, f, x, y⟩ := by
  rw [createOpenNode] at h
  split_ifs at h with hfull
  obtain rfl := Option.some.inj h
  exact ⟨by omega, rfl, rfl, rfl⟩

theorem toLex_lt_of_snd {α : Type*} [Preorder α] {a : α} {m n : ℕ} (h : m < n) : toLex (a, m) < toLex (a, n) :=
  Prod.Lex.toLex_lt_toLex.2 (Or.inr ⟨rfl, h⟩)

theorem potential_lt_of_sum {nodes' : AStarNodes} (hcur : nodes'.curNode = nodes.curNode)
    (hsum : ∑ i ∈ Finset.range MAX_NODES, (nodes'.nodes i).f <
      ∑ i ∈ Finset.range MAX_NODES, (nodes.nodes i).f) : nodes'.potential < nodes.potential := by
  rw [potential, potential, hcur]
  exact toLex_lt_of_snd hsum

theorem potential_lt_of_curNode {nodes' : AStarNodes} (hlt : nodes.curNode < nodes'.curNode)
    (hfull : nodes.curNode < MAX_NODES) : nodes'.potential < nodes.potential := by
  rw [potential, potential, Prod.Lex.toLex_lt_toLex]
  refine Or.inl ?_
  show MAX_NODES - nodes'.curNode < MAX_NODES - nodes.curNode
  omega

/-! ### The best node -/

theorem foldl_betterNode {n : ℕ} (l : List ℕ) {best : ℕ × Option ℕ}
    (h : (l.foldl nodes.betterNode best).2 = some n) : best.2 = some n ∨ n ∈ l ∧ nodes.openNodes n = true := by
  induction l generalizing best with
  | nil => exact Or.inl h
  | cons i l ih =>
    rw [List.foldl_cons] at h
    rcases ih h with h | ⟨hmem, hopen⟩
    · rw [betterNode] at h
      split_ifs at h with hi
      · obtain rfl := Option.some.inj h
        exact Or.inr ⟨List.mem_cons_self, (Bool.and_eq_true_iff.1 hi).1⟩
      · exact Or.inl h
    · exact Or.inr ⟨List.mem_cons_of_mem _ hmem, hopen⟩

/-- The best node is an open one. -/
theorem getBestNode_eq_some {n : ℕ} (h : nodes.getBestNode = some n) :
    n < nodes.curNode ∧ nodes.openNodes n = true := by
  rcases foldl_betterNode _ h with h | ⟨hmem, hopen⟩
  · cases h
  · exact ⟨List.mem_range.1 hmem, hopen⟩

end AStarNodes

/-! ## The tree of nodes -/

section Search

variable {τ : Type*} [DecidableEq τ] (map : TileMap τ) (creature : Option (Creature τ))
  (startPos targetPos : Position) (isSightClear : Position → Position → Bool)
  (fpp : FindPathParams)

/-- The tiles of a map lie strictly inside the range of coordinates. -/
def TilesInside : Prop :=
  ∀ pos t, map.getTile pos = some t → Inside pos.x ∧ Inside pos.y

/-- No step of a search wraps: the tiles lie inside the range of coordinates, or the search stays
near its start. -/
def NoWrap : Prop := TilesInside map ∨ 0 < fpp.maxSearchDist ∧ fpp.maxSearchDist < 30000

/-- The creature may walk to a position; without a creature, the tile there is not solid. -/
def MayStand (pos : Position) : Prop :=
  match creature with
  | some creature => (canWalkTo map (some creature) pos).isSome
  | none => ∃ t, map.getTile pos = some t ∧ map.blockSolid t = false

/-- A position within the distance of the search. -/
def WithinDist (pos : Position) : Prop :=
  fpp.maxSearchDist ≠ 0 →
    getDistanceX startPos pos ≤ fpp.maxSearchDist ∧ getDistanceY startPos pos ≤ fpp.maxSearchDist

/-- The nodes are a tree with the start as its root. -/
structure Tree (nodes : AStarNodes) : Prop where
  pos : 0 < nodes.curNode
  le : nodes.curNode ≤ AStarNodes.MAX_NODES
  root : nodes.nodes 0 = ⟨none, 0, startPos.x, startPos.y⟩
  parent : ∀ i, 0 < i → i < nodes.curNode → nodes.HasParent i
  stand : ∀ i, 0 < i → i < nodes.curNode →
    MayStand map creature (nodes.pos startPos.z i) ∧
      WithinDist startPos fpp (nodes.pos startPos.z i)
  table : ∀ x y i, nodes.getNodeByPosition x y = some i →
    i < nodes.curNode ∧ (nodes.nodes i).x = x ∧ (nodes.nodes i).y = y

/-- What nodes have become: old nodes keep their positions, and a change decreases the potential. -/
structure Grows (nodes nodes' : AStarNodes) : Prop where
  le : nodes.curNode ≤ nodes'.curNode
  pos : ∀ z, ∀ i < nodes.curNode, nodes'.pos z i = nodes.pos z i
  progress : nodes' = nodes ∨ nodes'.potential < nodes.potential

theorem Grows.refl (nodes : AStarNodes) : Grows nodes nodes :=
  ⟨le_rfl, fun _ _ _ => rfl, Or.inl rfl⟩

theorem Grows.trans {nodes nodes' nodes'' : AStarNodes} (h : Grows nodes nodes')
    (h' : Grows nodes' nodes'') : Grows nodes nodes'' where
  le := h.le.trans h'.le
  pos z i hi := (h'.pos z i (hi.trans_le h.le)).trans (h.pos z i hi)
  progress := by
    rcases h'.progress with rfl | hlt
    · exact h.progress
    · rcases h.progress with rfl | hlt'
      · exact Or.inr hlt
      · exact Or.inr (hlt.trans hlt')

variable {map creature startPos targetPos isSightClear fpp} {nodes nodes' : AStarNodes}

theorem Tree.new (x y : UInt16) (hx : x = startPos.x) (hy : y = startPos.y) :
    Tree map creature startPos fpp (.new x y) where
  pos := Nat.one_pos
  le := by simp [AStarNodes.new, AStarNodes.MAX_NODES]
  root := by rw [hx, hy]; rfl
  parent i h0 h1 := absurd h1 (by simp only [AStarNodes.new]; omega)
  stand i h0 h1 := absurd h1 (by simp only [AStarNodes.new]; omega)
  table x' y' i h := by
    simp only [AStarNodes.getNodeByPosition, AStarNodes.new] at h ⊢
    by_cases hkey : AStarNodes.key x' y' = AStarNodes.key x y
    · rw [hkey, Function.update_self] at h
      obtain rfl := Option.some.inj h
      obtain ⟨rfl, rfl⟩ := AStarNodes.key_injective hkey
      exact ⟨Nat.one_pos, rfl, rfl⟩
    · rw [Function.update_of_ne hkey] at h
      cases h

/-- Closing a node changes nothing of the tree. -/
theorem Tree.closeNode (h : Tree map creature startPos fpp nodes) (n : ℕ) :
    Tree map creature startPos fpp (nodes.closeNode n) where
  pos := by simpa using h.pos
  le := by simpa using h.le
  root := by simpa using h.root
  parent := by simpa [AStarNodes.HasParent] using h.parent
  stand := by simpa [AStarNodes.pos] using h.stand
  table := by simpa [AStarNodes.getNodeByPosition] using h.table

/-- A node that the search comes to at a lower cost. -/
theorem Tree.reopen (h : Tree map creature startPos fpp nodes) {i n newf : ℕ}
    (hi : i < nodes.curNode) (hn : n < nodes.curNode) (hf : (nodes.nodes n).f < newf)
    (hlt : newf < (nodes.nodes i).f)
    (hadj : Adjacent (nodes.nodes n).x (nodes.nodes n).y (nodes.nodes i).x (nodes.nodes i).y) :
    Tree map creature startPos fpp ((nodes.setParent i newf n).openNode i) := by
  have hi0 : i ≠ 0 := by
    rintro rfl
    rw [h.root] at hlt
    exact absurd hlt (Nat.not_lt_zero _)
  have hin : n ≠ i := by
    rintro rfl
    omega
  have hcoord (j : ℕ) : ((nodes.setParent i newf n).nodes j).x = (nodes.nodes j).x ∧
      ((nodes.setParent i newf n).nodes j).y = (nodes.nodes j).y := by
    by_cases hj : j = i
    · subst hj
      simp [AStarNodes.setParent]
    · simp [AStarNodes.setParent, Function.update_of_ne hj]
  have hother {j : ℕ} (hj : j ≠ i) : (nodes.setParent i newf n).nodes j = nodes.nodes j :=
    Function.update_of_ne hj _ _
  refine ⟨?_, ?_, ?_, ?_, ?_, ?_⟩
  · simpa [AStarNodes.setParent] using h.pos
  · simpa [AStarNodes.setParent] using h.le
  · rw [AStarNodes.openNode_nodes, hother hi0.symm, h.root]
  · intro j hj0 hj
    have hj' : j < nodes.curNode := by simpa [AStarNodes.setParent] using hj
    simp only [AStarNodes.HasParent, AStarNodes.openNode_nodes, AStarNodes.openNode_curNode, hcoord]
    by_cases hji : j = i
    · subst hji
      have hf' : ((nodes.setParent j newf n).nodes n).f < newf := by rwa [hother hin]
      exact ⟨n, hn, by simp [AStarNodes.setParent], by simpa [AStarNodes.setParent] using hf', hadj⟩
    · obtain ⟨p, hp, hparent, hpf, hpadj⟩ := h.parent j hj0 hj'
      refine ⟨p, hp, by rw [hother hji]; exact hparent, ?_, hpadj⟩
      rw [hother hji]
      -- the parent may be the node whose cost falls
      by_cases hpi : p = i
      · subst hpi
        simp only [AStarNodes.setParent, Function.update_self]
        omega
      · rw [hother hpi]
        exact hpf
  · intro j hj0 hj
    have hj' : j < nodes.curNode := by simpa [AStarNodes.setParent] using hj
    simp only [AStarNodes.pos, AStarNodes.openNode_nodes, hcoord]
    exact h.stand j hj0 hj'
  · intro x y j hj
    simp only [AStarNodes.openNode_nodes, AStarNodes.openNode_curNode, hcoord]
    exact h.table x y j (by simpa [AStarNodes.getNodeByPosition, AStarNodes.setParent] using hj)

theorem Grows.reopen {i newf n : ℕ} (hle : nodes.curNode ≤ AStarNodes.MAX_NODES)
    (hi : i < nodes.curNode) (hlt : newf < (nodes.nodes i).f) :
    Grows nodes ((nodes.setParent i newf n).openNode i) where
  le := by simp [AStarNodes.setParent]
  pos z j _ := by
    by_cases hj : j = i
    · subst hj
      simp [AStarNodes.pos, AStarNodes.setParent]
    · simp [AStarNodes.pos, AStarNodes.setParent, Function.update_of_ne hj]
  progress := by
    refine Or.inr (AStarNodes.potential_lt_of_sum (by simp [AStarNodes.setParent]) ?_)
    refine Finset.sum_lt_sum (fun j _ => ?_) ⟨i, Finset.mem_range.2 (hi.trans_le hle), ?_⟩
    · by_cases hj : j = i
      · subst hj
        simpa [AStarNodes.setParent] using hlt.le
      · simp [AStarNodes.setParent, Function.update_of_ne hj]
    · simpa [AStarNodes.setParent] using hlt

/-- A node at a position that no node has yet. -/
theorem Tree.create (h : Tree map creature startPos fpp nodes) {n newf : ℕ} {x y : UInt16}
    (hn : n < nodes.curNode) (hf : (nodes.nodes n).f < newf)
    (hadj : Adjacent (nodes.nodes n).x (nodes.nodes n).y x y)
    (hstand : MayStand map creature ⟨x, y, startPos.z⟩ ∧ WithinDist startPos fpp ⟨x, y, startPos.z⟩)
    (hcreate : nodes.createOpenNode n x y newf = some nodes') : Tree map creature startPos fpp nodes' := by
  obtain ⟨hfull, hcur, htable, hnodes⟩ := AStarNodes.createOpenNode_eq_some hcreate
  have hold {i : ℕ} (hi : i < nodes.curNode) : nodes'.nodes i = nodes.nodes i := by
    rw [hnodes, Function.update_of_ne hi.ne]
  have hnew : nodes'.nodes nodes.curNode = ⟨some n, newf, x, y⟩ := by
    rw [hnodes, Function.update_self]
  refine ⟨by omega, by omega, ?_, ?_, ?_, ?_⟩
  · rw [hold h.pos, h.root]
  · intro i hi0 hi
    rcases Nat.lt_succ_iff_lt_or_eq.1 (hi.trans_eq hcur) with hi | rfl
    · obtain ⟨p, hp, hparent, hpf, hpadj⟩ := h.parent i hi0 hi
      exact ⟨p, by omega, by rw [hold hi, hparent], by rwa [hold hi, hold hp],
        by rwa [hold hi, hold hp]⟩
    · exact ⟨n, by omega, by rw [hnew], by rwa [hnew, hold hn], by rwa [hnew, hold hn]⟩
  · intro i hi0 hi
    rcases Nat.lt_succ_iff_lt_or_eq.1 (hi.trans_eq hcur) with hi | rfl
    · simpa [AStarNodes.pos, hold hi] using h.stand i hi0 hi
    · simpa [AStarNodes.pos, hnew] using hstand
  · intro x' y' i hi
    rw [AStarNodes.getNodeByPosition, htable] at hi
    by_cases hkey : AStarNodes.key x' y' = AStarNodes.key x y
    · rw [hkey, Function.update_self] at hi
      obtain rfl := Option.some.inj hi
      obtain ⟨rfl, rfl⟩ := AStarNodes.key_injective hkey
      rw [hnew]
      exact ⟨by omega, rfl, rfl⟩
    · rw [Function.update_of_ne hkey] at hi
      obtain ⟨hlt, hx, hy⟩ := h.table x' y' i hi
      exact ⟨by omega, by rw [hold hlt, hx], by rw [hold hlt, hy]⟩

theorem Grows.create {n newf : ℕ} {x y : UInt16}
    (hcreate : nodes.createOpenNode n x y newf = some nodes') : Grows nodes nodes' := by
  obtain ⟨hfull, hcur, -, hnodes⟩ := AStarNodes.createOpenNode_eq_some hcreate
  refine ⟨by omega, fun z i hi => ?_,
    Or.inr (AStarNodes.potential_lt_of_curNode (by omega) (by omega))⟩
  simp [AStarNodes.pos, hnodes, Function.update_of_ne hi.ne]

/-! ## The loop over the neighbours -/

theorem canWalkTo_eq_some {pos : Position} {t : τ} (h : canWalkTo map creature pos = some t) :
    map.getTile pos = some t := by
  unfold canWalkTo at h
  grind

theorem neighborTile_eq_some {neighborNode : Option ℕ} {pos : Position} {t : τ}
    (h : neighborTile map creature neighborNode pos = some t) :
    map.getTile pos = some t ∧ (neighborNode = none → MayStand map creature pos) := by
  unfold neighborTile at h
  cases neighborNode with
  | some i =>
    refine ⟨?_, fun hnone => absurd hnone (Option.some_ne_none i)⟩
    simp only [Option.isSome_some, Bool.true_or, if_true] at h
    grind
  | none =>
    cases creature with
    | some creature =>
      simp only [Option.isSome_none, Option.isNone_some, Bool.or_self, Bool.false_eq_true, if_false,
        Option.isNone_none, Bool.and_false, Bool.false_and] at h
      have hwalk : canWalkTo map (some creature) pos = some t := by grind
      exact ⟨canWalkTo_eq_some hwalk, fun _ => by rw [MayStand, hwalk]; rfl⟩
    | none =>
      simp only [Option.isNone_none, Bool.or_true, if_true, Bool.and_self, Bool.true_and] at h
      have htile : map.getTile pos = some t ∧ map.blockSolid t = false := by grind
      exact ⟨htile.1, fun _ => ⟨t, htile⟩⟩

theorem withinDist_of_not_skipped {pos : Position}
    (h : skipped startPos targetPos fpp pos = false) : WithinDist startPos fpp pos := by
  intro hdist
  simp only [skipped, Bool.or_eq_false_iff, Bool.and_eq_false_iff, bne_eq_false_iff_eq,
    decide_eq_false_iff_not, hdist, false_or] at h
  exact ⟨not_lt.1 h.1.1, not_lt.1 h.1.2⟩

theorem getMapWalkCost_pos (x y : UInt16) (pos : Position) (preferDiagonal : Bool) :
    0 < getMapWalkCost x y pos preferDiagonal := by
  unfold getMapWalkCost
  split_ifs <;> decide

/-- A node is within the distance of the search. -/
theorem Tree.near (h : Tree map creature startPos fpp nodes) (hdist : 0 < fpp.maxSearchDist) {n : ℕ}
    (hn : n < nodes.curNode) : getDistanceX startPos (nodes.pos startPos.z n) ≤ fpp.maxSearchDist ∧
      getDistanceY startPos (nodes.pos startPos.z n) ≤ fpp.maxSearchDist := by
  rcases Nat.eq_zero_or_pos n with rfl | hpos
  · have hstart : nodes.pos startPos.z 0 = startPos := by rw [AStarNodes.pos, h.root]
    rw [hstart, getDistanceX, getDistanceY, sub_self, sub_self, abs_zero]
    exact ⟨hdist.le, hdist.le⟩
  · exact (h.stand n hpos hn).2 hdist.ne'

/-- A neighbour that the search goes on to is one step away. -/
theorem Tree.adjacent (h : Tree map creature startPos fpp nodes) (hwrap : NoWrap map fpp) {n : ℕ}
    (hn : n < nodes.curNode) {offset : ℤ × ℤ} (hoffset : offset ∈ allNeighbors)
    (hskip : skipped startPos targetPos fpp
      (neighborPos startPos (nodes.nodes n).x (nodes.nodes n).y offset) = false) {t : τ}
    (hget : map.getTile (neighborPos startPos (nodes.nodes n).x (nodes.nodes n).y offset) = some t) :
    Adjacent (nodes.nodes n).x (nodes.nodes n).y (neighborPos startPos (nodes.nodes n).x (nodes.nodes n).y offset).x
      (neighborPos startPos (nodes.nodes n).x (nodes.nodes n).y offset).y := by
  rcases hwrap with hinside | ⟨hdist, hlt⟩
  · obtain ⟨hx, hy⟩ := hinside _ _ hget
    exact adjacent_neighborPos hoffset hx hy
  · obtain ⟨hx, hy⟩ := h.near hdist hn
    obtain ⟨hx', hy'⟩ := withinDist_of_not_skipped hskip hdist.ne'
    obtain ⟨hdx, hdy, -⟩ := mem_allNeighbors hoffset
    simp only [getDistanceX, getDistanceY, AStarNodes.pos, neighborPos, abs_le] at hx hy hx' hy'
    refine ⟨offset, hoffset, toNat_ofInt_near hdx ?_, toNat_ofInt_near hdy ?_⟩
    · rw [abs_lt]
      omega
    · rw [abs_lt]
      omega

/-- The loop over the neighbours of a node keeps the tree and that node. -/
theorem expand_spec (hwrap : NoWrap map fpp) {found : Bool} {n : ℕ} {x y : UInt16} {f : ℕ}
    {offsets : List (ℤ × ℤ)} (hoffsets : offsets ⊆ allNeighbors)
    (htree : Tree map creature startPos fpp nodes) (hn : n < nodes.curNode)
    (hnode : (nodes.nodes n).x = x ∧ (nodes.nodes n).y = y ∧ (nodes.nodes n).f = f)
    (h : expand map creature startPos targetPos fpp found n x y f offsets nodes = some nodes') :
    Tree map creature startPos fpp nodes' ∧ Grows nodes nodes' := by
  induction offsets generalizing nodes with
  | nil =>
    obtain rfl := Option.some.inj h
    exact ⟨htree, .refl _⟩
  | cons offset offsets ih =>
    obtain ⟨hoffset, hrest⟩ := List.cons_subset.1 hoffsets
    simp only [expand] at h
    cases hskip : skipped startPos targetPos fpp (neighborPos startPos x y offset) with
    | true =>
      rw [hskip] at h
      exact ih hrest htree hn hnode h
    | false =>
      simp only [hskip, Bool.false_eq_true, if_false] at h
      split at h
      · exact ih hrest htree hn hnode h
      · rename_i t htile
        obtain ⟨hgetTile, hstand⟩ := neighborTile_eq_some htile
        obtain ⟨rfl, rfl, rfl⟩ := hnode
        have hadj := htree.adjacent hwrap hn hoffset hskip hgetTile
        have hcost := getMapWalkCost_pos (nodes.nodes n).x (nodes.nodes n).y
          (neighborPos startPos (nodes.nodes n).x (nodes.nodes n).y offset) creature.isNone
        split at h
        · rename_i i hi
          split_ifs at h with hle
          · exact ih hrest htree hn ⟨rfl, rfl, rfl⟩ h
          · obtain ⟨hlt, hix, hiy⟩ := htree.table _ _ i hi
            have hne : n ≠ i := by
              rintro rfl
              omega
            have hkeep (newf : ℕ) :
                ((nodes.setParent i newf n).openNode i).nodes n = nodes.nodes n := by
              rw [AStarNodes.openNode_nodes]
              exact Function.update_of_ne hne _ _
            have hgrows := Grows.reopen htree.le hlt (not_le.1 hle) (n := n)
            obtain ⟨htree', hgrows'⟩ := ih hrest
              (htree.reopen hlt hn (by omega) (not_le.1 hle) (by rwa [hix, hiy]))
              (hn.trans_le hgrows.le) (by rw [hkeep]; exact ⟨rfl, rfl, rfl⟩) h
            exact ⟨htree', hgrows.trans hgrows'⟩
        · rename_i hnone
          split at h
          · rename_i nodes'' hcreate
            have hgrows := Grows.create hcreate
            obtain ⟨-, -, -, hnodes⟩ := AStarNodes.createOpenNode_eq_some hcreate
            have hkeep : nodes''.nodes n = nodes.nodes n := by
              rw [hnodes, Function.update_of_ne hn.ne]
            obtain ⟨htree', hgrows'⟩ := ih hrest
              (htree.create hn (by omega) hadj ⟨hstand hnone, withinDist_of_not_skipped hskip⟩ hcreate)
              (hn.trans_le hgrows.le) (by rw [hkeep]; exact ⟨rfl, rfl, rfl⟩) h
            exact ⟨htree', hgrows.trans hgrows'⟩
          · cases found with
            | true =>
              obtain rfl := Option.some.inj h
              exact ⟨htree, .refl _⟩
            | false => cases h

/-! ## The search ends -/

variable (startPos targetPos isSightClear fpp) in
/-- A node that the search has found, with its position. -/
structure IsEnd (nodes : AStarNodes) (found : ℕ) (endPos : Position) : Prop where
  lt : found < nodes.curNode
  pos : endPos = nodes.pos startPos.z found
  matching : ∃ bestMatch ≥ 0, (pathCondition targetPos startPos fpp isSightClear endPos bestMatch).isSome

variable (map creature startPos targetPos isSightClear fpp) in
/-- What holds in each round of the search. -/
structure SearchInv (s : SearchState) : Prop where
  tree : Tree map creature startPos fpp s.nodes
  best : 0 ≤ s.bestMatch
  found : ∀ i, s.found = some i → IsEnd startPos targetPos isSightClear fpp s.nodes i s.endPos

variable (map creature startPos targetPos isSightClear fpp) in
/-- What the search ends with. -/
def GoodResult (result : Option Found) : Prop :=
  ∀ nodes found endPos, result = some (nodes, found, endPos) →
    Tree map creature startPos fpp nodes ∧ IsEnd startPos targetPos isSightClear fpp nodes found endPos

/-- The number of open nodes. -/
def AStarNodes.openCount (nodes : AStarNodes) : ℕ :=
  ((Finset.range MAX_NODES).filter fun i => nodes.openNodes i = true).card

/-- Decreases in each round of the search. -/
def SearchState.measure (s : SearchState) : (ℕ ×ₗ ℕ) ×ₗ ℕ :=
  toLex (s.nodes.potential, s.nodes.openCount)

theorem SearchInv.result {s : SearchState} (h : SearchInv map creature startPos targetPos isSightClear fpp s) :
    GoodResult map creature startPos targetPos isSightClear fpp s.result := by
  intro nodes found endPos hresult
  obtain ⟨i, hi, heq⟩ := Option.map_eq_some_iff.1 hresult
  obtain ⟨rfl, rfl, rfl⟩ : s.nodes = nodes ∧ i = found ∧ s.endPos = endPos := by simpa using heq
  exact ⟨h.tree, h.found i hi⟩

/-- No distance is negative, and so neither is the best one. -/
theorem pathCondition_nonneg {pos : Position} {best best' : ℤ} (hbest : 0 ≤ best)
    (h : pathCondition targetPos startPos fpp isSightClear pos best = some best') : 0 ≤ best' := by
  unfold pathCondition at h
  dsimp only at h
  split_ifs at h <;> obtain rfl := Option.some.inj h
  · exact hbest
  · exact le_rfl
  · exact le_max_of_le_left (abs_nonneg _)

/-- The test of a node keeps the invariant. -/
theorem SearchInv.visit {s s' : SearchState} {n : ℕ}
    (h : SearchInv map creature startPos targetPos isSightClear fpp s) (hn : n < s.nodes.curNode)
    (hvisit : s.visit startPos targetPos isSightClear fpp n = some s') :
    SearchInv map creature startPos targetPos isSightClear fpp s' ∧ s'.nodes = s.nodes := by
  obtain ⟨bestMatch, hcondition, rfl⟩ := Option.map_eq_some_iff.1 hvisit
  refine ⟨⟨h.tree, pathCondition_nonneg h.best hcondition, fun i hi => ?_⟩, rfl⟩
  obtain rfl := Option.some.inj hi
  exact ⟨hn, rfl, s.bestMatch, h.best, by rw [hcondition]; rfl⟩

theorem openCount_closeNode_lt {n : ℕ} (hn : n < AStarNodes.MAX_NODES)
    (hopen : nodes.openNodes n = true) : (nodes.closeNode n).openCount < nodes.openCount := by
  refine Finset.card_lt_card (Finset.ssubset_iff_subset_ne.2 ⟨fun i hi => ?_, fun heq => ?_⟩)
  · rw [Finset.mem_filter] at hi ⊢
    refine ⟨hi.1, ?_⟩
    have hclosed := hi.2
    rw [AStarNodes.closeNode, if_neg (not_le.2 hn)] at hclosed
    by_cases hin : i = n
    · exact hin ▸ hopen
    · simpa [Function.update_of_ne hin] using hclosed
  · have hmem : n ∈ (Finset.range AStarNodes.MAX_NODES).filter fun i => nodes.openNodes i = true :=
      Finset.mem_filter.2 ⟨Finset.mem_range.2 hn, hopen⟩
    rw [← heq, Finset.mem_filter, AStarNodes.closeNode, if_neg (not_le.2 hn)] at hmem
    simp at hmem

/-- Expanding an open node keeps the invariant and decreases the measure. -/
theorem expandNode_spec (hwrap : NoWrap map fpp) {s s' : SearchState} {n : ℕ}
    (h : SearchInv map creature startPos targetPos isSightClear fpp s) (hn : n < s.nodes.curNode)
    (hopen : s.nodes.openNodes n = true) (hnext : expandNode map creature startPos targetPos fpp s n = .next s') :
    SearchInv map creature startPos targetPos isSightClear fpp s' ∧ s'.measure < s.measure := by
  simp only [expandNode] at hnext
  split at hnext
  · rename_i nodes hexpand
    obtain rfl := Loop.Round.next.inj hnext
    obtain ⟨htree, hgrows⟩ := expand_spec hwrap (neighbors_subset _ _ _) h.tree hn ⟨rfl, rfl, rfl⟩
      hexpand
    refine ⟨⟨htree.closeNode n, h.best, fun i hi => ?_⟩, ?_⟩
    · obtain ⟨hlt, hpos, hmatching⟩ := h.found i hi
      refine ⟨?_, ?_, hmatching⟩
      · rw [AStarNodes.closeNode_curNode]
        exact hlt.trans_le hgrows.le
      · rw [hpos, ← hgrows.pos _ i hlt]
        simp [AStarNodes.pos]
    · have hpotential : (nodes.closeNode n).potential = nodes.potential := by
        simp [AStarNodes.potential]
      rw [SearchState.measure, SearchState.measure, hpotential]
      rcases hgrows.progress with rfl | hlt
      · have hcount := openCount_closeNode_lt (hn.trans_le h.tree.le) hopen
        exact AStarNodes.toLex_lt_of_snd hcount
      · exact Prod.Lex.toLex_lt_toLex.2 (Or.inl hlt)
  · cases hnext

theorem expandNode_done {s : SearchState} {n : ℕ} {result : Option Found}
    (h : expandNode map creature startPos targetPos fpp s n = .done result) : result = none := by
  simp only [expandNode] at h
  split at h
  · cases h
  · exact (Loop.Round.done.inj h).symm

/-- A round of the search keeps the invariant and decreases the measure. -/
theorem searchRound_next (hwrap : NoWrap map fpp) {s s' : SearchState}
    (h : SearchInv map creature startPos targetPos isSightClear fpp s)
    (hround : searchRound map creature startPos targetPos isSightClear fpp s = .next s') :
    SearchInv map creature startPos targetPos isSightClear fpp s' ∧ s'.measure < s.measure := by
  rw [searchRound] at hround
  split_ifs at hround
  cases hbest : s.nodes.getBestNode with
  | none => simp [hbest] at hround
  | some n =>
    obtain ⟨hn, hopen⟩ := AStarNodes.getBestNode_eq_some hbest
    simp only [hbest] at hround
    cases hvisit : s.visit startPos targetPos isSightClear fpp n with
    | none =>
      simp only [hvisit] at hround
      exact expandNode_spec hwrap h hn hopen hround
    | some s₁ =>
      obtain ⟨h₁, hnodes⟩ := h.visit hn hvisit
      simp only [hvisit] at hround
      split_ifs at hround
      obtain ⟨h', hlt⟩ := expandNode_spec hwrap h₁ (by rwa [hnodes]) (by rwa [hnodes]) hround
      refine ⟨h', ?_⟩
      have hmeasure : s₁.measure = s.measure := by rw [SearchState.measure, SearchState.measure, hnodes]
      rwa [hmeasure] at hlt

/-- What the search ends with is a node that it has found. -/
theorem searchRound_done {s : SearchState} {result : Option Found}
    (h : SearchInv map creature startPos targetPos isSightClear fpp s)
    (hround : searchRound map creature startPos targetPos isSightClear fpp s = .done result) :
    GoodResult map creature startPos targetPos isSightClear fpp result := by
  have hnothing : GoodResult map creature startPos targetPos isSightClear fpp none := by
    intro nodes found endPos hresult
    cases hresult
  rw [searchRound] at hround
  split_ifs at hround
  · cases hbest : s.nodes.getBestNode with
    | none =>
      simp only [hbest] at hround
      exact Loop.Round.done.inj hround ▸ h.result
    | some n =>
      obtain ⟨hn, -⟩ := AStarNodes.getBestNode_eq_some hbest
      simp only [hbest] at hround
      cases hvisit : s.visit startPos targetPos isSightClear fpp n with
      | none =>
        simp only [hvisit] at hround
        exact expandNode_done hround ▸ hnothing
      | some s₁ =>
        simp only [hvisit] at hround
        split_ifs at hround
        · exact Loop.Round.done.inj hround ▸ (h.visit hn hvisit).1.result
        · exact expandNode_done hround ▸ hnothing
  · exact Loop.Round.done.inj hround ▸ h.result

/-! ## The way along the parents -/

/-- The positions that directions lead to, one after the other. -/
def visited (pos : Position) : List Direction → List Position
  | [] => []
  | direction :: directions =>
    getNextPosition direction pos :: visited (getNextPosition direction pos) directions

/-- The position after all directions. -/
def lastPosition (pos : Position) (directions : List Direction) : Position :=
  directions.foldl (fun pos direction => getNextPosition direction pos) pos

variable (map creature startPos targetPos isSightClear fpp) in
/-- Directions that lead from the start over positions the creature may stand on, all of them within
the distance of the search, to a position at which the condition is true; the best match is at least
0, where the search starts with it. -/
structure RealWalk (directions : List Direction) : Prop where
  stand : ∀ pos ∈ visited startPos directions,
    MayStand map creature pos ∧ WithinDist startPos fpp pos
  matching : ∃ bestMatch ≥ 0, (pathCondition targetPos startPos fpp isSightClear
    (lastPosition startPos directions) bestMatch).isSome

variable (map creature startPos fpp) in
/-- The directions so far lead from a node, whose parent is the next one, to the end. -/
def Leads (nodes : AStarNodes) (endPos : Position) (s : PathState) : Prop :=
  ∃ i < nodes.curNode, (nodes.nodes i).parent = s.found ∧ s.prevx = (nodes.nodes i).x.toNat ∧
    s.prevy = (nodes.nodes i).y.toNat ∧
    (∀ pos ∈ visited (nodes.pos startPos.z i) s.dirList,
      MayStand map creature pos ∧ WithinDist startPos fpp pos) ∧
    lastPosition (nodes.pos startPos.z i) s.dirList = endPos

/-- Decreases in each round along the parents. -/
def PathState.measure (nodes : AStarNodes) (s : PathState) : ℕ :=
  match s.found with
  | some p => (nodes.nodes p).f + 1
  | none => 0

/-- A round goes on to the parent, whose cost is lower. -/
theorem pathRound_next (htree : Tree map creature startPos fpp nodes) {endPos : Position}
    {s s' : PathState} (h : Leads map creature startPos fpp nodes endPos s)
    (hround : pathRound nodes s = .next s') :
    Leads map creature startPos fpp nodes endPos s' ∧ s'.measure nodes < s.measure nodes := by
  obtain ⟨i, hi, hparent, hx, hy, hstand, hlast⟩ := h
  rw [pathRound] at hround
  cases hfound : s.found with
  | none => simp [hfound] at hround
  | some p =>
    simp only [hfound] at hround
    obtain rfl := Loop.Round.next.inj hround
    rw [hfound] at hparent
    have hi0 : 0 < i := by
      refine Nat.pos_of_ne_zero ?_
      rintro rfl
      rw [htree.root] at hparent
      cases hparent
    obtain ⟨p', hp, hparent', hf, hadj⟩ := htree.parent i hi0 hi
    obtain rfl : p = p' := Option.some.inj (hparent.symm.trans hparent')
    obtain ⟨direction, hdirection, hnext⟩ := stepDirection_of_adjacent startPos.z hadj
    have hnext' : getNextPosition direction (nodes.pos startPos.z p) = nodes.pos startPos.z i := hnext
    refine ⟨⟨p, hp, rfl, rfl, rfl, ?_, ?_⟩, ?_⟩
    · intro pos hpos
      rw [hx, hy, hdirection] at hpos
      rw [Option.toList_some, List.singleton_append, visited, hnext', List.mem_cons] at hpos
      rcases hpos with rfl | hpos
      · exact htree.stand i hi0 hi
      · exact hstand pos hpos
    · rw [hx, hy, hdirection, Option.toList_some, List.singleton_append, lastPosition, List.foldl_cons,
        hnext']
      exact hlast
    · simp only [PathState.measure, hfound]
      by_cases hp0 : p = 0
      · rw [hp0, htree.root]
        exact Nat.succ_pos _
      · obtain ⟨q, hq, hqparent, hqf, -⟩ := htree.parent p (Nat.pos_of_ne_zero hp0) hp
        rw [hqparent]
        exact Nat.succ_lt_succ hqf

/-- The loop ends at the start. -/
theorem pathRound_done (htree : Tree map creature startPos fpp nodes) {endPos : Position}
    {s : PathState} {directions : List Direction} (h : Leads map creature startPos fpp nodes endPos s)
    (hround : pathRound nodes s = .done directions) :
    (∀ pos ∈ visited startPos directions, MayStand map creature pos ∧ WithinDist startPos fpp pos) ∧
      lastPosition startPos directions = endPos := by
  obtain ⟨i, hi, hparent, -, -, hstand, hlast⟩ := h
  rw [pathRound] at hround
  cases hfound : s.found with
  | some p => simp [hfound] at hround
  | none =>
    simp only [hfound] at hround
    obtain rfl := Loop.Round.done.inj hround
    have hi0 : i = 0 := by
      by_contra hne
      obtain ⟨p, -, hp, -⟩ := htree.parent i (Nat.pos_of_ne_zero hne) hi
      rw [hparent, hfound] at hp
      cases hp
    have hstart : nodes.pos startPos.z i = startPos := by rw [AStarNodes.pos, hi0, htree.root]
    rw [hstart] at hstand hlast
    exact ⟨hstand, hlast⟩

/-! ## The result -/

/-- A search in which no step wraps ends, with a real walk if it returns true.

**Proof sketch.** Each round of the search adds a node, lowers the cost of one, or closes one, and
keeps the tree of nodes. In the tree costs fall along the parents, so that the second loop reaches
the root, and each of its steps is one tile. -/
theorem getPathMatching_total (hwrap : NoWrap map fpp) :
    ∃ result fuel,
      (∀ fuel', fuel ≤ fuel' →
        getPathMatching map creature startPos targetPos isSightClear fpp fuel' = some result) ∧
      ∀ directions, result = some directions →
        RealWalk map creature startPos targetPos isSightClear fpp directions := by
  have hstart : SearchInv map creature startPos targetPos isSightClear fpp
      ⟨.new startPos.x startPos.y, 0, none, ⟨0, 0, 0⟩⟩ :=
    ⟨.new _ _ rfl rfl, le_rfl, fun i hi => absurd hi (Option.some_ne_none i).symm⟩
  obtain ⟨found, fuel, hrun, hgood⟩ := Loop.total SearchState.measure
    (fun _ _ h hround => searchRound_next hwrap h hround)
    (fun _ _ h hround => searchRound_done h hround) hstart
  cases hfound : found with
  | none =>
    refine ⟨none, fuel, fun fuel' hle => ?_, fun directions h => by cases h⟩
    rw [getPathMatching, hrun fuel' hle, hfound]
    rfl
  | some result =>
    obtain ⟨nodes, i, endPos⟩ := result
    obtain ⟨htree, hlt, hpos, bestMatch, hbest, hmatching⟩ := hgood nodes i endPos hfound
    have hleads : Leads map creature startPos fpp nodes endPos
        ⟨(nodes.nodes i).parent, endPos.x.toNat, endPos.y.toNat, []⟩ := by
      subst hpos
      exact ⟨i, hlt, rfl, rfl, rfl, by simp [visited], rfl⟩
    obtain ⟨directions, fuel₂, hrun₂, hstand, hlast⟩ := Loop.total (PathState.measure nodes)
      (fun _ _ h hround => pathRound_next htree h hround)
      (fun _ _ h hround => pathRound_done htree h hround) hleads
    refine ⟨some directions, max fuel fuel₂, fun fuel' hle => ?_, fun directions' h => ?_⟩
    · rw [getPathMatching, hrun fuel' (le_of_max_le_left hle), hfound]
      simp [hrun₂ fuel' (le_of_max_le_right hle)]
    · obtain rfl := Option.some.inj h
      exact ⟨hstand, bestMatch, hbest, by rw [hlast]; exact hmatching⟩

variable (creature startPos targetPos isSightClear fpp) in
/-- **A path is a real walk.** On a map whose tiles lie strictly inside the range of coordinates the
search ends, and if it returns true, then its directions lead over positions the creature may stand
on, within the distance of the search, to a position at which the condition is true. -/
theorem getPathMatching_realWalk (hinside : TilesInside map) :
    ∃ result fuel,
      (∀ fuel', fuel ≤ fuel' →
        getPathMatching map creature startPos targetPos isSightClear fpp fuel' = some result) ∧
      ∀ directions, result = some directions →
        RealWalk map creature startPos targetPos isSightClear fpp directions :=
  getPathMatching_total (.inl hinside)

end Search

/-- Two tiles beside each other. -/
def twoTiles : TileMap Unit where
  getTile pos := if pos.y = 100 ∧ (pos.x = 100 ∨ pos.x = 101) then some () else none
  blockSolid _ := false
  getFieldItem _ := none

theorem twoTiles_inside : TilesInside twoTiles := by
  intro pos t h
  simp only [twoTiles] at h
  split_ifs at h with hpos
  obtain ⟨hy, hx | hx⟩ := hpos
  · rw [hx, hy]
    exact ⟨⟨by decide, by decide⟩, ⟨by decide, by decide⟩⟩
  · rw [hx, hy]
    exact ⟨⟨by decide, by decide⟩, ⟨by decide, by decide⟩⟩

/-- To the tile itself of the other one. -/
def straightThere : FindPathParams where
  fullPathSearch := true
  clearSight := false
  allowDiagonal := true
  keepDistance := false
  maxSearchDist := 0
  minTargetDist := 0
  maxTargetDist := 0

theorem getPathMatching_realWalk_twoTiles :
    getPathMatching twoTiles none ⟨100, 100, 7⟩ ⟨101, 100, 7⟩ (fun _ _ => true) straightThere 3 =
        some (some [.east]) ∧
      ∃ result fuel,
        (∀ fuel', fuel ≤ fuel' →
          getPathMatching twoTiles none ⟨100, 100, 7⟩ ⟨101, 100, 7⟩ (fun _ _ => true) straightThere
            fuel' = some result) ∧
        ∀ directions, result = some directions →
          RealWalk twoTiles none ⟨100, 100, 7⟩ ⟨101, 100, 7⟩ (fun _ _ => true) straightThere
            directions :=
  ⟨by decide +kernel, getPathMatching_realWalk none ⟨100, 100, 7⟩ ⟨101, 100, 7⟩ (fun _ _ => true)
    straightThere twoTiles_inside⟩

end TiabloServer.Pathfinding
