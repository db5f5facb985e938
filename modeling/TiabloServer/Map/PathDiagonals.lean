import TiabloServer.Map.PathWalk

/-!
# Paths without diagonal steps

With `allowDiagonal` false, `Map::getPathMatching` looks at three neighbours of a node that it has
come to, those of its table that are no diagonal ones. The start has a table of its own, of all
eight neighbours, which the search goes through whatever `allowDiagonal` is.

## Main definitions

* `Pathfinding.Direction.isDiagonal` — a direction with the bit `DIRECTION_DIAGONAL_MASK`.
* `Pathfinding.DiagonalStep` — the creature may step diagonally from the start.

## Main results

* `Pathfinding.getPathMatching_orthogonal_tail` — only the first direction of a path can be
  diagonal.
* `Pathfinding.getPathMatching_orthogonal_iff` — no path is diagonal exactly when no tile diagonal
  to the start can be walked to.
-/

namespace TiabloServer.Pathfinding

/-! ## Diagonal directions -/

/-- A direction with the bit `DIRECTION_DIAGONAL_MASK`. -/
def Direction.isDiagonal : Direction → Bool
  | .southwest | .southeast | .northwest | .northeast => true
  | _ => false

/-- A step that pushes no diagonal direction. -/
def Orthogonal (direction : Option Direction) : Prop := ∀ d ∈ direction, d.isDiagonal = false

/-- Diagonal directions are pushed for steps by one in both coordinates. -/
theorem abs_eq_one_of_isDiagonal {dx dy : ℤ} {d : Direction} (h : stepDirection dx dy = some d)
    (hd : d.isDiagonal = true) : |dx| = 1 ∧ |dy| = 1 := by
  unfold stepDirection at h
  split_ifs at h with h₁ h₂ h₃ h₄
  · exact ⟨by simp [h₁.1], by simp [h₁.2]⟩
  · exact ⟨by simp [h₂.1], by simp [h₂.2]⟩
  · exact ⟨by simp [h₃.1], by simp [h₃.2]⟩
  · exact ⟨by simp [h₄.1], by simp [h₄.2]⟩
  all_goals
    obtain rfl := Option.some.inj h
    cases hd

theorem orthogonal_of_ne {dx dy : ℤ} (h : |dx| = 1 → |dy| ≠ 1) : Orthogonal (stepDirection dx dy) := by
  intro d hd
  cases hdiagonal : d.isDiagonal with
  | false => rfl
  | true =>
    obtain ⟨hdx, hdy⟩ := abs_eq_one_of_isDiagonal hd hdiagonal
    exact absurd hdy (h hdx)

theorem isDiagonal_stepDirection {dx dy : ℤ} (hdx : |dx| = 1) (hdy : |dy| = 1) :
    ∃ d, stepDirection dx dy = some d ∧ d.isDiagonal = true := by
  rcases (abs_eq zero_le_one).1 hdx with rfl | rfl <;> rcases (abs_eq zero_le_one).1 hdy with rfl | rfl
  · exact ⟨.northwest, rfl, rfl⟩
  · exact ⟨.southwest, rfl, rfl⟩
  · exact ⟨.northeast, rfl, rfl⟩
  · exact ⟨.southeast, rfl, rfl⟩

/-! ## The nodes of a search -/

section Search

variable {τ : Type*} [DecidableEq τ] (map : TileMap τ) (creature : Option (Creature τ))
  (startPos targetPos : Position) (isSightClear : Position → Position → Bool)
  (fpp : FindPathParams)

/-- The creature may step diagonally from the start. -/
def DiagonalStep : Prop :=
  ∃ x y : UInt16, |(x.toNat : ℤ) - startPos.x.toNat| = 1 ∧ |(y.toNat : ℤ) - startPos.y.toNat| = 1 ∧
    MayStand map creature ⟨x, y, startPos.z⟩

/-- The direction that is pushed from a node to another one. -/
def AStarNodes.step (nodes : AStarNodes) (p i : ℕ) : Option Direction :=
  stepDirection ((nodes.nodes p).x.toNat - (nodes.nodes i).x.toNat)
    ((nodes.nodes p).y.toNat - (nodes.nodes i).y.toNat)

/-- The steps between nodes are not diagonal, but those from the start unless `free`. -/
structure Straight (free : Prop) (nodes : AStarNodes) : Prop where
  pos : 0 < nodes.curNode
  root : nodes.nodes 0 = ⟨none, 0, startPos.x, startPos.y⟩
  parent : ∀ i, 0 < i → i < nodes.curNode → ∃ p < nodes.curNode, (nodes.nodes i).parent = some p ∧
    (p ≠ 0 ∨ free → Orthogonal (nodes.step p i))
  stand : ∀ i, 0 < i → i < nodes.curNode → MayStand map creature (nodes.pos startPos.z i)
  table : ∀ x y i, nodes.getNodeByPosition x y = some i →
    i < nodes.curNode ∧ (nodes.nodes i).x = x ∧ (nodes.nodes i).y = y

/-- Old nodes keep their positions. -/
structure Keeps (nodes nodes' : AStarNodes) : Prop where
  le : nodes.curNode ≤ nodes'.curNode
  coord : ∀ i < nodes.curNode,
    (nodes'.nodes i).x = (nodes.nodes i).x ∧ (nodes'.nodes i).y = (nodes.nodes i).y

theorem Keeps.refl (nodes : AStarNodes) : Keeps nodes nodes := ⟨le_rfl, fun _ _ => ⟨rfl, rfl⟩⟩

theorem Keeps.trans {nodes nodes' nodes'' : AStarNodes} (h : Keeps nodes nodes') (h' : Keeps nodes' nodes'') :
    Keeps nodes nodes'' where
  le := h.le.trans h'.le
  coord i hi := by
    obtain ⟨hx', hy'⟩ := h'.coord i (hi.trans_le h.le)
    obtain ⟨hx, hy⟩ := h.coord i hi
    exact ⟨hx'.trans hx, hy'.trans hy⟩

theorem Keeps.step {nodes nodes' : AStarNodes} (h : Keeps nodes nodes') {p i : ℕ} (hp : p < nodes.curNode)
    (hi : i < nodes.curNode) : nodes'.step p i = nodes.step p i := by
  simp only [AStarNodes.step, h.coord p hp, h.coord i hi]

theorem Keeps.reopen (nodes : AStarNodes) (i newf n : ℕ) : Keeps nodes ((nodes.setParent i newf n).openNode i) where
  le := by simp [AStarNodes.setParent]
  coord j _ := by
    by_cases hj : j = i
    · subst hj
      simp [AStarNodes.setParent]
    · simp [AStarNodes.setParent, Function.update_of_ne hj]

theorem Keeps.create {nodes nodes' : AStarNodes} {n newf : ℕ} {x y : UInt16}
    (h : nodes.createOpenNode n x y newf = some nodes') : Keeps nodes nodes' := by
  obtain ⟨-, hcur, -, hnodes⟩ := AStarNodes.createOpenNode_eq_some h
  exact ⟨by omega, fun i hi => by rw [hnodes, Function.update_of_ne hi.ne]; exact ⟨rfl, rfl⟩⟩

variable {map creature startPos targetPos isSightClear fpp} {free : Prop} {nodes nodes' : AStarNodes}

theorem Straight.new : Straight map creature startPos free (.new startPos.x startPos.y) where
  pos := Nat.one_pos
  root := rfl
  parent i h0 h1 := absurd h1 (by simp only [AStarNodes.new]; omega)
  stand i h0 h1 := absurd h1 (by simp only [AStarNodes.new]; omega)
  table x y i h := by
    simp only [AStarNodes.getNodeByPosition, AStarNodes.new] at h ⊢
    by_cases hkey : AStarNodes.key x y = AStarNodes.key startPos.x startPos.y
    · rw [hkey, Function.update_self] at h
      obtain rfl := Option.some.inj h
      obtain ⟨rfl, rfl⟩ := AStarNodes.key_injective hkey
      exact ⟨Nat.one_pos, rfl, rfl⟩
    · rw [Function.update_of_ne hkey] at h
      cases h

theorem Straight.closeNode (h : Straight map creature startPos free nodes) (n : ℕ) :
    Straight map creature startPos free (nodes.closeNode n) where
  pos := by simpa using h.pos
  root := by simpa using h.root
  parent := by simpa [AStarNodes.step] using h.parent
  stand := by simpa [AStarNodes.pos] using h.stand
  table := by simpa [AStarNodes.getNodeByPosition] using h.table

/-- A node gets another parent. The start is not reopened, since no cost is below its own. -/
theorem Straight.reopen (h : Straight map creature startPos free nodes) {i n newf : ℕ}
    (hn : n < nodes.curNode) (hlt : newf < (nodes.nodes i).f) (hstep : n ≠ 0 ∨ free → Orthogonal (nodes.step n i)) :
    Straight map creature startPos free ((nodes.setParent i newf n).openNode i) := by
  have hi0 : i ≠ 0 := by
    rintro rfl
    rw [h.root] at hlt
    exact absurd hlt (Nat.not_lt_zero _)
  have hkeeps := Keeps.reopen nodes i newf n
  have hcur : ((nodes.setParent i newf n).openNode i).curNode = nodes.curNode := by
    simp [AStarNodes.setParent]
  have hother {j : ℕ} (hj : j ≠ i) : ((nodes.setParent i newf n).openNode i).nodes j = nodes.nodes j := by
    simp [AStarNodes.setParent, Function.update_of_ne hj]
  refine ⟨hcur ▸ h.pos, (hother hi0.symm).trans h.root, fun j hj0 hj => ?_, fun j hj0 hj => ?_,
    fun x y j hj => ?_⟩
  · rw [hcur] at hj ⊢
    by_cases hji : j = i
    · subst hji
      refine ⟨n, hn, by simp [AStarNodes.setParent], fun hfree => ?_⟩
      rw [hkeeps.step hn hj]
      exact hstep hfree
    · obtain ⟨p, hp, hparent, horth⟩ := h.parent j hj0 hj
      refine ⟨p, hp, by rw [hother hji, hparent], fun hfree => ?_⟩
      rw [hkeeps.step hp hj]
      exact horth hfree
  · rw [hcur] at hj
    have hstand := h.stand j hj0 hj
    rwa [AStarNodes.pos, (hkeeps.coord j hj).1, (hkeeps.coord j hj).2]
  · have hold : nodes.getNodeByPosition x y = some j := by
      simpa [AStarNodes.getNodeByPosition, AStarNodes.setParent] using hj
    obtain ⟨hlt', hx, hy⟩ := h.table x y j hold
    rw [hcur, (hkeeps.coord j hlt').1, (hkeeps.coord j hlt').2]
    exact ⟨hlt', hx, hy⟩

/-- A new node. -/
theorem Straight.create (h : Straight map creature startPos free nodes) {n newf : ℕ} {x y : UInt16}
    (hn : n < nodes.curNode) (hcreate : nodes.createOpenNode n x y newf = some nodes')
    (hstand : MayStand map creature ⟨x, y, startPos.z⟩)
    (hstep : n ≠ 0 ∨ free → Orthogonal (stepDirection ((nodes.nodes n).x.toNat - x.toNat)
      ((nodes.nodes n).y.toNat - y.toNat))) : Straight map creature startPos free nodes' := by
  have hkeeps := Keeps.create hcreate
  obtain ⟨-, hcur, htable, hnodes⟩ := AStarNodes.createOpenNode_eq_some hcreate
  have hnew : nodes'.nodes nodes.curNode = ⟨some n, newf, x, y⟩ := by rw [hnodes, Function.update_self]
  have hother {j : ℕ} (hj : j < nodes.curNode) : nodes'.nodes j = nodes.nodes j := by
    rw [hnodes, Function.update_of_ne hj.ne]
  refine ⟨by omega, (hother h.pos).trans h.root, fun j hj0 hj => ?_, fun j hj0 hj => ?_,
    fun x' y' j hj => ?_⟩
  · rcases Nat.lt_succ_iff_lt_or_eq.1 (hcur ▸ hj) with hlt | rfl
    · obtain ⟨p, hp, hparent, horth⟩ := h.parent j hj0 hlt
      refine ⟨p, by omega, by rw [hother hlt, hparent], fun hfree => ?_⟩
      rw [hkeeps.step hp hlt]
      exact horth hfree
    · refine ⟨n, by omega, by rw [hnew], fun hfree => ?_⟩
      rw [AStarNodes.step, hnew, hother hn]
      exact hstep hfree
  · rcases Nat.lt_succ_iff_lt_or_eq.1 (hcur ▸ hj) with hlt | rfl
    · rw [AStarNodes.pos, hother hlt]
      exact h.stand j hj0 hlt
    · rwa [AStarNodes.pos, hnew]
  · simp only [AStarNodes.getNodeByPosition, htable] at hj
    by_cases hkey : AStarNodes.key x' y' = AStarNodes.key x y
    · rw [hkey, Function.update_self] at hj
      obtain rfl := Option.some.inj hj
      obtain ⟨rfl, rfl⟩ := AStarNodes.key_injective hkey
      rw [hnew]
      exact ⟨by omega, rfl, rfl⟩
    · rw [Function.update_of_ne hkey] at hj
      obtain ⟨hlt, hx, hy⟩ := h.table x' y' j hj
      rw [hother hlt]
      exact ⟨by omega, hx, hy⟩

/-! ## The loop over the neighbours -/

/-- What is known of a node that the search goes on to. -/
theorem Straight.stand_of_neighborTile (h : Straight map creature startPos free nodes) {pos : Position} {t : τ}
    (hz : pos.z = startPos.z) (hne : nodes.getNodeByPosition pos.x pos.y ≠ some 0)
    (htile : neighborTile map creature (nodes.getNodeByPosition pos.x pos.y) pos = some t) :
    MayStand map creature pos := by
  cases hnode : nodes.getNodeByPosition pos.x pos.y with
  | none => exact (neighborTile_eq_some htile).2 hnode
  | some i =>
    obtain ⟨hlt, hx, hy⟩ := h.table _ _ i hnode
    have hpos : nodes.pos startPos.z i = pos := by rw [AStarNodes.pos, hx, hy, ← hz]
    have hi0 : i ≠ 0 := by
      rintro rfl
      exact hne hnode
    exact hpos ▸ h.stand i (Nat.pos_of_ne_zero hi0) hlt

/-- The offsets of a node push no diagonal directions, where the search goes on. -/
def StraightOffset (map : TileMap τ) (creature : Option (Creature τ)) (startPos : Position) (x y : UInt16)
    (offset : ℤ × ℤ) : Prop :=
  MayStand map creature (neighborPos startPos x y offset) →
    Orthogonal (stepDirection (x.toNat - (neighborPos startPos x y offset).x.toNat)
      (y.toNat - (neighborPos startPos x y offset).y.toNat))

/-- The loop over the neighbours of a node adds no diagonal steps but those of the start. -/
theorem Straight.expand {found : Bool} {n : ℕ} {x y : UInt16} {f : ℕ} {offsets : List (ℤ × ℤ)}
    (hoffsets : n ≠ 0 ∨ free → ∀ offset ∈ offsets, StraightOffset map creature startPos x y offset)
    (hs : Straight map creature startPos free nodes) (hn : n < nodes.curNode)
    (hnode : (nodes.nodes n).x = x ∧ (nodes.nodes n).y = y)
    (h : Pathfinding.expand map creature startPos targetPos fpp found n x y f offsets nodes = some nodes') :
    Straight map creature startPos free nodes' ∧ Keeps nodes nodes' := by
  induction offsets generalizing nodes with
  | nil =>
    obtain rfl := Option.some.inj h
    exact ⟨hs, .refl _⟩
  | cons offset offsets ih =>
    have hrest := fun hfree o ho => hoffsets hfree o (List.mem_cons_of_mem _ ho)
    simp only [Pathfinding.expand] at h
    split at h
    · exact ih hrest hs hn hnode h
    split at h
    · exact ih hrest hs hn hnode h
    rename_i t htile
    set pos := neighborPos startPos x y offset with hpos
    split at h
    · rename_i i hi
      split_ifs at h with hle
      · exact ih hrest hs hn hnode h
      · obtain ⟨hlt, hix, hiy⟩ := hs.table _ _ i hi
        have hkeeps := Keeps.reopen nodes i (f + getMapWalkCost x y pos creature.isNone +
          getTileWalkCost map creature t) n
        have hstep : n ≠ 0 ∨ free → Orthogonal (nodes.step n i) := by
          intro hfree
          rw [AStarNodes.step, hnode.1, hnode.2, hix, hiy]
          refine hoffsets hfree offset List.mem_cons_self (hs.stand_of_neighborTile rfl ?_ htile)
          rw [hi]
          rintro ⟨⟩
          rw [hs.root] at hle
          exact hle (Nat.zero_le _)
        obtain ⟨hs', hkeeps'⟩ := ih hrest (hs.reopen hn (not_le.1 hle) hstep) (hn.trans_le hkeeps.le)
          (by rw [(hkeeps.coord n hn).1, (hkeeps.coord n hn).2]; exact hnode) h
        exact ⟨hs', hkeeps.trans hkeeps'⟩
    · rename_i hnone
      split at h
      · rename_i nodes'' hcreate
        have hkeeps := Keeps.create hcreate
        have hstand := (neighborTile_eq_some htile).2 hnone
        have hstep : n ≠ 0 ∨ free → Orthogonal (stepDirection ((nodes.nodes n).x.toNat - pos.x.toNat)
            ((nodes.nodes n).y.toNat - pos.y.toNat)) := by
          intro hfree
          rw [hnode.1, hnode.2]
          exact hoffsets hfree offset List.mem_cons_self hstand
        obtain ⟨hs', hkeeps'⟩ := ih hrest (hs.create hn hcreate hstand hstep) (hn.trans_le hkeeps.le)
          (by rw [(hkeeps.coord n hn).1, (hkeeps.coord n hn).2]; exact hnode) h
        exact ⟨hs', hkeeps.trans hkeeps'⟩
      · cases found with
        | true =>
          obtain rfl := Option.some.inj h
          exact ⟨hs, .refl _⟩
        | false => cases h

theorem ofInt_toNat (x : UInt16) : UInt16.ofInt x.toNat = x := by
  have hlt : x.toNat < 2 ^ 16 := x.toNat_lt
  refine UInt16.toNat_inj.1 ?_
  simp only [UInt16.ofInt, UInt16.toNat_ofNat']
  omega

/-- Beside a node with a parent, the search without diagonals looks at no diagonal offset. -/
theorem straightOffset_of_parent {x y : UInt16} {n p : ℕ} (hdiagonal : fpp.allowDiagonal = false)
    (hparent : (nodes.nodes n).parent = some p) :
    ∀ offset ∈ neighbors nodes fpp n, StraightOffset map creature startPos x y offset := by
  intro offset hoffset _
  have horthogonal : ∀ direction : Direction, direction.isDiagonal = false →
      ∀ o ∈ (dirNeighbors direction).take 3, o.1 = 0 ∨ o.2 = 0 := by
    intro direction h
    cases direction <;> first | decide | cases h
  have harrival (dx dy : ℤ) : (arrival false dx dy).isDiagonal = false := by
    unfold arrival
    split_ifs <;> simp_all [Direction.isDiagonal]
  simp only [neighbors, hparent, hdiagonal, Bool.false_eq_true, if_false] at hoffset
  refine orthogonal_of_ne ?_
  rcases horthogonal _ (harrival _ _) offset hoffset with h | h
  · simp [neighborPos, h, ofInt_toNat]
  · simp [neighborPos, h, ofInt_toNat]

/-- Beside the start there is no diagonal step where the creature can make none. -/
theorem straightOffset_of_not_diagonalStep (h : ¬ DiagonalStep map creature startPos) (offset : ℤ × ℤ) :
    StraightOffset map creature startPos startPos.x startPos.y offset := by
  intro hstand
  refine orthogonal_of_ne fun hdx hdy => h ⟨_, _, ?_, ?_, hstand⟩
  · rwa [abs_sub_comm]
  · rwa [abs_sub_comm]

/-! ## Runs of the search -/

/-- What the rounds of a search keep. -/
structure StraightSearch (map : TileMap τ) (creature : Option (Creature τ)) (startPos : Position) (free : Prop)
    (s : SearchState) : Prop where
  nodes : Straight map creature startPos free s.nodes
  found : ∀ i, s.found = some i → i < s.nodes.curNode ∧ s.endPos = s.nodes.pos startPos.z i

theorem StraightSearch.visit {s s' : SearchState} {n : ℕ} (h : StraightSearch map creature startPos free s)
    (hn : n < s.nodes.curNode) (hvisit : s.visit startPos targetPos isSightClear fpp n = some s') :
    StraightSearch map creature startPos free s' ∧ s'.nodes = s.nodes := by
  simp only [SearchState.visit, Option.map_eq_some_iff] at hvisit
  obtain ⟨bestMatch, -, rfl⟩ := hvisit
  refine ⟨⟨h.nodes, fun i hi => ?_⟩, rfl⟩
  obtain rfl := Option.some.inj hi
  exact ⟨hn, rfl⟩

theorem StraightSearch.expandNode {s s' : SearchState} {n : ℕ}
    (hoffsets : n ≠ 0 ∨ free → ∀ offset ∈ neighbors s.nodes fpp n,
      StraightOffset map creature startPos (s.nodes.nodes n).x (s.nodes.nodes n).y offset)
    (h : StraightSearch map creature startPos free s) (hn : n < s.nodes.curNode)
    (hround : expandNode map creature startPos targetPos fpp s n = .next s') :
    StraightSearch map creature startPos free s' := by
  simp only [Pathfinding.expandNode] at hround
  split at hround
  · rename_i nodes hexpand
    obtain rfl := Loop.Round.next.inj hround
    obtain ⟨hs, hkeeps⟩ := h.nodes.expand hoffsets hn ⟨rfl, rfl⟩ hexpand
    refine ⟨hs.closeNode n, fun i hi => ?_⟩
    obtain ⟨hlt, hend⟩ := h.found i hi
    refine ⟨?_, ?_⟩
    · simpa using hlt.trans_le hkeeps.le
    · rw [hend, AStarNodes.pos, AStarNodes.pos, AStarNodes.closeNode_nodes, (hkeeps.coord i hlt).1,
        (hkeeps.coord i hlt).2]
  · cases hround

/-- The offsets that a search without diagonals looks at. -/
theorem StraightSearch.offsets {s : SearchState} {n : ℕ} (h : StraightSearch map creature startPos free s)
    (hdiagonal : fpp.allowDiagonal = false) (hfree : free → ¬ DiagonalStep map creature startPos)
    (hn : n < s.nodes.curNode) : n ≠ 0 ∨ free → ∀ offset ∈ neighbors s.nodes fpp n,
      StraightOffset map creature startPos (s.nodes.nodes n).x (s.nodes.nodes n).y offset := by
  intro hcase
  by_cases hn0 : n = 0
  · subst hn0
    intro offset _
    rw [h.nodes.root]
    exact straightOffset_of_not_diagonalStep (hfree (hcase.resolve_left (absurd rfl))) offset
  · obtain ⟨p, -, hparent, -⟩ := h.nodes.parent n (Nat.pos_of_ne_zero hn0) hn
    exact straightOffset_of_parent hdiagonal hparent

theorem StraightSearch.searchRound {s s' : SearchState} (h : StraightSearch map creature startPos free s)
    (hdiagonal : fpp.allowDiagonal = false) (hfree : free → ¬ DiagonalStep map creature startPos)
    (hround : searchRound map creature startPos targetPos isSightClear fpp s = .next s') :
    StraightSearch map creature startPos free s' := by
  simp only [Pathfinding.searchRound] at hround
  split_ifs at hround with hopen
  split at hround
  · cases hround
  rename_i n hbest
  obtain ⟨hn, -⟩ := AStarNodes.getBestNode_eq_some hbest
  split at hround
  · rename_i s₁ hvisit
    obtain ⟨h₁, hnodes⟩ := h.visit hn hvisit
    split_ifs at hround
    exact h₁.expandNode (h₁.offsets hdiagonal hfree (hnodes ▸ hn)) (hnodes ▸ hn) hround
  · exact h.expandNode (h.offsets hdiagonal hfree hn) hn hround

/-- What the search has found: straight nodes, and the position of the last one. -/
def StraightResult (map : TileMap τ) (creature : Option (Creature τ)) (startPos : Position) (free : Prop)
    (result : Option Found) : Prop :=
  ∀ nodes i endPos, result = some (nodes, i, endPos) →
    Straight map creature startPos free nodes ∧ i < nodes.curNode ∧ endPos = nodes.pos startPos.z i

theorem StraightSearch.result {s : SearchState} (h : StraightSearch map creature startPos free s) :
    StraightResult map creature startPos free s.result := by
  intro nodes i endPos hresult
  simp only [SearchState.result, Option.map_eq_some_iff] at hresult
  obtain ⟨j, hj, heq⟩ := hresult
  obtain ⟨rfl, rfl, rfl⟩ : s.nodes = nodes ∧ j = i ∧ s.endPos = endPos := by simpa using heq
  exact ⟨h.nodes, h.found j hj⟩

theorem StraightSearch.searchRound_done {s : SearchState} {result : Option Found}
    (h : StraightSearch map creature startPos free s)
    (hround : Pathfinding.searchRound map creature startPos targetPos isSightClear fpp s = .done result) :
    StraightResult map creature startPos free result := by
  have hnothing : StraightResult map creature startPos free none := by
    intro nodes i endPos hresult
    cases hresult
  simp only [Pathfinding.searchRound] at hround
  split_ifs at hround with hopen
  · split at hround
    · exact Loop.Round.done.inj hround ▸ h.result
    rename_i n hbest
    obtain ⟨hn, -⟩ := AStarNodes.getBestNode_eq_some hbest
    split at hround
    · rename_i s₁ hvisit
      split_ifs at hround
      · exact Loop.Round.done.inj hround ▸ (h.visit hn hvisit).1.result
      · exact expandNode_done hround ▸ hnothing
    · exact expandNode_done hround ▸ hnothing
  · exact Loop.Round.done.inj hround ▸ h.result

/-! ## The way along the parents -/

/-- The directions so far lead from a node, and only a first one from the start may be diagonal. -/
def StraightPath (nodes : AStarNodes) (free : Prop) (s : PathState) : Prop :=
  ∃ i < nodes.curNode, s.found = (nodes.nodes i).parent ∧ s.prevx = (nodes.nodes i).x.toNat ∧
    s.prevy = (nodes.nodes i).y.toNat ∧ (∀ d ∈ s.dirList.tail, d.isDiagonal = false) ∧
    (i ≠ 0 ∨ free → ∀ d ∈ s.dirList, d.isDiagonal = false)

theorem Straight.pathRound (h : Straight map creature startPos free nodes) {s s' : PathState}
    (hs : StraightPath nodes free s) (hround : pathRound nodes s = .next s') : StraightPath nodes free s' := by
  obtain ⟨i, hi, hparent, hx, hy, htail, hall⟩ := hs
  rw [Pathfinding.pathRound] at hround
  cases hfound : s.found with
  | none => simp [hfound] at hround
  | some p =>
    simp only [hfound] at hround
    obtain rfl := Loop.Round.next.inj hround
    have hi0 : i ≠ 0 := by
      rintro rfl
      rw [hparent, h.root] at hfound
      cases hfound
    obtain ⟨q, hq, hq', horth⟩ := h.parent i (Nat.pos_of_ne_zero hi0) hi
    obtain rfl : p = q := Option.some.inj (hfound.symm.trans (hparent.trans hq'))
    have hold := hall (.inl hi0)
    have hstep : stepDirection ((nodes.nodes p).x.toNat - s.prevx) ((nodes.nodes p).y.toNat - s.prevy) =
        nodes.step p i := by rw [hx, hy, AStarNodes.step]
    refine ⟨p, hq, rfl, rfl, rfl, ?_, fun hfree d hd => ?_⟩
    · rw [hstep]
      cases nodes.step p i with
      | none => exact htail
      | some d => exact hold
    · rw [hstep, List.mem_append] at hd
      rcases hd with hd | hd
      · exact horth hfree d (Option.mem_toList.1 hd)
      · exact hold d hd

variable (map creature startPos targetPos isSightClear fpp free) in
/-- **Only the first direction can be diagonal**, and none is where the creature can step diagonally
from the start to no tile. -/
theorem getPathMatching_straight (hdiagonal : fpp.allowDiagonal = false)
    (hfree : free → ¬ DiagonalStep map creature startPos) {fuel : ℕ} {directions : List Direction}
    (h : getPathMatching map creature startPos targetPos isSightClear fpp fuel = some (some directions)) :
    (∀ d ∈ directions.tail, d.isDiagonal = false) ∧ (free → ∀ d ∈ directions, d.isDiagonal = false) := by
  simp only [getPathMatching, Option.bind_eq_some_iff] at h
  obtain ⟨result, hsearch, h⟩ := h
  have hresult : StraightResult map creature startPos free result :=
    Loop.run_invariant (fun _ _ hs hround => hs.searchRound hdiagonal hfree hround)
      (fun _ _ hs hround => hs.searchRound_done hround)
      (⟨.new, fun i hi => by cases hi⟩ : StraightSearch map creature startPos free _) hsearch
  cases result with
  | none => cases h
  | some found =>
    obtain ⟨nodes, i, endPos⟩ := found
    obtain ⟨hnodes, hi, rfl⟩ := hresult nodes i endPos rfl
    simp only [Option.map_eq_some_iff, Option.some.injEq, exists_eq_right] at h
    refine Loop.run_invariant (P := StraightPath nodes free) (Q := fun directions : List Direction =>
      (∀ d ∈ directions.tail, d.isDiagonal = false) ∧ (free → ∀ d ∈ directions, d.isDiagonal = false))
      (fun _ _ hs hround => hnodes.pathRound hs hround) (fun s r hs hround => ?_)
      ⟨i, hi, rfl, rfl, rfl, by simp, by simp⟩ h
    obtain ⟨_, _, _, _, _, htail, hall⟩ := hs
    rw [Pathfinding.pathRound] at hround
    cases hfound : s.found with
    | some p => simp [hfound] at hround
    | none =>
      simp only [hfound] at hround
      obtain rfl := Loop.Round.done.inj hround
      exact ⟨htail, fun hfree => hall (.inr hfree)⟩

/-- **Only the first direction of a path can be diagonal.** -/
theorem getPathMatching_orthogonal_tail (hdiagonal : fpp.allowDiagonal = false) {fuel : ℕ}
    {directions : List Direction}
    (h : getPathMatching map creature startPos targetPos isSightClear fpp fuel = some (some directions)) :
    ∀ d ∈ directions.tail, d.isDiagonal = false :=
  (getPathMatching_straight map creature startPos targetPos isSightClear fpp False hdiagonal
    False.elim h).1

/-! ## A search for one tile -/

/-- Parameters for a path to the target itself that goes nowhere else. -/
def onlyThere : FindPathParams where
  fullPathSearch := true
  clearSight := false
  allowDiagonal := false
  keepDistance := true
  maxSearchDist := 0
  minTargetDist := 0
  maxTargetDist := 0

theorem isInRange_onlyThere (testPos : Position) : isInRange targetPos startPos onlyThere testPos = true ↔
      testPos.x = targetPos.x ∧ testPos.y = targetPos.y := by
  simp only [isInRange, onlyThere, if_true, ← UInt16.toNat_inj]
  simp
  omega

theorem skipped_onlyThere (pos : Position) :
    skipped startPos targetPos onlyThere pos = !isInRange targetPos startPos onlyThere pos := by
  simp [skipped, onlyThere]

theorem expand_of_skipped {found : Bool} {n : ℕ} {x y : UInt16} {f : ℕ} {offsets rest : List (ℤ × ℤ)}
    (h : ∀ o ∈ offsets, skipped startPos targetPos fpp (neighborPos startPos x y o) = true) :
    expand map creature startPos targetPos fpp found n x y f (offsets ++ rest) nodes =
      expand map creature startPos targetPos fpp found n x y f rest nodes := by
  induction offsets with
  | nil => rfl
  | cons o offsets ih =>
    rw [List.cons_append, expand]
    simp only [h o List.mem_cons_self, if_true]
    exact ih fun o' ho' => h o' (List.mem_cons_of_mem _ ho')

theorem neighborPos_injective {x y : UInt16} {o o' : ℤ × ℤ} (ho : o ∈ allNeighbors) (ho' : o' ∈ allNeighbors)
    (hx : (neighborPos startPos x y o).x = (neighborPos startPos x y o').x)
    (hy : (neighborPos startPos x y o).y = (neighborPos startPos x y o').y) : o = o' := by
  obtain ⟨h₁, h₂, -⟩ := mem_allNeighbors ho
  obtain ⟨h₁', h₂', -⟩ := mem_allNeighbors ho'
  simp only [neighborPos, UInt16.ofInt, ← UInt16.toNat_inj, UInt16.toNat_ofNat'] at hx hy
  refine Prod.ext ?_ ?_ <;> omega

variable (map creature) in
omit [DecidableEq τ] in
theorem getTileWalkCost_le (t : τ) : getTileWalkCost map creature t ≤ 390 := by
  unfold getTileWalkCost
  cases creature with
  | none => exact Nat.zero_le _
  | some creature =>
    simp only [MAP_NORMALWALKCOST]
    cases map.getFieldItem t <;> simp only <;> split_ifs <;> omega

theorem getMapWalkCost_le (x y : UInt16) (pos : Position) (preferDiagonal : Bool) :
    getMapWalkCost x y pos preferDiagonal ≤ 25 := by
  unfold getMapWalkCost
  split_ifs <;> decide

theorem exists_neighborTile {pos : Position} (h : MayStand map creature pos) :
    ∃ t, neighborTile map creature none pos = some t := by
  cases creature with
  | some creature =>
    obtain ⟨t, ht⟩ := Option.isSome_iff_exists.1 h
    exact ⟨t, by simp [neighborTile, ht]⟩
  | none =>
    obtain ⟨t, ht, hsolid⟩ := h
    exact ⟨t, by simp [neighborTile, ht, hsolid]⟩

variable (targetPos) in
/-- From the start only the target is opened. -/
theorem expand_onlyThere {o : ℤ × ℤ} (ho : o ∈ allNeighbors)
    (hpos : neighborPos startPos startPos.x startPos.y o = targetPos) (hne : targetPos.x ≠ startPos.x)
    (hstand : MayStand map creature targetPos) (found : Bool) :
    ∃ newf ≤ 415, expand map creature startPos targetPos onlyThere found 0 startPos.x startPos.y 0 allNeighbors
      (.new startPos.x startPos.y) =
        (AStarNodes.new startPos.x startPos.y).createOpenNode 0 targetPos.x targetPos.y newf := by
  obtain ⟨l₁, l₂, hsplit⟩ := List.append_of_mem ho
  have hnodup : (l₁ ++ o :: l₂).Nodup := hsplit ▸ by decide
  obtain ⟨-, hnodup₂, hdisjoint⟩ := List.nodup_append.1 hnodup
  have hskip : ∀ o' ∈ allNeighbors, o' ≠ o →
      skipped startPos targetPos onlyThere (neighborPos startPos startPos.x startPos.y o') = true := by
    intro o' ho' hneq
    rw [skipped_onlyThere, Bool.not_eq_true', ← Bool.not_eq_true, isInRange_onlyThere, ← hpos]
    rintro ⟨hx, hy⟩
    exact hneq (neighborPos_injective ho' ho hx hy)
  have hfirst : ∀ o' ∈ l₁, skipped startPos targetPos onlyThere
      (neighborPos startPos startPos.x startPos.y o') = true := fun o' ho' =>
    hskip o' (hsplit ▸ List.mem_append_left _ ho') (hdisjoint o' ho' o List.mem_cons_self)
  have hlast : ∀ o' ∈ l₂, skipped startPos targetPos onlyThere
      (neighborPos startPos startPos.x startPos.y o') = true := by
    intro o' ho'
    refine hskip o' (hsplit ▸ List.mem_append_right _ (List.mem_cons_of_mem _ ho')) ?_
    rintro rfl
    exact (List.nodup_cons.1 hnodup₂).1 ho'
  have hthere : skipped startPos targetPos onlyThere targetPos = false := by
    rw [skipped_onlyThere, (isInRange_onlyThere targetPos).2 ⟨rfl, rfl⟩, Bool.not_true]
  have hnode : (AStarNodes.new startPos.x startPos.y).getNodeByPosition targetPos.x targetPos.y = none := by
    have hkey : AStarNodes.key targetPos.x targetPos.y ≠ AStarNodes.key startPos.x startPos.y :=
      fun h => hne (AStarNodes.key_injective h).1
    simp [AStarNodes.getNodeByPosition, AStarNodes.new, Function.update_of_ne hkey]
  obtain ⟨t, ht⟩ := exists_neighborTile hstand
  have hcost := getMapWalkCost_le startPos.x startPos.y targetPos creature.isNone
  have hextra := getTileWalkCost_le map creature t
  refine ⟨0 + getMapWalkCost startPos.x startPos.y targetPos creature.isNone + getTileWalkCost map creature t,
    by omega, ?_⟩
  rw [hsplit, expand_of_skipped hfirst, expand]
  simp only [hpos, hthere, Bool.false_eq_true, if_false, hnode, ht]
  have hrest (nodes : AStarNodes) : expand map creature startPos targetPos onlyThere found 0 startPos.x
      startPos.y 0 l₂ nodes = some nodes := by
    rw [← List.append_nil l₂, expand_of_skipped hlast, expand]
  simp only [AStarNodes.createOpenNode, AStarNodes.new, AStarNodes.MAX_NODES, Nat.reduceLeDiff, ge_iff_le,
    if_false, hrest]

/-- The nodes when one neighbour of the start has been opened. -/
def AStarNodes.afterStart (startPos targetPos : Position) (newf : ℕ) : AStarNodes where
  nodes := Function.update (fun _ => ⟨none, 0, startPos.x, startPos.y⟩) 1
    ⟨some 0, newf, targetPos.x, targetPos.y⟩
  openNodes := Function.update (fun i => i == 0) 1 true
  nodeTable := Function.update
    (Function.update (fun _ => none) (AStarNodes.key startPos.x startPos.y) (some 0))
    (AStarNodes.key targetPos.x targetPos.y) (some 1)
  curNode := 2
  closedNodes := 0

/-- The nodes when the start has been closed. -/
def AStarNodes.twoNodes (startPos targetPos : Position) (newf : ℕ) : AStarNodes :=
  { AStarNodes.afterStart startPos targetPos newf with
    openNodes := Function.update (AStarNodes.afterStart startPos targetPos newf).openNodes 0 false
    closedNodes := 1 }

theorem getBestNode_new (x y : UInt16) : (AStarNodes.new x y).getBestNode = some 0 := by
  simp [AStarNodes.getBestNode, AStarNodes.new, AStarNodes.betterNode, List.range_succ]

variable (startPos targetPos) in
theorem getBestNode_twoNodes {newf : ℕ} (hle : newf ≤ 415) :
    (AStarNodes.twoNodes startPos targetPos newf).getBestNode = some 1 := by
  have hlt : newf < 2147483647 := by omega
  simp [AStarNodes.getBestNode, AStarNodes.twoNodes, AStarNodes.afterStart, AStarNodes.betterNode,
    List.range_succ, hlt]

variable (isSightClear) in
/-- The search opens the target and finds it in the next round. -/
theorem search_onlyThere {o : ℤ × ℤ} (ho : o ∈ allNeighbors)
    (hpos : neighborPos startPos startPos.x startPos.y o = targetPos) (hne : targetPos.x ≠ startPos.x)
    (hstand : MayStand map creature targetPos) :
    ∃ newf, Loop.run (searchRound map creature startPos targetPos isSightClear onlyThere) 2
      ⟨.new startPos.x startPos.y, 0, none, ⟨0, 0, 0⟩⟩ =
        some (some (.twoNodes startPos targetPos newf, 1, targetPos)) := by
  obtain ⟨newf, hle, hexpand⟩ := expand_onlyThere targetPos ho hpos hne hstand false
  have hfirst : searchRound map creature startPos targetPos isSightClear onlyThere
      ⟨.new startPos.x startPos.y, 0, none, ⟨0, 0, 0⟩⟩ =
        .next ⟨.twoNodes startPos targetPos newf, 0, none, ⟨0, 0, 0⟩⟩ := by
    have hrange : isInRange targetPos startPos onlyThere ⟨startPos.x, startPos.y, startPos.z⟩ = false := by
      rw [← Bool.not_eq_true, isInRange_onlyThere]
      exact fun h => hne h.1.symm
    have hvisit : SearchState.visit startPos targetPos isSightClear onlyThere
        ⟨.new startPos.x startPos.y, 0, none, ⟨0, 0, 0⟩⟩ 0 = none := by
      simp [SearchState.visit, pathCondition, AStarNodes.new, hrange]
    have hneighbors : neighbors (.new startPos.x startPos.y) onlyThere 0 = allNeighbors := rfl
    simp only [searchRound, getBestNode_new, hvisit, expandNode, hneighbors]
    rw [if_pos (.inr (show (0 : ℤ) < 100 by decide))]
    have hcreate : (AStarNodes.new startPos.x startPos.y).createOpenNode 0 targetPos.x targetPos.y newf =
        some (.afterStart startPos targetPos newf) := rfl
    have hclose : (AStarNodes.afterStart startPos targetPos newf).closeNode 0 =
        .twoNodes startPos targetPos newf := rfl
    have hopened := hexpand.trans hcreate
    split
    · rename_i nodes hnodes
      obtain rfl := Option.some.inj (hnodes.symm.trans hopened)
      rw [hclose]
    · rename_i hnone
      exact absurd (hnone.symm.trans hopened) (by simp)
  have hz : targetPos.z = startPos.z := by rw [← hpos, neighborPos]
  have hsecond : searchRound map creature startPos targetPos isSightClear onlyThere
      ⟨.twoNodes startPos targetPos newf, 0, none, ⟨0, 0, 0⟩⟩ =
        .done (some (.twoNodes startPos targetPos newf, 1, targetPos)) := by
    have hrange : isInRange targetPos startPos onlyThere targetPos = true :=
      (isInRange_onlyThere targetPos).2 ⟨rfl, rfl⟩
    have hvisit : SearchState.visit startPos targetPos isSightClear onlyThere
        ⟨.twoNodes startPos targetPos newf, 0, none, ⟨0, 0, 0⟩⟩ 1 =
          some ⟨.twoNodes startPos targetPos newf, 0, some 1, targetPos⟩ := by
      have hnode : (⟨targetPos.x, targetPos.y, startPos.z⟩ : Position) = targetPos := by rw [← hz]
      simp [SearchState.visit, pathCondition, AStarNodes.twoNodes, AStarNodes.afterStart, hnode, hrange,
        getDistanceX, getDistanceY]
      simp [onlyThere]
    simp only [searchRound, getBestNode_twoNodes startPos targetPos hle, hvisit]
    rw [if_pos (.inr (show (1 : ℤ) < 100 by decide)), if_pos trivial]
    rfl
  exact ⟨newf, by rw [Loop.run_of_next hfirst, Loop.run_of_done hsecond]⟩

variable (isSightClear) in
/-- The creature steps diagonally from the start, if that leads to its target and it goes nowhere
else. -/
theorem getPathMatching_of_diagonalStep (h : DiagonalStep map creature startPos) :
    ∃ targetPos d, Direction.isDiagonal d = true ∧
      getPathMatching map creature startPos targetPos isSightClear onlyThere 2 = some (some [d]) := by
  obtain ⟨x, y, hx, hy, hstand⟩ := h
  obtain ⟨d, hd, hdiagonal⟩ := isDiagonal_stepDirection ((abs_sub_comm _ _).trans hx)
    ((abs_sub_comm _ _).trans hy)
  refine ⟨⟨x, y, startPos.z⟩, d, hdiagonal, ?_⟩
  have hne : x ≠ startPos.x := by
    rintro rfl
    simp at hx
  have ho : ((x.toNat : ℤ) - startPos.x.toNat, (y.toNat : ℤ) - startPos.y.toNat) ∈ allNeighbors := by
    rcases (abs_eq zero_le_one).1 hx with h₁ | h₁ <;> rcases (abs_eq zero_le_one).1 hy with h₂ | h₂ <;>
      simp [allNeighbors, h₁, h₂]
  have hpos : neighborPos startPos startPos.x startPos.y
      ((x.toNat : ℤ) - startPos.x.toNat, (y.toNat : ℤ) - startPos.y.toNat) = ⟨x, y, startPos.z⟩ := by
    simp [neighborPos, ofInt_toNat]
  obtain ⟨newf, hsearch⟩ := search_onlyThere isSightClear ho hpos hne hstand
  rw [getPathMatching, hsearch]
  have hstep : pathRound (.twoNodes startPos ⟨x, y, startPos.z⟩ newf) ⟨some 0, x.toNat, y.toNat, []⟩ =
      .next ⟨none, startPos.x.toNat, startPos.y.toNat, [d]⟩ := by
    simp [pathRound, AStarNodes.twoNodes, AStarNodes.afterStart, hd]
  have hdone : pathRound (.twoNodes startPos ⟨x, y, startPos.z⟩ newf)
      ⟨none, startPos.x.toNat, startPos.y.toNat, [d]⟩ = .done [d] := rfl
  have hparent : ((AStarNodes.twoNodes startPos ⟨x, y, startPos.z⟩ newf).nodes 1).parent = some 0 := by
    simp [AStarNodes.twoNodes, AStarNodes.afterStart]
  simp only [Option.bind_some, hparent, Loop.run_of_next hstep, Loop.run_of_done hdone, Option.map_some]

variable (map creature startPos) in
/-- **No path is diagonal** with `allowDiagonal` false exactly when the creature can step diagonally
from the start to no tile.

**Proof sketch.** All nodes but the start are left for the three neighbours of a table. The start is
left for all eight, and a search that may go nowhere but to one of them takes the step. -/
theorem getPathMatching_orthogonal_iff :
    (∀ targetPos isSightClear fpp fuel directions, FindPathParams.allowDiagonal fpp = false →
      getPathMatching map creature startPos targetPos isSightClear fpp fuel = some (some directions) →
        ∀ d ∈ directions, Direction.isDiagonal d = false) ↔
      ¬ DiagonalStep map creature startPos := by
  constructor
  · intro h hstep
    obtain ⟨targetPos, d, hd, hpath⟩ := getPathMatching_of_diagonalStep (fun _ _ => true) hstep
    have hd' := h targetPos _ onlyThere 2 [d] rfl hpath d (List.mem_singleton_self d)
    rw [hd] at hd'
    cases hd'
  · intro h targetPos isSightClear fpp fuel directions hdiagonal hpath
    exact (getPathMatching_straight map creature startPos targetPos isSightClear fpp True hdiagonal
      (fun _ => h) hpath).2 trivial

end Search

/-- Two tiles, one diagonal to the other. -/
def diagonalTiles : TileMap Unit where
  getTile pos := if (pos.x = 100 ∧ pos.y = 100) ∨ (pos.x = 101 ∧ pos.y = 101) then some () else none
  blockSolid _ := false
  getFieldItem _ := none

/-- From one of two tiles to the other the first step is diagonal, with `allowDiagonal` false. -/
theorem not_orthogonal_diagonalTiles :
    ¬ ∀ (creature : Option (Creature Unit)) (startPos targetPos : Position)
      (isSightClear : Position → Position → Bool) (fpp : FindPathParams) (fuel : ℕ)
      (directions : List Direction), fpp.allowDiagonal = false →
        getPathMatching diagonalTiles creature startPos targetPos isSightClear fpp fuel =
          some (some directions) → ∀ d ∈ directions, d.isDiagonal = false := by
  intro h
  have hpath : getPathMatching diagonalTiles none ⟨100, 100, 7⟩ ⟨101, 101, 7⟩ (fun _ _ => true)
      { straightThere with allowDiagonal := false } 3 = some (some [.southeast]) := by decide +kernel
  exact absurd (h none _ _ _ _ 3 _ rfl hpath .southeast (List.mem_singleton_self _)) (by decide)

/-- With a third tile the path turns straight. -/
theorem orthogonal_tail_diagonalTiles : Direction.southeast.isDiagonal = true ∧
    ∀ d ∈ [Direction.southeast, .east].tail, d.isDiagonal = false := by
  have hpath : getPathMatching
      { diagonalTiles with getTile := fun pos => if pos.x = 102 then some () else diagonalTiles.getTile pos }
      none ⟨100, 100, 7⟩ ⟨102, 101, 7⟩ (fun _ _ => true) { straightThere with allowDiagonal := false } 5 =
        some (some [.southeast, .east]) := by decide +kernel
  exact ⟨rfl, getPathMatching_orthogonal_tail rfl hpath⟩

end TiabloServer.Pathfinding
