import TiabloServer.Map.QuadTree

/-!
# The links of the quad tree

`QTreeNode::getBestLeaf` links a new leaf with its four neighbours. In every state that such calls
reach, a leaf is linked with the leaf of the next block to the east and to the south, on a map whose
coordinates wrap around.

## Main definitions

* `QuadTree.State`, `QuadTree.State.getBestLeaf` — the tree with the fields of its leaves.
* `QuadTree.Linked` — what holds in every state.

## Main results

* `QuadTree.Linked.getBestLeaf` — a call keeps it.
* `QuadTree.getBestLeafs_correct` — the leaves and the links after every run.
-/

namespace TiabloServer.QuadTree

variable {γ : Type*}

/-! ## States -/

/-- The fields of `QTreeLeafNode`. -/
structure Leaf (γ : Type*) where
  leafS : Option LeafId
  leafE : Option LeafId
  creature_list : List γ
  player_list : List γ

/-- The root of a map and its leaves. -/
structure State (γ : Type*) where
  root : QTreeNode
  leaves : LeafId → Leaf γ
  next : LeafId

namespace State

/-- A map without leaves. -/
def empty : State γ := ⟨.node fun _ => .null, fun _ => ⟨none, none, [], []⟩, 0⟩

variable (s : State γ)

/-- Sets the link to the south of a leaf, if there is one. -/
def setLeafS (id link : Option LeafId) : State γ :=
  match id with
  | some id => { s with leaves := Function.update s.leaves id { s.leaves id with leafS := link } }
  | none => s

/-- Sets the link to the east of a leaf, if there is one. -/
def setLeafE (id link : Option LeafId) : State γ :=
  match id with
  | some id => { s with leaves := Function.update s.leaves id { s.leaves id with leafE := link } }
  | none => s

/-- The link of a leaf to the south, if there is a leaf to the south. -/
def linkS (id : LeafId) (southLeaf : Option LeafId) : State γ :=
  match southLeaf with
  | some southLeaf => s.setLeafS (some id) (some southLeaf)
  | none => s

/-- The link of a leaf to the east, if there is a leaf to the east. -/
def linkE (id : LeafId) (eastLeaf : Option LeafId) : State γ :=
  match eastLeaf with
  | some eastLeaf => s.setLeafE (some id) (some eastLeaf)
  | none => s

/-- Links a new leaf with its neighbours. -/
def link (tempLeaf : LeafId) (x y : UInt32) : State γ :=
  let s := s.setLeafS (getLeaf s.root x (y - FLOOR_SIZE)) (some tempLeaf)
  let s := s.setLeafE (getLeaf s.root (x - FLOOR_SIZE) y) (some tempLeaf)
  let s := s.linkS tempLeaf (getLeaf s.root x (y + FLOOR_SIZE))
  s.linkE tempLeaf (getLeaf s.root (x + FLOOR_SIZE) y)

/-- `getBestLeaf` of the root. -/
def getBestLeaf (x y : UInt32) (level : ℕ) : Option (LeafId × State γ) :=
  (createLeaf s.next level s.root x y).map fun (root, tempLeaf, newLeaf) =>
    if newLeaf then
      let s : State γ :=
        { root := root
          leaves := Function.update s.leaves tempLeaf ⟨none, none, [], []⟩
          next := s.next + 1 }
      (tempLeaf, s.link tempLeaf x y)
    else (tempLeaf, { s with root := root })

/-- The leaf of a position on the map. -/
def leafAt (x y : UInt16) : Option LeafId := s.root.get (blockPath x y)

/-! ## What linking changes -/

@[simp]
theorem root_setLeafS (id link : Option LeafId) : (s.setLeafS id link).root = s.root := by
  cases id <;> rfl

@[simp]
theorem root_setLeafE (id link : Option LeafId) : (s.setLeafE id link).root = s.root := by
  cases id <;> rfl

@[simp]
theorem next_setLeafS (id link : Option LeafId) : (s.setLeafS id link).next = s.next := by
  cases id <;> rfl

@[simp]
theorem next_setLeafE (id link : Option LeafId) : (s.setLeafE id link).next = s.next := by
  cases id <;> rfl

theorem leafS_setLeafS (id link : Option LeafId) (i : LeafId) :
    ((s.setLeafS id link).leaves i).leafS = if id = some i then link else (s.leaves i).leafS := by
  cases id with
  | none => rfl
  | some id =>
    rcases eq_or_ne i id with rfl | hne
    · simp [setLeafS]
    · simp [setLeafS, Function.update_of_ne hne, Ne.symm hne]

@[simp]
theorem leafE_setLeafS (id link : Option LeafId) (i : LeafId) :
    ((s.setLeafS id link).leaves i).leafE = (s.leaves i).leafE := by
  cases id with
  | none => rfl
  | some id =>
    rcases eq_or_ne i id with rfl | hne
    · simp [setLeafS]
    · simp [setLeafS, Function.update_of_ne hne]

theorem leafE_setLeafE (id link : Option LeafId) (i : LeafId) :
    ((s.setLeafE id link).leaves i).leafE = if id = some i then link else (s.leaves i).leafE := by
  cases id with
  | none => rfl
  | some id =>
    rcases eq_or_ne i id with rfl | hne
    · simp [setLeafE]
    · simp [setLeafE, Function.update_of_ne hne, Ne.symm hne]

@[simp]
theorem leafS_setLeafE (id link : Option LeafId) (i : LeafId) :
    ((s.setLeafE id link).leaves i).leafS = (s.leaves i).leafS := by
  cases id with
  | none => rfl
  | some id =>
    rcases eq_or_ne i id with rfl | hne
    · simp [setLeafE]
    · simp [setLeafE, Function.update_of_ne hne]

@[simp]
theorem root_linkS (id : LeafId) (southLeaf : Option LeafId) : (s.linkS id southLeaf).root = s.root := by
  cases southLeaf <;> rfl

@[simp]
theorem next_linkS (id : LeafId) (southLeaf : Option LeafId) : (s.linkS id southLeaf).next = s.next := by
  cases southLeaf <;> rfl

@[simp]
theorem leafE_linkS (id : LeafId) (southLeaf : Option LeafId) (i : LeafId) :
    ((s.linkS id southLeaf).leaves i).leafE = (s.leaves i).leafE := by
  cases southLeaf with
  | none => rfl
  | some l => exact s.leafE_setLeafS (some id) (some l) i

/-- A leaf without a link has the link to the leaf that there is, if there is one. -/
theorem leafS_linkS {id : LeafId} (southLeaf : Option LeafId)
    (hnone : (s.leaves id).leafS = none) (i : LeafId) :
    ((s.linkS id southLeaf).leaves i).leafS =
      if id = i then southLeaf else (s.leaves i).leafS := by
  cases southLeaf with
  | none =>
    split_ifs with heq
    · rw [← heq]
      exact hnone
    · rfl
  | some l =>
    rw [linkS, leafS_setLeafS]
    simp only [Option.some.injEq]

@[simp]
theorem root_linkE (id : LeafId) (eastLeaf : Option LeafId) : (s.linkE id eastLeaf).root = s.root := by
  cases eastLeaf <;> rfl

@[simp]
theorem next_linkE (id : LeafId) (eastLeaf : Option LeafId) : (s.linkE id eastLeaf).next = s.next := by
  cases eastLeaf <;> rfl

@[simp]
theorem leafS_linkE (id : LeafId) (eastLeaf : Option LeafId) (i : LeafId) :
    ((s.linkE id eastLeaf).leaves i).leafS = (s.leaves i).leafS := by
  cases eastLeaf with
  | none => rfl
  | some l => exact s.leafS_setLeafE (some id) (some l) i

theorem leafE_linkE {id : LeafId} (eastLeaf : Option LeafId)
    (hnone : (s.leaves id).leafE = none) (i : LeafId) :
    ((s.linkE id eastLeaf).leaves i).leafE =
      if id = i then eastLeaf else (s.leaves i).leafE := by
  cases eastLeaf with
  | none =>
    split_ifs with heq
    · rw [← heq]
      exact hnone
    · rfl
  | some l =>
    rw [linkE, leafE_setLeafE]
    simp only [Option.some.injEq]

/-- A state whose leaves have the creatures that those of another state have. -/
def SameLists (s s' : State γ) : Prop := ∀ i,
  (s'.leaves i).creature_list = (s.leaves i).creature_list ∧
    (s'.leaves i).player_list = (s.leaves i).player_list

theorem SameLists.trans {s s' s'' : State γ} (h : s.SameLists s') (h' : s'.SameLists s'') :
    s.SameLists s'' := fun i => ⟨(h' i).1.trans (h i).1, (h' i).2.trans (h i).2⟩

theorem sameLists_update {id : LeafId} {leaf : Leaf γ}
    (h : leaf.creature_list = (s.leaves id).creature_list ∧
      leaf.player_list = (s.leaves id).player_list) :
    s.SameLists { s with leaves := Function.update s.leaves id leaf } := by
  intro i
  rcases eq_or_ne i id with rfl | hne
  · simpa only [Function.update_self] using h
  · simp only [Function.update_of_ne hne, and_self]

theorem sameLists_setLeafS (id link : Option LeafId) : s.SameLists (s.setLeafS id link) := by
  cases id with
  | none => exact fun _ => ⟨rfl, rfl⟩
  | some id => exact s.sameLists_update ⟨rfl, rfl⟩

theorem sameLists_setLeafE (id link : Option LeafId) : s.SameLists (s.setLeafE id link) := by
  cases id with
  | none => exact fun _ => ⟨rfl, rfl⟩
  | some id => exact s.sameLists_update ⟨rfl, rfl⟩

theorem sameLists_linkS (id : LeafId) (southLeaf : Option LeafId) : s.SameLists (s.linkS id southLeaf) := by
  cases southLeaf with
  | none => exact fun _ => ⟨rfl, rfl⟩
  | some l => exact s.sameLists_setLeafS (some id) (some l)

theorem sameLists_linkE (id : LeafId) (eastLeaf : Option LeafId) : s.SameLists (s.linkE id eastLeaf) := by
  cases eastLeaf with
  | none => exact fun _ => ⟨rfl, rfl⟩
  | some l => exact s.sameLists_setLeafE (some id) (some l)

/-- Linking leaves the creatures of all leaves as they are. -/
theorem sameLists_link (tempLeaf : LeafId) (x y : UInt32) : s.SameLists (s.link tempLeaf x y) :=
  (((s.sameLists_setLeafS _ _).trans (State.sameLists_setLeafE _ _ _)).trans
    (State.sameLists_linkS _ _ _)).trans (State.sameLists_linkE _ _ _)

@[simp]
theorem root_link (tempLeaf : LeafId) (x y : UInt32) : (s.link tempLeaf x y).root = s.root := by
  simp [link]

@[simp]
theorem next_link (tempLeaf : LeafId) (x y : UInt32) : (s.link tempLeaf x y).next = s.next := by
  simp [link]

/-- The links to the east: that of the new leaf, and that of its neighbour to the west. -/
theorem leafE_link {tempLeaf : LeafId} {x y : UInt32} (hnew : (s.leaves tempLeaf).leafE = none)
    (hwest : QuadTree.getLeaf s.root (x - FLOOR_SIZE) y ≠ some tempLeaf) (i : LeafId) :
    ((s.link tempLeaf x y).leaves i).leafE =
      if tempLeaf = i then QuadTree.getLeaf s.root (x + FLOOR_SIZE) y
      else if QuadTree.getLeaf s.root (x - FLOOR_SIZE) y = some i then some tempLeaf
      else (s.leaves i).leafE := by
  simp only [link, root_setLeafS, root_setLeafE, root_linkS]
  rw [leafE_linkE]
  · simp only [leafE_linkS, leafE_setLeafE, leafE_setLeafS]
  · rw [leafE_linkS, leafE_setLeafE, if_neg hwest, leafE_setLeafS, hnew]

/-- The links to the south: that of the new leaf, and that of its neighbour to the north. -/
theorem leafS_link {tempLeaf : LeafId} {x y : UInt32} (hnew : (s.leaves tempLeaf).leafS = none)
    (hnorth : QuadTree.getLeaf s.root x (y - FLOOR_SIZE) ≠ some tempLeaf) (i : LeafId) :
    ((s.link tempLeaf x y).leaves i).leafS =
      if tempLeaf = i then QuadTree.getLeaf s.root x (y + FLOOR_SIZE)
      else if QuadTree.getLeaf s.root x (y - FLOOR_SIZE) = some i then some tempLeaf
      else (s.leaves i).leafS := by
  simp only [link, root_setLeafS, root_setLeafE, root_linkS]
  rw [leafS_linkE, leafS_linkS]
  · simp only [leafS_setLeafE, leafS_setLeafS]
  · rw [leafS_setLeafE, leafS_setLeafS, if_neg hnorth, hnew]

end State

/-! ## The invariant -/

/-- What holds of the tree and the links in every state that is reached. -/
structure Linked (s : State γ) : Prop where
  depth : s.root.Depth 13
  isNode : ∃ child, s.root = .node child
  lt_next : ∀ x y id, s.leafAt x y = some id → id < s.next
  sameBlock : ∀ x y x' y' id, s.leafAt x y = some id → s.leafAt x' y' = some id →
    blockPath x y = blockPath x' y'
  leafE_eq : ∀ x y id, s.leafAt x y = some id → (s.leaves id).leafE = s.leafAt (x + 8) y
  leafS_eq : ∀ x y id, s.leafAt x y = some id → (s.leaves id).leafS = s.leafAt x (y + 8)

theorem linked_empty : Linked (State.empty : State γ) where
  depth := fun _ => trivial
  isNode := ⟨_, rfl⟩
  lt_next := fun _ _ _ h => (nomatch h)
  sameBlock := fun _ _ _ _ _ h => (nomatch h)
  leafE_eq := fun _ _ _ h => (nomatch h)
  leafS_eq := fun _ _ _ h => (nomatch h)

/-- Positions in one block are in one block after a step to the east. -/
theorem blockPath_add_left {x y x' y' : UInt16} :
    blockPath (x + 8) y = blockPath (x' + 8) y' ↔ blockPath x y = blockPath x' y' := by
  rw [blockPath_eq_iff, blockPath_eq_iff, UInt16.toNat_add, UInt16.toNat_add]
  have hx := x.toNat_lt
  have hx' := x'.toNat_lt
  simp only [UInt16.reduceToNat]
  omega

theorem blockPath_add_right {x y x' y' : UInt16} :
    blockPath x (y + 8) = blockPath x' (y' + 8) ↔ blockPath x y = blockPath x' y' := by
  rw [blockPath_eq_iff, blockPath_eq_iff, UInt16.toNat_add, UInt16.toNat_add]
  have hy := y.toNat_lt
  have hy' := y'.toNat_lt
  simp only [UInt16.reduceToNat]
  omega

namespace Linked

variable {s : State γ}

theorem getLeaf_eq (h : Linked s) (x y : UInt32) : getLeaf s.root x y = s.leafAt x.toUInt16 y.toUInt16 := by
  rw [QuadTree.getLeaf_eq_get h.depth, path_eq_blockPath, State.leafAt]

theorem getLeafStatic_eq (h : Linked s) (x y : UInt32) :
    getLeafStatic s.root x y = s.leafAt x.toUInt16 y.toUInt16 := by
  rw [QuadTree.getLeafStatic_eq_get h.depth, path_eq_blockPath, State.leafAt]

/-- A block that has a leaf gets no other one. -/
theorem getBestLeaf_of_some (h : Linked s) {x y : UInt16} {id : LeafId} (hleaf : s.leafAt x y = some id) :
    s.getBestLeaf x.toUInt32 y.toUInt32 15 = some (id, s) := by
  have hcreate := createLeaf_eq s.next h.depth h.isNode (x := x.toUInt32) (y := y.toUInt32)
  rw [path_eq_blockPath, UInt16.toUInt16_toUInt32, UInt16.toUInt16_toUInt32,
    ← State.leafAt, hleaf] at hcreate
  rw [State.getBestLeaf, show 15 = 12 + FLOOR_BITS from rfl, hcreate]
  rfl

/-- The state with a new leaf that is not linked yet. -/
def withLeaf (s : State γ) (x y : UInt16) : State γ where
  root := PathTree.insert s.next (blockPath x y) s.root
  leaves := Function.update s.leaves s.next ⟨none, none, [], []⟩
  next := s.next + 1

theorem leafAt_congr {x y x' y' : UInt16} (h : blockPath x y = blockPath x' y') :
    s.leafAt x y = s.leafAt x' y' := by
  rw [State.leafAt, State.leafAt, h]

theorem leafAt_link (tempLeaf : LeafId) (x y : UInt32) (a b : UInt16) :
    (s.link tempLeaf x y).leafAt a b = s.leafAt a b := by
  rw [State.leafAt, State.leafAt, State.root_link]

theorem leaves_withLeaf_next (x y : UInt16) :
    (withLeaf s x y).leaves s.next = ⟨none, none, [], []⟩ := Function.update_self _ _ _

theorem leaves_withLeaf {x y : UInt16} {id : LeafId} (hne : id ≠ s.next) :
    (withLeaf s x y).leaves id = s.leaves id := Function.update_of_ne hne _ _

theorem leafAt_withLeaf (h : Linked s) (x y x' y' : UInt16) :
    (withLeaf s x y).leafAt x' y' =
      if blockPath x' y' = blockPath x y then some s.next else s.leafAt x' y' := by
  split_ifs with hblock
  · rw [State.leafAt, hblock]
    exact PathTree.get_insert_self _ _ _
  · exact PathTree.get_insert_of_ne _ (by rw [blockPath, length_path]; exact h.depth)
      (by rw [blockPath, blockPath, length_path, length_path]) hblock

/-- A block that has no leaf gets one, which is linked. -/
theorem getBestLeaf_of_none (h : Linked s) {x y : UInt16} (hleaf : s.leafAt x y = none) :
    s.getBestLeaf x.toUInt32 y.toUInt32 15 = some (s.next, (withLeaf s x y).link s.next x.toUInt32 y.toUInt32) := by
  have hcreate := createLeaf_eq s.next h.depth h.isNode (x := x.toUInt32) (y := y.toUInt32)
  rw [path_eq_blockPath, UInt16.toUInt16_toUInt32, UInt16.toUInt16_toUInt32,
    ← State.leafAt, hleaf] at hcreate
  rw [State.getBestLeaf, show 15 = 12 + FLOOR_BITS from rfl, hcreate]
  rfl

/-! ### A new leaf -/

section NewLeaf

variable (h : Linked s) {x y : UInt16}

include h

theorem leafAt_ne_next (a b : UInt16) : s.leafAt a b ≠ some s.next := fun heq =>
  lt_irrefl _ (h.lt_next a b _ heq)

/-- The new leaf is that of the block. -/
theorem blockPath_of_withLeaf {a b : UInt16} (hid : (withLeaf s x y).leafAt a b = some s.next) :
    blockPath a b = blockPath x y := by
  by_contra hne
  rw [leafAt_withLeaf h, if_neg hne] at hid
  exact h.leafAt_ne_next a b hid

/-- Another leaf was there before. -/
theorem leafAt_of_withLeaf {a b : UInt16} {id : LeafId}
    (hid : (withLeaf s x y).leafAt a b = some id) (hne : s.next ≠ id) : s.leafAt a b = some id := by
  rw [leafAt_withLeaf h] at hid
  split_ifs at hid with hblock
  · exact absurd (Option.some.inj hid) hne
  · exact hid

theorem sameBlock_withLeaf {x₁ y₁ x₂ y₂ : UInt16} {id : LeafId}
    (h₁ : (withLeaf s x y).leafAt x₁ y₁ = some id) (h₂ : (withLeaf s x y).leafAt x₂ y₂ = some id) :
    blockPath x₁ y₁ = blockPath x₂ y₂ := by
  rw [leafAt_withLeaf h] at h₁ h₂
  split_ifs at h₁ h₂ with hblock₁ hblock₂ hblock₂
  · exact hblock₁.trans hblock₂.symm
  · exact absurd (h₂.trans h₁.symm) (h.leafAt_ne_next _ _)
  · exact absurd (h₁.trans h₂.symm) (h.leafAt_ne_next _ _)
  · exact h.sameBlock _ _ _ _ id h₁ h₂

theorem depth_withLeaf (x y : UInt16) : (withLeaf s x y).root.Depth 13 := by
  have hinsert := PathTree.depth_insert s.next (p := blockPath x y) (t := s.root)
    (by rw [blockPath, length_path]; exact h.depth)
  rwa [blockPath, length_path] at hinsert

/-- The leaf of a neighbouring position after a leaf has been added. -/
theorem getLeaf_withLeaf (x y : UInt16) (a b : UInt32) :
    getLeaf (withLeaf s x y).root a b = (withLeaf s x y).leafAt a.toUInt16 b.toUInt16 := by
  rw [QuadTree.getLeaf_eq_get (h.depth_withLeaf x y), path_eq_blockPath, State.leafAt]

/-- The links to the east after a leaf has been added and linked. -/
theorem leafE_link_withLeaf {a b : UInt16} {id : LeafId} (hid : (withLeaf s x y).leafAt a b = some id) :
    (((withLeaf s x y).link s.next x.toUInt32 y.toUInt32).leaves id).leafE = (withLeaf s x y).leafAt (a + 8) b := by
  have hsub : x - 8 + 8 = x := by simp
  have hwest : getLeaf (withLeaf s x y).root (x.toUInt32 - FLOOR_SIZE) y.toUInt32 =
      (withLeaf s x y).leafAt (x - 8) y := by
    rw [getLeaf_withLeaf h, UInt16.toUInt16_toUInt32]
    simp [FLOOR_SIZE]
  have heast : getLeaf (withLeaf s x y).root (x.toUInt32 + FLOOR_SIZE) y.toUInt32 =
      (withLeaf s x y).leafAt (x + 8) y := by
    rw [getLeaf_withLeaf h, UInt16.toUInt16_toUInt32]
    simp [FLOOR_SIZE]
  have hother : (withLeaf s x y).leafAt (x - 8) y ≠ some s.next := by
    intro heq
    have hblock := (blockPath_eq_iff _ _ _ _).1 (h.blockPath_of_withLeaf heq)
    have hlt := x.toNat_lt
    rw [UInt16.toNat_sub] at hblock
    simp only [UInt16.reduceToNat] at hblock
    omega
  rw [State.leafE_link _ (by rw [leaves_withLeaf_next]) (by rw [hwest]; exact hother), hwest, heast]
  split_ifs with hnew hneighbour
  · subst hnew
    exact leafAt_congr (blockPath_add_left.2 (h.blockPath_of_withLeaf hid).symm)
  · -- the neighbour to the west
    have hshift := blockPath_add_left.2 (h.sameBlock_withLeaf hid hneighbour)
    rw [hsub] at hshift
    rw [leafAt_congr hshift, leafAt_withLeaf h, if_pos rfl]
  · rw [leaves_withLeaf (Ne.symm hnew), h.leafE_eq a b id (h.leafAt_of_withLeaf hid hnew),
      leafAt_withLeaf h, if_neg]
    intro hblock
    rw [← hsub] at hblock
    exact hneighbour ((leafAt_congr (blockPath_add_left.1 hblock)).symm.trans hid)

/-- The links to the south after a leaf has been added and linked. -/
theorem leafS_link_withLeaf {a b : UInt16} {id : LeafId} (hid : (withLeaf s x y).leafAt a b = some id) :
    (((withLeaf s x y).link s.next x.toUInt32 y.toUInt32).leaves id).leafS = (withLeaf s x y).leafAt a (b + 8) := by
  have hsub : y - 8 + 8 = y := by simp
  have hnorth : getLeaf (withLeaf s x y).root x.toUInt32 (y.toUInt32 - FLOOR_SIZE) =
      (withLeaf s x y).leafAt x (y - 8) := by
    rw [getLeaf_withLeaf h, UInt16.toUInt16_toUInt32]
    simp [FLOOR_SIZE]
  have hsouth : getLeaf (withLeaf s x y).root x.toUInt32 (y.toUInt32 + FLOOR_SIZE) =
      (withLeaf s x y).leafAt x (y + 8) := by
    rw [getLeaf_withLeaf h, UInt16.toUInt16_toUInt32]
    simp [FLOOR_SIZE]
  have hother : (withLeaf s x y).leafAt x (y - 8) ≠ some s.next := by
    intro heq
    have hblock := (blockPath_eq_iff _ _ _ _).1 (h.blockPath_of_withLeaf heq)
    have hlt := y.toNat_lt
    rw [UInt16.toNat_sub] at hblock
    simp only [UInt16.reduceToNat] at hblock
    omega
  rw [State.leafS_link _ (by rw [leaves_withLeaf_next]) (by rw [hnorth]; exact hother), hnorth, hsouth]
  split_ifs with hnew hneighbour
  · subst hnew
    exact leafAt_congr (blockPath_add_right.2 (h.blockPath_of_withLeaf hid).symm)
  · -- the neighbour to the north
    have hshift := blockPath_add_right.2 (h.sameBlock_withLeaf hid hneighbour)
    rw [hsub] at hshift
    rw [leafAt_congr hshift, leafAt_withLeaf h, if_pos rfl]
  · rw [leaves_withLeaf (Ne.symm hnew), h.leafS_eq a b id (h.leafAt_of_withLeaf hid hnew),
      leafAt_withLeaf h, if_neg]
    intro hblock
    rw [← hsub] at hblock
    exact hneighbour ((leafAt_congr (blockPath_add_right.1 hblock)).symm.trans hid)

/-- **A new leaf is linked**, and the links of its neighbours to it are set. -/
theorem link_withLeaf (x y : UInt16) : Linked ((withLeaf s x y).link s.next x.toUInt32 y.toUInt32) where
  depth := by
    rw [State.root_link]
    exact h.depth_withLeaf x y
  isNode := by
    rw [State.root_link]
    exact ⟨_, rfl⟩
  lt_next := by
    intro a b id hid
    rw [leafAt_link] at hid
    rw [State.next_link]
    rcases eq_or_ne s.next id with rfl | hne
    · exact Nat.lt_succ_self _
    · exact (h.lt_next a b id (h.leafAt_of_withLeaf hid hne)).trans (Nat.lt_succ_self _)
  sameBlock := by
    intro x₁ y₁ x₂ y₂ id h₁ h₂
    rw [leafAt_link] at h₁ h₂
    exact h.sameBlock_withLeaf h₁ h₂
  leafE_eq := by
    intro a b id hid
    rw [leafAt_link] at hid ⊢
    exact h.leafE_link_withLeaf hid
  leafS_eq := by
    intro a b id hid
    rw [leafAt_link] at hid ⊢
    exact h.leafS_link_withLeaf hid

end NewLeaf

/-- **A call of `getBestLeaf`** returns the leaf of the block, which is new or was there before, and
changes no other leaf of the tree. -/
theorem getBestLeaf (h : Linked s) (x y : UInt16) :
    ∃ id s', s.getBestLeaf x.toUInt32 y.toUInt32 15 = some (id, s') ∧ Linked s' ∧
      s'.leafAt x y = some id ∧ ∀ a b, blockPath a b ≠ blockPath x y → s'.leafAt a b = s.leafAt a b := by
  cases hleaf : s.leafAt x y with
  | some id => exact ⟨id, s, h.getBestLeaf_of_some hleaf, h, hleaf, fun _ _ _ => rfl⟩
  | none =>
    refine ⟨s.next, _, h.getBestLeaf_of_none hleaf, h.link_withLeaf x y, ?_, fun a b hne => ?_⟩
    · rw [leafAt_link, leafAt_withLeaf h, if_pos rfl]
    · rw [leafAt_link, leafAt_withLeaf h, if_neg hne]

end Linked

/-! ## Runs -/

/-- A run of calls: the leaves that are returned, and the state after it. -/
def getBestLeafs (s : State γ) : List (UInt16 × UInt16) → Option (List LeafId × State γ)
  | [] => some ([], s)
  | (x, y) :: calls =>
    (s.getBestLeaf x.toUInt32 y.toUInt32 15).bind fun (id, s) =>
      (getBestLeafs s calls).map fun (ids, s) => (id :: ids, s)

/-- **A run keeps the invariant**. Each block keeps the leaf that it was given, and has one exactly
if it had one before or a call was for a position in it. -/
theorem Linked.getBestLeafs {s : State γ} (h : Linked s) (calls : List (UInt16 × UInt16)) :
    ∃ ids s', QuadTree.getBestLeafs s calls = some (ids, s') ∧ Linked s' ∧
      (∀ x y id, s.leafAt x y = some id → s'.leafAt x y = some id) ∧
      List.Forall₂ (fun call id => s'.leafAt call.1 call.2 = some id) calls ids ∧
      ∀ x y, (s'.leafAt x y).isSome → (s.leafAt x y).isSome ∨
        ∃ call ∈ calls, blockPath x y = blockPath call.1 call.2 := by
  induction calls generalizing s with
  | nil => exact ⟨[], s, rfl, h, fun _ _ _ hid => hid, .nil, fun _ _ hsome => Or.inl hsome⟩
  | cons call calls ih =>
    obtain ⟨x, y⟩ := call
    obtain ⟨id, s₁, heq, hlinked, hself, hother⟩ := h.getBestLeaf x y
    obtain ⟨ids, s', heq', hlinked', hkeep, hreturned, hcreated⟩ := ih hlinked
    have hfirst : ∀ a b i, s.leafAt a b = some i → s₁.leafAt a b = some i := by
      intro a b i hi
      by_cases hblock : blockPath a b = blockPath x y
      · have hbest := h.getBestLeaf_of_some ((Linked.leafAt_congr hblock).symm.trans hi)
        rw [heq] at hbest
        rw [Linked.leafAt_congr hblock, hself, (Prod.mk.inj (Option.some.inj hbest)).1]
      · rw [hother a b hblock, hi]
    refine ⟨id :: ids, s', ?_, hlinked', fun a b i hi => hkeep a b i (hfirst a b i hi),
      .cons (hkeep x y id hself) hreturned, fun a b hsome => ?_⟩
    · simp only [QuadTree.getBestLeafs, heq, Option.bind_some, heq', Option.map_some]
    · by_cases hblock : blockPath a b = blockPath x y
      · exact Or.inr ⟨(x, y), List.mem_cons_self, hblock⟩
      · rcases hcreated a b hsome with hsome' | ⟨call, hcall, hsame⟩
        · rw [hother a b hblock] at hsome'
          exact Or.inl hsome'
        · exact Or.inr ⟨call, List.mem_cons_of_mem _ hcall, hsame⟩

theorem isSome_of_forall₂ {α β : Type*} {f : α → Option β} {l : List α} {l' : List β}
    (h : List.Forall₂ (fun a b => f a = some b) l l') {a : α} (ha : a ∈ l) : (f a).isSome := by
  induction h with
  | nil => exact nomatch ha
  | cons hab _ ih =>
    rcases List.mem_cons.1 ha with rfl | hmem
    · rw [hab]
      rfl
    · exact ih hmem

/-- What holds of the leaves that a run has returned and of its state. -/
structure Correct (calls : List (UInt16 × UInt16)) (ids : List LeafId) (s : State γ) : Prop where
  /-- Both searches agree. -/
  search : ∀ x y : UInt16,
    getLeafStatic s.root x.toUInt32 y.toUInt32 = getLeaf s.root x.toUInt32 y.toUInt32
  /-- Each call has returned the leaf of its block. -/
  returned : List.Forall₂
    (fun (call : UInt16 × UInt16) id => getLeaf s.root call.1.toUInt32 call.2.toUInt32 = some id)
    calls ids
  /-- A leaf is that of one block. -/
  unique : ∀ (x y x' y' : UInt16) (id : LeafId), getLeaf s.root x.toUInt32 y.toUInt32 = some id →
    (getLeaf s.root x'.toUInt32 y'.toUInt32 = some id ↔
      x'.toNat / 8 = x.toNat / 8 ∧ y'.toNat / 8 = y.toNat / 8)
  /-- A block has a leaf if a call was for it, and has none otherwise. -/
  created : ∀ x y : UInt16, (getLeaf s.root x.toUInt32 y.toUInt32).isSome ↔
    ∃ call ∈ calls, x.toNat / 8 = call.1.toNat / 8 ∧ y.toNat / 8 = call.2.toNat / 8
  /-- The links of a leaf are those to its neighbours, if there are any. -/
  links : ∀ (x y : UInt16) (id : LeafId), getLeaf s.root x.toUInt32 y.toUInt32 = some id →
    (s.leaves id).leafE = getLeaf s.root (x + 8).toUInt32 y.toUInt32 ∧
      (s.leaves id).leafS = getLeaf s.root x.toUInt32 (y + 8).toUInt32

/-- **Runs of the quad tree**: every run of `getBestLeaf` returns the leaves of its blocks, and
leaves the tree with one leaf for each of them, found by both searches and linked with its
neighbours. -/
theorem getBestLeafs_correct (calls : List (UInt16 × UInt16)) :
    ∃ ids s, getBestLeafs (State.empty : State γ) calls = some (ids, s) ∧ Correct calls ids s := by
  obtain ⟨ids, s, heq, h, -, hreturned, hcreated⟩ := linked_empty.getBestLeafs (γ := γ) calls
  have hleaf : ∀ x y : UInt16, getLeaf s.root x.toUInt32 y.toUInt32 = s.leafAt x y := by
    intro x y
    rw [h.getLeaf_eq, UInt16.toUInt16_toUInt32, UInt16.toUInt16_toUInt32]
  refine ⟨ids, s, heq, ⟨fun x y => ?_, ?_, fun x y x' y' id hid => ?_, fun x y => ?_,
    fun x y id hid => ?_⟩⟩
  · rw [h.getLeafStatic_eq, h.getLeaf_eq]
  · simpa only [hleaf] using hreturned
  · rw [hleaf] at hid ⊢
    rw [← blockPath_eq_iff]
    exact ⟨fun hid' => h.sameBlock _ _ _ _ id hid' hid,
      fun hblock => (Linked.leafAt_congr hblock).trans hid⟩
  · simp only [hleaf, ← blockPath_eq_iff]
    constructor
    · intro hsome
      exact (hcreated x y hsome).resolve_left fun hempty => nomatch hempty
    · rintro ⟨call, hcall, hblock⟩
      rw [Linked.leafAt_congr hblock]
      exact isSome_of_forall₂ hreturned hcall
  · rw [hleaf] at hid
    rw [hleaf, hleaf]
    exact ⟨h.leafE_eq x y id hid, h.leafS_eq x y id hid⟩

end TiabloServer.QuadTree
