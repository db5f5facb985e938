import TiabloServer.Map.Position
import TiabloServer.Map.QuadTreeLinks

/-!
# Creatures on the map

The leaves of the quad tree list the creatures of their blocks. `Map::setTile`,
`Map::placeCreature`, `Map::moveCreature` and `Tile::removeCreature` keep these lists. A creature
stands on a tile.

## Main definitions

* `CreatureMap.Step`, `CreatureMap.step` — what changes them.
* `CreatureMap.WellFormed` — the lists are those of the creatures in the blocks.

## Main results

* `CreatureMap.wellFormed_run` — it holds after every run.
-/

namespace TiabloServer

open QuadTree

/-- A map with creatures. -/
structure CreatureMap (γ : Type*) where
  tree : QuadTree.State γ
  tiles : Position → Bool
  creatures : γ → Option Position

namespace CreatureMap

variable {γ : Type*} [DecidableEq γ] (isPlayer : γ → Bool)

/-- A map without tiles. -/
def empty : CreatureMap γ := ⟨.empty, fun _ => false, fun _ => none⟩

/-- Overwrites a creature of a list with the last one, and shortens the list. -/
def swapRemove (l : List γ) (c : γ) : List γ :=
  match l.getLast? with
  | some back => if c ∈ l then (l.set (l.idxOf c) back).dropLast else l
  | none => l

variable (w : CreatureMap γ)

/-- `Map::getQTNode`. -/
def getQTNode (x y : UInt16) : Option LeafId := getLeafStatic w.tree.root x.toUInt32 y.toUInt32

/-- Changes a leaf. -/
def setLeaf (id : LeafId) (leaf : Leaf γ) : CreatureMap γ :=
  { w with tree := { w.tree with leaves := Function.update w.tree.leaves id leaf } }

/-- `QTreeLeafNode::addCreature`. -/
def addCreature (id : LeafId) (c : γ) : CreatureMap γ :=
  let leaf := w.tree.leaves id
  w.setLeaf id { leaf with
    creature_list := leaf.creature_list ++ [c]
    player_list := if isPlayer c then leaf.player_list ++ [c] else leaf.player_list }

/-- `QTreeLeafNode::removeCreature`. -/
def leafRemoveCreature (id : LeafId) (c : γ) : CreatureMap γ :=
  let leaf := w.tree.leaves id
  w.setLeaf id { leaf with
    creature_list := swapRemove leaf.creature_list c
    player_list := if isPlayer c then swapRemove leaf.player_list c else leaf.player_list }

/-- A change of the map. -/
inductive Step (γ : Type*) where
  | setTile (position : Position)
  | placeCreature (c : γ) (dest : Position)
  | moveCreature (c : γ) (newPos : Position)
  | removeCreature (c : γ)

/-- `Map::setTile`, of a tile that stays. -/
def setTile (position : Position) : CreatureMap γ :=
  if position.z.toNat ≥ MAP_MAX_LAYERS then w
  else
    let tiles := Function.update w.tiles position true
    match w.getQTNode position.x position.y with
    | some _ => { w with tiles := tiles }
    | none =>
      match w.tree.getBestLeaf position.x.toUInt32 position.y.toUInt32 15 with
      | some (_, tree) => { w with tree := tree, tiles := tiles }
      | none => w

/-- The end of `Map::placeCreature`, for a creature that is not on the map, and a tile. -/
def placeCreature (c : γ) (dest : Position) : CreatureMap γ :=
  match w.creatures c, w.tiles dest, w.getQTNode dest.x dest.y with
  | none, true, some leaf =>
    { w.addCreature isPlayer leaf c with creatures := Function.update w.creatures c (some dest) }
  | _, _, _ => w

/-- `Map::moveCreature`, of a creature on the map to a tile. -/
def moveCreature (c : γ) (newPos : Position) : CreatureMap γ :=
  match w.creatures c, w.tiles newPos with
  | some oldPos, true =>
    match w.getQTNode oldPos.x oldPos.y, w.getQTNode newPos.x newPos.y with
    | some leaf, some newLeaf =>
      let w' :=
        if leaf ≠ newLeaf then
          (w.leafRemoveCreature isPlayer leaf c).addCreature isPlayer newLeaf c
        else w
      { w' with creatures := Function.update w.creatures c (some newPos) }
    | _, _ => w
  | _, _ => w

/-- `Tile::removeCreature`, of a creature on the map. -/
def removeCreature (c : γ) : CreatureMap γ :=
  match w.creatures c with
  | some tilePos =>
    match w.getQTNode tilePos.x tilePos.y with
    | some leaf =>
      { w.leafRemoveCreature isPlayer leaf c with
        creatures := Function.update w.creatures c none }
    | none => w
  | none => w

/-- One change of the map. -/
def step (w : CreatureMap γ) : Step γ → CreatureMap γ
  | .setTile position => w.setTile position
  | .placeCreature c dest => w.placeCreature isPlayer c dest
  | .moveCreature c newPos => w.moveCreature isPlayer c newPos
  | .removeCreature c => w.removeCreature isPlayer c

/-- The map after some changes. -/
def run (steps : List (Step γ)) : CreatureMap γ := steps.foldl (step isPlayer) empty

/-- The lists of the leaves are those of the creatures in their blocks. -/
structure WellFormed (w : CreatureMap γ) : Prop where
  linked : Linked w.tree
  layer_lt : ∀ p, w.tiles p → p.z.toNat < MAP_MAX_LAYERS
  leaf_isSome : ∀ p, w.tiles p → (w.tree.leafAt p.x p.y).isSome
  tile_of_creature : ∀ c p, w.creatures c = some p → w.tiles p
  mem_creature_list : ∀ x y id c, w.tree.leafAt x y = some id →
    (c ∈ (w.tree.leaves id).creature_list ↔
      ∃ p, w.creatures c = some p ∧ blockPath p.x p.y = blockPath x y)
  mem_player_list : ∀ x y id c, w.tree.leafAt x y = some id →
    (c ∈ (w.tree.leaves id).player_list ↔
      c ∈ (w.tree.leaves id).creature_list ∧ isPlayer c = true)
  nodup : ∀ x y id, w.tree.leafAt x y = some id →
    (w.tree.leaves id).creature_list.Nodup ∧ (w.tree.leaves id).player_list.Nodup

/-! ## Lists -/

theorem swapRemove_perm {l : List γ} {c : γ} (hc : c ∈ l) : (swapRemove l c).Perm (l.erase c) := by
  obtain ⟨front, rest, rfl, hfront⟩ := List.eq_append_cons_of_mem hc
  have herase : (front ++ c :: rest).erase c = front ++ rest := by
    rw [List.erase_append_right _ hfront, List.erase_cons_head]
  have hidx : (front ++ c :: rest).idxOf c = front.length := by
    rw [List.idxOf_append_of_notMem hfront, List.idxOf_cons_self, Nat.add_zero]
  have hset : ∀ b, (front ++ c :: rest).set front.length b = front ++ b :: rest := by
    intro b
    rw [List.set_append_right _ _ le_rfl, Nat.sub_self, List.set_cons_zero]
  rcases List.eq_nil_or_concat rest with rfl | ⟨middle, back, rfl⟩
  · have hlast : (front ++ [c]).getLast? = some c := by simp
    simp only [swapRemove, hlast, hidx, hset, if_pos hc, herase, List.append_nil]
    rw [List.dropLast_concat]
  · have hlast : (front ++ c :: middle.concat back).getLast? = some back := by
      rw [List.concat_eq_append, ← List.cons_append, ← List.append_assoc, List.getLast?_concat]
    have hdrop : (front ++ back :: middle.concat back).dropLast = front ++ back :: middle := by
      rw [List.concat_eq_append, ← List.cons_append, ← List.append_assoc, List.dropLast_concat]
    simp only [swapRemove, hlast, hidx, hset, if_pos hc, herase, hdrop]
    refine List.Perm.append_left front ?_
    rw [List.concat_eq_append]
    exact (List.perm_append_singleton back middle).symm

theorem mem_swapRemove {l : List γ} (hl : l.Nodup) {a c : γ} : a ∈ swapRemove l c ↔ a ∈ l ∧ a ≠ c := by
  by_cases hc : c ∈ l
  · rw [(swapRemove_perm hc).mem_iff, hl.mem_erase_iff, and_comm]
  · have hsame : swapRemove l c = l := by
      rw [swapRemove]
      split
      · rw [if_neg hc]
      · rfl
    rw [hsame]
    exact ⟨fun ha => ⟨ha, fun heq => hc (heq ▸ ha)⟩, fun h => h.1⟩

theorem nodup_swapRemove {l : List γ} (hl : l.Nodup) (c : γ) : (swapRemove l c).Nodup := by
  by_cases hc : c ∈ l
  · exact (swapRemove_perm hc).nodup_iff.2 (hl.erase c)
  · rw [swapRemove]
    split
    · rwa [if_neg hc]
    · exact hl

/-! ## The invariant -/

namespace WellFormed

variable {isPlayer} {w : CreatureMap γ}

omit [DecidableEq γ] in
theorem getQTNode_eq (h : WellFormed isPlayer w) (x y : UInt16) : w.getQTNode x y = w.tree.leafAt x y := by
  rw [getQTNode, h.linked.getLeafStatic_eq, UInt16.toUInt16_toUInt32, UInt16.toUInt16_toUInt32]

omit [DecidableEq γ] in
theorem empty : WellFormed isPlayer (CreatureMap.empty : CreatureMap γ) where
  linked := linked_empty
  layer_lt := fun _ h => (nomatch h)
  leaf_isSome := fun _ h => (nomatch h)
  tile_of_creature := fun _ _ h => (nomatch h)
  mem_creature_list := fun _ _ _ _ h => (nomatch h)
  mem_player_list := fun _ _ _ _ h => (nomatch h)
  nodup := fun _ _ _ h => (nomatch h)

omit [DecidableEq γ] in
/-- Creatures stand on the blocks of the tree. -/
theorem leaf_of_creature (h : WellFormed isPlayer w) {c : γ} {p : Position}
    (hc : w.creatures c = some p) : ∃ id, w.tree.leafAt p.x p.y = some id :=
  Option.isSome_iff_exists.1 (h.leaf_isSome p (h.tile_of_creature c p hc))

omit [DecidableEq γ] in
/-- Changing the creatures of a leaf keeps the links. -/
theorem linked_setLeaf (h : Linked w.tree) {id : LeafId} {leaf : Leaf γ}
    (hS : leaf.leafS = (w.tree.leaves id).leafS) (hE : leaf.leafE = (w.tree.leaves id).leafE) :
    Linked (w.setLeaf id leaf).tree where
  depth := h.depth
  isNode := h.isNode
  lt_next := h.lt_next
  sameBlock := h.sameBlock
  leafE_eq := by
    intro x y i hi
    refine Eq.trans ?_ (h.leafE_eq x y i hi)
    rcases eq_or_ne i id with rfl | hne
    · simp [setLeaf, hE]
    · simp [setLeaf, Function.update_of_ne hne]
  leafS_eq := by
    intro x y i hi
    refine Eq.trans ?_ (h.leafS_eq x y i hi)
    rcases eq_or_ne i id with rfl | hne
    · simp [setLeaf, hS]
    · simp [setLeaf, Function.update_of_ne hne]

omit [DecidableEq γ] in
/-- A new leaf has no creatures, and there are none in its block. -/
theorem addLeaf (h : WellFormed isPlayer w) {position : Position}
    (hleaf : w.tree.leafAt position.x position.y = none)
    (hlayer : ∀ p, Function.update w.tiles position true p → p.z.toNat < MAP_MAX_LAYERS)
    (htile : ∀ c p, w.creatures c = some p → Function.update w.tiles position true p) :
    WellFormed isPlayer
      { w with
        tree := (Linked.withLeaf w.tree position.x position.y).link w.tree.next
          position.x.toUInt32 position.y.toUInt32
        tiles := Function.update w.tiles position true } := by
  have hlists := State.sameLists_link (Linked.withLeaf w.tree position.x position.y) w.tree.next
    position.x.toUInt32 position.y.toUInt32
  have hnew := Linked.leaves_withLeaf_next (s := w.tree) position.x position.y
  have hmem : ∀ x y id c,
      ((Linked.withLeaf w.tree position.x position.y).link w.tree.next position.x.toUInt32
        position.y.toUInt32).leafAt x y = some id →
      (id = w.tree.next ∧ blockPath x y = blockPath position.x position.y ∧
        ¬ ∃ p, w.creatures c = some p ∧ blockPath p.x p.y = blockPath x y) ∨
      (id ≠ w.tree.next ∧ w.tree.leafAt x y = some id) := by
    intro x y id c hid
    rw [Linked.leafAt_link] at hid
    rcases eq_or_ne w.tree.next id with rfl | hne
    · have hblock := h.linked.blockPath_of_withLeaf hid
      refine Or.inl ⟨rfl, hblock, ?_⟩
      rintro ⟨p, hc, hp⟩
      obtain ⟨id, hid'⟩ := h.leaf_of_creature hc
      rw [Linked.leafAt_congr (hp.trans hblock), hleaf] at hid'
      exact nomatch hid'
    · exact Or.inr ⟨hne.symm, h.linked.leafAt_of_withLeaf hid hne⟩
  have hold : ∀ id, id ≠ w.tree.next →
      (Linked.withLeaf w.tree position.x position.y).leaves id = w.tree.leaves id := fun id hne =>
    Linked.leaves_withLeaf hne
  refine ⟨h.linked.link_withLeaf position.x position.y, hlayer, fun p hp => ?_, htile,
    fun x y id c hid => ?_, fun x y id c hid => ?_, fun x y id hid => ?_⟩
  · rw [Linked.leafAt_link, Linked.leafAt_withLeaf h.linked]
    split_ifs with hblock
    · rfl
    · have hne : p ≠ position := fun heq => hblock (by rw [heq])
      exact h.leaf_isSome p (by simpa only [Function.update_of_ne hne] using hp)
  · simp only [(hlists id).1]
    rcases hmem x y id c hid with ⟨rfl, -, hnone⟩ | ⟨hne, hid'⟩
    · rw [hnew]
      exact iff_of_false List.not_mem_nil hnone
    · rw [hold id hne]
      exact h.mem_creature_list x y id c hid'
  · simp only [(hlists id).1, (hlists id).2]
    rcases hmem x y id c hid with ⟨rfl, -, -⟩ | ⟨hne, hid'⟩
    · rw [hnew]
      exact iff_of_false List.not_mem_nil fun h => List.not_mem_nil h.1
    · rw [hold id hne]
      exact h.mem_player_list x y id c hid'
  · simp only [(hlists id).1, (hlists id).2]
    by_cases hid' : id = w.tree.next
    · rw [hid', hnew]
      exact ⟨List.nodup_nil, List.nodup_nil⟩
    · rw [hold id hid']
      rw [Linked.leafAt_link] at hid
      exact h.nodup x y id (h.linked.leafAt_of_withLeaf hid (Ne.symm hid'))

omit [DecidableEq γ] in
/-- A tile on a new block gets a leaf without creatures. -/
theorem setTile (h : WellFormed isPlayer w) (position : Position) : WellFormed isPlayer (w.setTile position) := by
  have hlayer : ¬ position.z.toNat ≥ MAP_MAX_LAYERS → ∀ p,
      Function.update w.tiles position true p → p.z.toNat < MAP_MAX_LAYERS := by
    intro hz p hp
    rcases eq_or_ne p position with rfl | hne
    · exact not_le.1 hz
    · rw [Function.update_of_ne hne] at hp
      exact h.layer_lt p hp
  have htile : ∀ c p, w.creatures c = some p → Function.update w.tiles position true p := by
    intro c p hc
    rcases eq_or_ne p position with rfl | hne
    · rw [Function.update_self]
    · rw [Function.update_of_ne hne]
      exact h.tile_of_creature c p hc
  rw [CreatureMap.setTile]
  split_ifs with hz
  · exact h
  cases hleaf : w.getQTNode position.x position.y with
  | some id =>
    rw [h.getQTNode_eq] at hleaf
    refine { h with
      layer_lt := hlayer hz
      leaf_isSome := fun p hp => ?_
      tile_of_creature := htile }
    rcases eq_or_ne p position with rfl | hne
    · exact Option.isSome_iff_exists.2 ⟨id, hleaf⟩
    · exact h.leaf_isSome p (by simpa only [Function.update_of_ne hne] using hp)
  | none =>
    rw [h.getQTNode_eq] at hleaf
    simp only [h.linked.getBestLeaf_of_none hleaf]
    exact h.addLeaf hleaf (hlayer hz) htile

/-- A creature is put into the leaf of its tile. -/
theorem addCreature (h : WellFormed isPlayer w) {c : γ} {dest : Position} {leaf : LeafId}
    (hc : w.creatures c = none) (hdest : w.tiles dest)
    (hleaf : w.tree.leafAt dest.x dest.y = some leaf) :
    WellFormed isPlayer
      { w.addCreature isPlayer leaf c with
        creatures := Function.update w.creatures c (some dest) } := by
  have hnot : ∀ x y id, w.tree.leafAt x y = some id → c ∉ (w.tree.leaves id).creature_list := by
    intro x y id hid hmem
    obtain ⟨p, hp, -⟩ := (h.mem_creature_list x y id c hid).1 hmem
    rw [hc] at hp
    exact nomatch hp
  have hnot' : ∀ x y id, w.tree.leafAt x y = some id → c ∉ (w.tree.leaves id).player_list :=
    fun x y id hid hmem => hnot x y id hid ((h.mem_player_list x y id c hid).1 hmem).1
  have hself : ((w.addCreature isPlayer leaf c).tree.leaves leaf) =
      { w.tree.leaves leaf with
        creature_list := (w.tree.leaves leaf).creature_list ++ [c]
        player_list := if isPlayer c then (w.tree.leaves leaf).player_list ++ [c]
          else (w.tree.leaves leaf).player_list } := Function.update_self _ _ _
  have hother : ∀ id, id ≠ leaf → (w.addCreature isPlayer leaf c).tree.leaves id =
      w.tree.leaves id := fun id hne => Function.update_of_ne hne _ _
  have hupdate : ∀ a, a ≠ c → Function.update w.creatures c (some dest) a = w.creatures a :=
    fun a hne => Function.update_of_ne hne _ _
  refine ⟨linked_setLeaf h.linked rfl rfl, h.layer_lt, h.leaf_isSome, fun a p ha => ?_,
    fun x y id a hid => ?_, fun x y id a hid => ?_, fun x y id hid => ?_⟩
  · simp only at ha
    rcases eq_or_ne a c with rfl | hne
    · rw [Function.update_self] at ha
      rw [← Option.some.inj ha]
      exact hdest
    · rw [hupdate a hne] at ha
      exact h.tile_of_creature a p ha
  · simp only
    rcases eq_or_ne id leaf with rfl | hne
    · have hblock := h.linked.sameBlock _ _ _ _ id hleaf hid
      rw [hself, List.mem_append, List.mem_singleton]
      rcases eq_or_ne a c with rfl | ha
      · exact iff_of_true (Or.inr rfl) ⟨dest, Function.update_self _ _ _, hblock⟩
      · rw [hupdate a ha, or_iff_left ha]
        exact h.mem_creature_list x y id a hid
    · rw [hother id hne]
      rcases eq_or_ne a c with rfl | ha
      · refine iff_of_false (hnot x y id hid) ?_
        rintro ⟨p, hp, hblock⟩
        rw [Function.update_self] at hp
        rw [← Option.some.inj hp] at hblock
        have hsame : w.tree.leafAt x y = some leaf :=
          (Linked.leafAt_congr hblock.symm).trans hleaf
        exact hne (Option.some.inj (hid.symm.trans hsame))
      · rw [hupdate a ha]
        exact h.mem_creature_list x y id a hid
  · simp only
    rcases eq_or_ne id leaf with rfl | hne
    · have hold := h.mem_player_list x y id a hid
      rw [hself]
      simp only [List.mem_append, List.mem_singleton]
      by_cases hp : isPlayer c = true
      · rw [if_pos hp, List.mem_append, List.mem_singleton, hold]
        rcases eq_or_ne a c with rfl | ha
        · simp [hp]
        · simp [ha]
      · rw [if_neg hp, hold]
        rcases eq_or_ne a c with rfl | ha
        · simp [hp]
        · simp [ha]
    · rw [hother id hne]
      exact h.mem_player_list x y id a hid
  · obtain ⟨hcreatures, hplayers⟩ := h.nodup x y id hid
    simp only
    rcases eq_or_ne id leaf with rfl | hne
    · rw [hself]
      simp only
      refine ⟨List.concat_eq_append ▸ hcreatures.concat (hnot x y id hid), ?_⟩
      split_ifs with hp
      · exact List.concat_eq_append ▸ hplayers.concat (hnot' x y id hid)
      · exact hplayers
    · rw [hother id hne]
      exact ⟨hcreatures, hplayers⟩

/-- A creature is taken out of the leaf of its tile. -/
theorem leafRemoveCreature (h : WellFormed isPlayer w) {c : γ} {tilePos : Position} {leaf : LeafId}
    (hc : w.creatures c = some tilePos) (hleaf : w.tree.leafAt tilePos.x tilePos.y = some leaf) :
    WellFormed isPlayer
      { w.leafRemoveCreature isPlayer leaf c with
        creatures := Function.update w.creatures c none } := by
  have hself : ((w.leafRemoveCreature isPlayer leaf c).tree.leaves leaf) =
      { w.tree.leaves leaf with
        creature_list := swapRemove (w.tree.leaves leaf).creature_list c
        player_list := if isPlayer c then swapRemove (w.tree.leaves leaf).player_list c
          else (w.tree.leaves leaf).player_list } := Function.update_self _ _ _
  have hother : ∀ id, id ≠ leaf → (w.leafRemoveCreature isPlayer leaf c).tree.leaves id =
      w.tree.leaves id := fun id hne => Function.update_of_ne hne _ _
  have hupdate : ∀ a, a ≠ c → Function.update w.creatures c none a = w.creatures a :=
    fun a hne => Function.update_of_ne hne _ _
  have hgone : ¬ ∃ p, Function.update w.creatures c none c = some p := by
    rw [Function.update_self]
    exact fun hex => nomatch hex.choose_spec
  refine ⟨linked_setLeaf h.linked rfl rfl, h.layer_lt, h.leaf_isSome, fun a p ha => ?_,
    fun x y id a hid => ?_, fun x y id a hid => ?_, fun x y id hid => ?_⟩
  · simp only at ha
    rcases eq_or_ne a c with rfl | hne
    · exact absurd ⟨p, ha⟩ hgone
    · rw [hupdate a hne] at ha
      exact h.tile_of_creature a p ha
  · simp only
    have hold := h.mem_creature_list x y id a hid
    rcases eq_or_ne id leaf with rfl | hne
    · rw [hself, mem_swapRemove (h.nodup x y id hid).1]
      rcases eq_or_ne a c with rfl | ha
      · exact iff_of_false (fun hmem => hmem.2 rfl) fun ⟨p, hp, _⟩ => hgone ⟨p, hp⟩
      · rw [hupdate a ha, and_iff_left ha, hold]
    · rw [hother id hne]
      rcases eq_or_ne a c with rfl | ha
      · refine iff_of_false (fun hmem => ?_) fun ⟨p, hp, _⟩ => hgone ⟨p, hp⟩
        obtain ⟨p, hp, hblock⟩ := hold.1 hmem
        rw [hc] at hp
        rw [← Option.some.inj hp] at hblock
        have hsame : w.tree.leafAt x y = some leaf :=
          (Linked.leafAt_congr hblock.symm).trans hleaf
        exact hne (Option.some.inj (hid.symm.trans hsame))
      · rw [hupdate a ha, hold]
  · simp only
    have hold := h.mem_player_list x y id a hid
    rcases eq_or_ne id leaf with rfl | hne
    · obtain ⟨hcreatures, hplayers⟩ := h.nodup x y id hid
      rw [hself]
      simp only [mem_swapRemove hcreatures]
      by_cases hp : isPlayer c = true
      · rw [if_pos hp, mem_swapRemove hplayers, hold]
        tauto
      · rw [if_neg hp, hold]
        rcases eq_or_ne a c with rfl | ha
        · simp [hp]
        · simp [ha]
    · rw [hother id hne]
      exact hold
  · obtain ⟨hcreatures, hplayers⟩ := h.nodup x y id hid
    simp only
    rcases eq_or_ne id leaf with rfl | hne
    · rw [hself]
      simp only
      refine ⟨nodup_swapRemove hcreatures c, ?_⟩
      split_ifs with hp
      · exact nodup_swapRemove hplayers c
      · exact hplayers
    · rw [hother id hne]
      exact ⟨hcreatures, hplayers⟩

theorem placeCreature (h : WellFormed isPlayer w) (c : γ) (dest : Position) :
    WellFormed isPlayer (w.placeCreature isPlayer c dest) := by
  rw [CreatureMap.placeCreature]
  split
  · rename_i leaf hc hdest hleaf
    rw [h.getQTNode_eq] at hleaf
    exact h.addCreature hc hdest hleaf
  · exact h

theorem removeCreature (h : WellFormed isPlayer w) (c : γ) : WellFormed isPlayer (w.removeCreature isPlayer c) := by
  rw [CreatureMap.removeCreature]
  split
  · rename_i tilePos hc
    split
    · rename_i leaf hleaf
      rw [h.getQTNode_eq] at hleaf
      exact h.leafRemoveCreature hc hleaf
    · exact h
  · exact h

/-- A move within a block changes the position only. -/
theorem moveInBlock (h : WellFormed isPlayer w) {c : γ} {oldPos newPos : Position}
    (hc : w.creatures c = some oldPos) (hnew : w.tiles newPos)
    (hblock : blockPath oldPos.x oldPos.y = blockPath newPos.x newPos.y) :
    WellFormed isPlayer { w with creatures := Function.update w.creatures c (some newPos) } := by
  refine { h with tile_of_creature := fun a p ha => ?_, mem_creature_list := fun x y id a hid => ?_ }
  · simp only at ha
    rcases eq_or_ne a c with rfl | hne
    · rw [Function.update_self] at ha
      rw [← Option.some.inj ha]
      exact hnew
    · rw [Function.update_of_ne hne] at ha
      exact h.tile_of_creature a p ha
  · simp only
    rw [h.mem_creature_list x y id a hid]
    rcases eq_or_ne a c with rfl | hne
    · rw [Function.update_self, hc]
      simp only [Option.some.injEq, exists_eq_left', hblock]
    · rw [Function.update_of_ne hne]

/-- A move to another block is a removal and a placement. -/
theorem moveCreature (h : WellFormed isPlayer w) (c : γ) (newPos : Position) :
    WellFormed isPlayer (w.moveCreature isPlayer c newPos) := by
  rw [CreatureMap.moveCreature]
  split
  · rename_i oldPos hc hnew
    split
    · rename_i leaf newLeaf hleaf hnewLeaf
      rw [h.getQTNode_eq] at hleaf hnewLeaf
      by_cases hne : leaf = newLeaf
      · subst hne
        simp only [ne_eq, not_true_eq_false, if_false]
        exact h.moveInBlock hc hnew (h.linked.sameBlock _ _ _ _ _ hleaf hnewLeaf)
      · have hremoved := h.leafRemoveCreature hc hleaf
        have hplaced := hremoved.addCreature (Function.update_self _ _ _) hnew hnewLeaf
        simp only [ne_eq, hne, not_false_eq_true, if_true]
        simp only [Function.update_idem] at hplaced
        exact hplaced
    · exact h
  · exact h

/-- **One change of the map** keeps the lists. -/
theorem step (h : WellFormed isPlayer w) (change : Step γ) :
    WellFormed isPlayer (CreatureMap.step isPlayer w change) := by
  cases change with
  | setTile position => exact h.setTile position
  | placeCreature c dest => exact h.placeCreature c dest
  | moveCreature c newPos => exact h.moveCreature c newPos
  | removeCreature c => exact h.removeCreature c

end WellFormed

/-- **Every run** leaves the lists as those of the creatures in the blocks. -/
theorem wellFormed_run (isPlayer : γ → Bool) (steps : List (Step γ)) :
    WellFormed isPlayer (run isPlayer steps) := by
  have hfold : ∀ w : CreatureMap γ, WellFormed isPlayer w →
      WellFormed isPlayer (steps.foldl (step isPlayer) w) := by
    induction steps with
    | nil => exact fun _ h => h
    | cons change steps ih => exact fun w h => ih _ (h.step change)
  exact hfold empty WellFormed.empty

end CreatureMap

end TiabloServer
