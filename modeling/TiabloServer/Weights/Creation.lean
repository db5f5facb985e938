import TiabloServer.Weights.Operations

/-!
# Cloning and loading containers

Clones and loaded items are new: nothing that was there before changes, and the totals of the new
containers are right, those of clones as long as the clones weigh what the originals weigh.

## Main definitions

* `Weights.Created` — a new item lies in no container and all that is new has the right totals.
* `Weights.Clonable` — items whose clones weigh the same.

## Main results

* `Weights.cloned_clone` — a clone weighs what the original weighs.
* `Weights.loaded_loadNode` — what is loaded has the right totals.
-/

namespace TiabloServer.Weights

open Items (ItemTypes createdId)

/-- All items of `h` are in `h'` as they were. -/
structure Extends (h h' : Heap) : Prop where
  size : h.size ≤ h'.size
  items : ∀ k, k < h.size → h'.items k = h.items k

namespace Extends

variable {types : ItemTypes} {h h' h'' : Heap} {k : ℕ}

theorem trans (e : Extends h h') (e' : Extends h' h'') : Extends h h'' :=
  ⟨e.size.trans e'.size, fun k hk => (e'.items k (hk.trans_le e.size)).trans (e.items k hk)⟩

theorem parent (e : Extends h h') (hk : k < h.size) : h'.parent k = h.parent k := by
  rw [Heap.parent, e.items k hk, Heap.parent]

theorem itemlist (e : Extends h h') (hk : k < h.size) : h'.itemlist k = h.itemlist k := by
  rw [Heap.itemlist, e.items k hk, Heap.itemlist]

theorem isContainer (e : Extends h h') (hk : k < h.size) : h'.isContainer k = h.isContainer k := by
  rw [Heap.isContainer, e.items k hk, Heap.isContainer]

theorem totalWeight (e : Extends h h') (hk : k < h.size) : h'.totalWeight k = h.totalWeight k := by
  rw [Heap.totalWeight, e.items k hk, Heap.totalWeight]

theorem itemWeight (e : Extends h h') (hk : k < h.size) : h'.itemWeight types k = h.itemWeight types k := by
  rw [Heap.itemWeight, e.items k hk, Heap.itemWeight]

theorem getWeight (e : Extends h h') (hk : k < h.size) : h'.getWeight types k = h.getWeight types k :=
  getWeight_congr (e.itemWeight hk) (e.totalWeight hk)

/-- What lies in an old container weighs what it weighed. -/
theorem sum_getWeight (e : Extends h h') (hwf : WellFormed h) (hk : k < h.size) :
    ((h'.itemlist k).map (h'.getWeight types)).sum = ((h.itemlist k).map (h.getWeight types)).sum := by
  rw [e.itemlist hk]
  refine congrArg List.sum (List.map_congr_left fun x hx => e.getWeight ?_)
  exact (hwf.live x k ((hwf.links.mem_iff x k).1 hx)).1

theorem weighsItems (e : Extends h h') (hwf : WellFormed h) (hk : k < h.size)
    (hweighs : WeighsItems types h k) : WeighsItems types h' k := by
  rw [WeighsItems, e.totalWeight hk, e.sum_getWeight hwf hk]
  exact hweighs

end Extends

/-! ## New items -/

section Create

variable {types : ItemTypes} {h : Heap} {i : Item}

theorem extends_create (h : Heap) (i : Item) : Extends h (h.create i) :=
  ⟨Nat.le_succ _, fun _ hk => Function.update_of_ne hk.ne _ _⟩

theorem items_create_self : (h.create i).items h.size = i := Function.update_self ..

theorem items_create_of_ne {k : ℕ} (hk : k ≠ h.size) : (h.create i).items k = h.items k :=
  Function.update_of_ne hk _ _

theorem WellFormed.parent_eq_none (hwf : WellFormed h) {k : ℕ} (hk : h.size ≤ k) : h.parent k = none := by
  cases hp : h.parent k with
  | none => rfl
  | some p => exact absurd (hwf.live k p hp).1 hk.not_gt

/-- **A new item keeps the containers a forest** if it lies in none and nothing lies in it. -/
theorem WellFormed.create (hwf : WellFormed h) (hparent : i.parent = none)
    (hempty : ∀ k, i.container = some k → k.itemlist = []) : WellFormed (h.create i) := by
  have hparents : ∀ n, (h.create i).parent n = h.parent n := by
    intro n
    by_cases hn : n = h.size
    · rw [hn, Heap.parent, items_create_self, hparent, hwf.parent_eq_none le_rfl]
    · rw [Heap.parent, items_create_of_ne hn, Heap.parent]
  have hlists : ∀ n, (h.create i).itemlist n = h.itemlist n := by
    intro n
    by_cases hn : n = h.size
    · rw [hn, h.itemlist_eq_nil (hwf.fresh _ le_rfl), Heap.itemlist, items_create_self]
      cases hk : i.container with
      | none => rfl
      | some k => exact hempty k hk
    · rw [Heap.itemlist, items_create_of_ne hn, Heap.itemlist]
  have hlinks : Forest.Links (h.create i).parent (h.create i).itemlist := by
    rw [funext hparents, funext hlists]
    exact hwf.links
  refine ⟨hlinks, ?_, fun x p hp => ?_, fun n hn => ?_⟩
  · rw [funext hparents]
    exact hwf.ranked
  · rw [hparents] at hp
    exact (hwf.live x p hp).imp Nat.lt_succ_of_lt Nat.lt_succ_of_lt
  · have hlt : h.size < n := hn
    rw [Heap.isContainer, items_create_of_ne hlt.ne']
    exact hwf.fresh n hlt.le

end Create

/-- `x` is a new item of `h'`: it lies in no container, the items of `h` are as they were, and the
totals of all new containers are right. -/
structure Created (types : ItemTypes) (h h' : Heap) (x : ℕ) : Prop where
  wellFormed : WellFormed h'
  ext : Extends h h'
  le : h.size ≤ x
  lt : x < h'.size
  root : h'.parent x = none
  weighs : ∀ k, h.size ≤ k → WeighsItems types h' k

/-- The first new item of `s` is a container that is being filled: it lies in none, and the totals
of all other new containers are right. -/
structure Filling (types : ItemTypes) (h s : Heap) : Prop where
  wellFormed : WellFormed s
  ext : Extends h s
  lt : h.size < s.size
  root : s.parent h.size = none
  weighs : ∀ k, h.size < k → WeighsItems types s k

section Fill

variable {types : ItemTypes} {h s s' : Heap} {x : ℕ} {i : Item}

theorem above_of_root {c : ℕ} (hroot : h.parent c = none) : h.above c = [c] :=
  Forest.chain_of_none hroot

theorem items_addItem_of_ne {c k : ℕ} (hc : k ≠ c) (hx : k ≠ x) : (addItem h c x).items k = h.items k := by
  rw [addItem, Heap.setParent, Heap.items_setItem, if_neg hx, Heap.setItemlist,
    Heap.items_mapContainer_of_ne hc]

theorem weighsItems_of_empty {n : ℕ} (hlist : h.itemlist n = []) (htotal : h.totalWeight n = 0) :
    WeighsItems types h n := by
  rw [WeighsItems, hlist, htotal]
  rfl

theorem filling_create (hwf : WellFormed h) (hparent : i.parent = none)
    (hempty : ∀ k, i.container = some k → k.itemlist = []) : Filling types h (h.create i) where
  wellFormed := hwf.create hparent hempty
  ext := extends_create h i
  lt := Nat.lt_succ_self _
  root := by rw [Heap.parent, items_create_self, hparent]
  weighs k hk := by
    have hnot : (h.create i).isContainer k = false := (hwf.create hparent hempty).fresh k hk
    exact weighsItems_of_empty (Heap.itemlist_eq_nil _ hnot) (Heap.totalWeight_eq_zero _ hnot)

namespace Filling

variable (f : Filling types h s) (n : Created types s s' x)
include f n

theorem root' : s'.parent h.size = none := (n.ext.parent f.lt).trans f.root

theorem ne : x ≠ h.size := (f.lt.trans_le n.le).ne'

theorem notMem_above : x ∉ s'.above h.size := by
  rw [above_of_root (f.root' n), List.mem_singleton]
  exact f.ne n

/-- What was new stays right while a further item is made. -/
theorem weighs_created {k : ℕ} (hk : WeighsItems types s k ∨ s.size ≤ k) : WeighsItems types s' k := by
  by_cases hlt : k < s.size
  · exact n.ext.weighsItems f.wellFormed hlt (hk.resolve_right hlt.not_ge)
  · exact n.weighs k (not_lt.1 hlt)

/-- **Filling goes on** when a new item is put into the container. -/
theorem addItem (hc : s.isContainer h.size = true) :
    Attached s' (addItem s' h.size x) h.size x ∧ Filling types h (addItem s' h.size x) := by
  have hc' := (n.ext.isContainer f.lt).trans hc
  have ha := attached_addItem hc' x
  refine ⟨ha, ha.wellFormed n.wellFormed hc' n.lt (n.root) (f.notMem_above n), ⟨?_, ?_⟩, ?_, ?_,
    fun k hk => ?_⟩
  · exact f.ext.size.trans n.ext.size
  · intro k hk
    rw [items_addItem_of_ne hk.ne (hk.trans (f.lt.trans_le n.le)).ne,
      (f.ext.trans n.ext).items k hk]
  · exact f.lt.trans_le n.ext.size
  · rw [ha.parent, if_neg (f.ne n).symm, f.root' n]
  · exact ha.weighsItems hk.ne' (f.weighs_created n (Or.inl (f.weighs k hk)))

end Filling

end Fill

/-! ## Cloning -/

/-- Items that can be cloned: what lies in one of them is one of them, of lower rank, their totals
are right, and their clones weigh what they weigh. -/
structure Clonable (types : ItemTypes) (h : Heap) (r : ℕ → ℕ) (S : ℕ → Prop) : Prop where
  live : ∀ k, S k → k < h.size
  closed : ∀ k, S k → ∀ x ∈ h.itemlist k, S x ∧ r x < r k
  weighs : ∀ k, S k → WeighsItems types h k
  weight : ∀ k, S k → ((h.items k).clone types).getWeight types = h.itemWeight types k

section Clone

variable {types : ItemTypes} {h s : Heap} {r : ℕ → ℕ} {S : ℕ → Prop} {n : ℕ}

theorem Clonable.extends (c : Clonable types h r S) (hwf : WellFormed h) (e : Extends h s) :
    Clonable types s r S where
  live k hk := (c.live k hk).trans_le e.size
  closed k hk x hx := by
    rw [e.itemlist (c.live k hk)] at hx
    exact c.closed k hk x hx
  weighs k hk := e.weighsItems hwf (c.live k hk) (c.weighs k hk)
  weight k hk := by
    rw [e.items k (c.live k hk), e.itemWeight (c.live k hk)]
    exact c.weight k hk

/-- The clone of `n` is being filled: it has the class and the own weight of `n`, and clones of the
items `l` lie in it. -/
structure FillingClone (types : ItemTypes) (h : Heap) (n : ℕ) (l : List ℕ) (s : Heap) : Prop
    extends Filling types h s where
  isContainer : s.isContainer h.size = h.isContainer n
  itemWeight : s.itemWeight types h.size = h.itemWeight types n
  sum : ((s.itemlist h.size).map (s.getWeight types)).sum = (l.map (h.getWeight types)).sum

theorem fillingClone_create (hwf : WellFormed h)
    (hweight : ((h.items n).clone types).getWeight types = h.itemWeight types n) :
    FillingClone types h n [] (h.create ((h.items n).clone types)) where
  toFilling := by
    refine filling_create hwf rfl fun k hk => ?_
    obtain ⟨k', -, rfl⟩ := Option.map_eq_some_iff.1 hk
    rfl
  isContainer := by
    rw [Heap.isContainer, items_create_self, Item.clone, Option.isSome_map, Heap.isContainer]
  itemWeight := by rw [Heap.itemWeight, items_create_self, hweight]
  sum := by
    rw [Heap.itemlist, items_create_self, Item.clone]
    cases (h.items n).container <;> rfl

/-- One more clone in the container. -/
theorem FillingClone.addItem {l : List ℕ} {x y : ℕ} {s' : Heap} (f : FillingClone types h n l s)
    (c : Created types s s' y) (hc : h.isContainer n = true) (hx : x < h.size)
    (hweight : s'.getWeight types y = s.getWeight types x) :
    FillingClone types h n (l ++ [x]) (addItem s' h.size y) := by
  obtain ⟨ha, hf⟩ := f.toFilling.addItem c (f.isContainer.trans hc)
  have hget : (Weights.addItem s' h.size y).getWeight types = s'.getWeight types :=
    funext fun k => getWeight_congr (ha.itemWeight types k) (ha.totalWeight k)
  refine ⟨hf, ?_, ?_, ?_⟩
  · rw [ha.isContainer, c.ext.isContainer f.lt, f.isContainer]
  · rw [ha.itemWeight, c.ext.itemWeight f.lt, f.itemWeight]
  · rw [hget, (ha.perm.map _).sum_eq, List.map_cons, List.sum_cons,
      c.ext.sum_getWeight f.wellFormed f.lt, f.sum, hweight, f.ext.getWeight hx, List.map_append,
      List.sum_append, List.map_singleton, List.sum_singleton, add_comm]

/-- A clone: a new item that weighs what the original weighs. -/
structure Cloned (types : ItemTypes) (h : Heap) (n : ℕ) (h' : Heap) (x : ℕ) : Prop
    extends Created types h h' x where
  weight : h'.getWeight types x = h.getWeight types n

/-- The clone is finished when it holds clones of all items and has been given the total. -/
theorem FillingClone.finish (f : FillingClone types h n (h.itemlist n) s)
    (hn : WeighsItems types h n) :
    Cloned types h n (s.mapContainer h.size fun k => { k with totalWeight := h.totalWeight n })
      h.size := by
  let s' := s.mapContainer h.size fun k => { k with totalWeight := h.totalWeight n }
  have htotal : s'.totalWeight h.size = h.totalWeight n := by
    cases hc : h.isContainer n with
    | false =>
      have hc' : s'.isContainer h.size = false := by
        rw [Heap.isContainer_mapContainer, f.isContainer, hc]
      rw [h.totalWeight_eq_zero hc, s'.totalWeight_eq_zero hc']
    | true =>
      obtain ⟨k, hk⟩ := Option.isSome_iff_exists.1 (f.isContainer.trans hc)
      rw [Heap.totalWeight, Heap.container_mapContainer_self, hk]
      rfl
  have hother : ∀ k, k ≠ h.size → s'.totalWeight k = s.totalWeight k := by
    intro k hk
    rw [Heap.totalWeight, Heap.items_mapContainer_of_ne hk, Heap.totalWeight]
  have hlist : ∀ k, s'.itemlist k = s.itemlist k := Heap.itemlist_mapContainer fun _ => rfl
  have hchild : ∀ k, ∀ x ∈ s.itemlist k, s'.getWeight types x = s.getWeight types x := by
    intro k x hx
    refine getWeight_congr (Heap.itemWeight_mapContainer types x) (hother x ?_)
    rintro rfl
    cases f.root.symm.trans ((f.wellFormed.links.mem_iff h.size k).1 hx)
  refine ⟨⟨?_, ⟨f.ext.size, fun k hk => ?_⟩, le_rfl, f.lt, ?_, fun k hk => ?_⟩, ?_⟩
  · exact f.wellFormed.congr rfl Heap.parent_mapContainer hlist Heap.isContainer_mapContainer
  · rw [Heap.items_mapContainer_of_ne hk.ne, f.ext.items k hk]
  · rw [Heap.parent_mapContainer, f.root]
  · rw [WeighsItems, hlist, List.map_congr_left (hchild k)]
    by_cases hk' : k = h.size
    · rw [hk', htotal, hn, f.sum]
    · rw [hother k hk', f.weighs k (lt_of_le_of_ne hk (Ne.symm hk'))]
  · exact congrArg₂ (· + ·) ((Heap.itemWeight_mapContainer types h.size).trans f.itemWeight) htotal

/-- **A clone weighs what the original weighs**, and all of its containers have the right totals. -/
theorem cloned_clone {fuel : ℕ} (hwf : WellFormed h) (c : Clonable types h r S) (hn : S n) (hfuel : r n < fuel) :
    Cloned types h n (clone types fuel h n).1 (clone types fuel h n).2 := by
  induction fuel generalizing h n with
  | zero => exact absurd hfuel (Nat.not_lt_zero _)
  | succ fuel ih =>
    -- the loop over the items of `n`, of which the clones of `l₁` are already there
    have hloop : ∀ l₂ l₁ s, (∀ x ∈ l₂, x ∈ h.itemlist n) → FillingClone types h n l₁ s →
        FillingClone types h n (l₁ ++ l₂) (l₂.foldl (fun s x =>
          addItem (clone types fuel s x).1 h.size (clone types fuel s x).2) s) := by
      intro l₂
      induction l₂ with
      | nil =>
        intro l₁ s _ f
        rw [List.append_nil]
        exact f
      | cons x l₂ ih' =>
        intro l₁ s hmem f
        have hx : x ∈ h.itemlist n := hmem x List.mem_cons_self
        obtain ⟨hSx, hrx⟩ := c.closed n hn x hx
        have hcloned := ih f.wellFormed (c.extends hwf f.ext) hSx (by omega)
        have hnext := f.addItem hcloned.toCreated (h.isContainer_of_mem hx) (c.live x hSx)
          hcloned.weight
        rw [List.foldl_cons, List.append_cons l₁ x l₂]
        exact ih' (l₁ ++ [x]) _ (fun y hy => hmem y (List.mem_cons_of_mem x hy)) hnext
    have hfilled := hloop (h.itemlist n) [] _ (fun _ hx => hx)
      (fillingClone_create hwf (c.weight n hn))
    exact hfilled.finish (c.weighs n hn)

end Clone

/-! ## Loading -/

/-- What loading an item leaves: all that is new has the right totals, also when loading failed. -/
structure Loaded (types : ItemTypes) (h h' : Heap) (item : Option ℕ) : Prop where
  wellFormed : WellFormed h'
  ext : Extends h h'
  weighs : ∀ k, h.size ≤ k → WeighsItems types h' k
  created : ∀ x, item = some x → Created types h h' x

/-- The container that is being loaded has the right total, too. -/
structure FillingLoaded (types : ItemTypes) (h s : Heap) : Prop extends Filling types h s where
  isContainer : s.isContainer h.size = true
  weighs_self : WeighsItems types s h.size

section Load

variable {types : ItemTypes} {h s s' : Heap} {x : ℕ}

theorem FillingLoaded.weighs_new (f : FillingLoaded types h s) {k : ℕ} (hk : h.size ≤ k) :
    WeighsItems types s k := by
  rcases hk.eq_or_lt with rfl | hlt
  · exact f.weighs_self
  · exact f.weighs k hlt

/-- What has been loaded so far stays when an item of the container could not be loaded. -/
theorem FillingLoaded.skip (f : FillingLoaded types h s) (l : Loaded types s s' none) :
    FillingLoaded types h s' where
  wellFormed := l.wellFormed
  ext := f.ext.trans l.ext
  lt := f.lt.trans_le l.ext.size
  root := (l.ext.parent f.lt).trans f.root
  weighs k hk := by
    by_cases hlt : k < s.size
    · exact l.ext.weighsItems f.wellFormed hlt (f.weighs k hk)
    · exact l.weighs k (not_lt.1 hlt)
  isContainer := (l.ext.isContainer f.lt).trans f.isContainer
  weighs_self := l.ext.weighsItems f.wellFormed f.lt f.weighs_self

theorem items_updateItemWeight_of_root {c k : ℕ} (δ : UInt32) (hroot : h.parent c = none)
    (hk : k ≠ c) : (updateItemWeight h c δ).items k = h.items k := by
  have hnone : (h.addTotal c δ).getParentContainer c = none := by
    rw [(Heap.SameItems.addTotal c δ).getParentContainer, Heap.getParentContainer,
      getParent_eq_parent (Or.inr hroot), hroot]
  rw [updateItemWeight]
  cases h.size with
  | zero => exact Heap.items_mapContainer_of_ne hk
  | succ fuel =>
    rw [addToParents, hnone]
    exact Heap.items_mapContainer_of_ne hk

/-- One more item is in the container, and its weight is counted. -/
theorem FillingLoaded.addItem (f : FillingLoaded types h s) (n : Created types s s' x) :
    FillingLoaded types h (updateItemWeight (addItem s' h.size x) h.size
      ((addItem s' h.size x).getWeight types x)) := by
  obtain ⟨ha, hf⟩ := f.toFilling.addItem n f.isContainer
  have hsame := Heap.sameItems_updateItemWeight (Weights.addItem s' h.size x) h.size
    ((Weights.addItem s' h.size x).getWeight types x)
  have hc := (n.ext.isContainer f.lt).trans f.isContainer
  have hplain : Plain s' h.size := by
    intro m hm
    rw [above_of_root (f.root' n), List.mem_singleton] at hm
    exact Or.inr (hm ▸ f.root' n)
  have hself := f.toFilling.weighs_created n (Or.inl f.weighs_self)
  have hweighs : ∀ k, WeighsItems types s' k → WeighsItems types
      (updateItemWeight (Weights.addItem s' h.size x) h.size
        ((Weights.addItem s' h.size x).getWeight types x)) k :=
    fun k hk => ha.weighsItems_update hf.wellFormed hc (f.notMem_above n) (Or.inl hplain) hself hk
  refine ⟨⟨hsame.wellFormed hf.wellFormed, ⟨?_, fun k hk => ?_⟩, ?_, ?_, fun k hk => ?_⟩, ?_, ?_⟩
  · exact hsame.size ▸ hf.ext.size
  · rw [items_updateItemWeight_of_root _ hf.root hk.ne, hf.ext.items k hk]
  · exact hsame.size ▸ hf.lt
  · rw [hsame.parent, hf.root]
  · exact hweighs k (f.toFilling.weighs_created n (Or.inl (f.weighs k hk)))
  · rw [hsame.isContainer, ha.isContainer, hc]
  · exact hweighs h.size hself

/-- What an item's own data make: a new item, of a container if it has contents. -/
theorem created_create {i : Item} (hwf : WellFormed h) (hparent : i.parent = none)
    (hempty : ∀ k, i.container = some k → k.itemlist = [] ∧ k.totalWeight = 0) :
    Created types h (h.create i) h.size := by
  have f : Filling types h (h.create i) :=
    filling_create hwf hparent fun k hk => (hempty k hk).1
  refine ⟨f.wellFormed, f.ext, le_rfl, f.lt, f.root, fun k hk => ?_⟩
  rcases hk.eq_or_lt with rfl | hlt
  · refine weighsItems_of_empty ?_ ?_
    · rw [Heap.itemlist, items_create_self]
      cases hk : i.container with
      | none => rfl
      | some k => exact (hempty k hk).1
    · rw [Heap.totalWeight, items_create_self]
      cases hk : i.container with
      | none => rfl
      | some k => exact (hempty k hk).2
  · exact f.weighs k hlt

theorem created_newItem (hwf : WellFormed h) (id : ℕ) (count : UInt8) (weight : Option UInt32)
    (container : Option (ContainerKind × ℕ)) :
    Created types h (h.create (newItem id count weight container)) h.size := by
  refine created_create hwf rfl fun k hk => ?_
  obtain ⟨k', -, rfl⟩ := Option.map_eq_some_iff.1 hk
  exact ⟨rfl, rfl⟩

theorem Created.loaded (n : Created types h s x) : Loaded types h s none :=
  ⟨n.wellFormed, n.ext, n.weighs, fun _ hx => nomatch hx⟩

theorem FillingLoaded.loaded (f : FillingLoaded types h s) : Loaded types h s (some h.size) := by
  refine ⟨f.wellFormed, f.ext, fun k hk => f.weighs_new hk, fun x hx => ?_⟩
  obtain rfl := Option.some.inj hx
  exact ⟨f.wellFormed, f.ext, le_rfl, f.lt, f.root, fun k hk => f.weighs_new hk⟩

theorem fillingLoaded_newItem (hwf : WellFormed h) (id : ℕ) (count : UInt8)
    (weight : Option UInt32) {container : Option (ContainerKind × ℕ)} (hc : container.isSome = true) :
    FillingLoaded types h (h.create (newItem id count weight container)) := by
  have n : Created types h (h.create (newItem id count weight container)) h.size :=
    created_newItem hwf id count weight container
  refine ⟨⟨n.wellFormed, n.ext, n.lt, n.root, fun k hk => n.weighs k hk.le⟩, ?_, n.weighs _ le_rfl⟩
  rw [Heap.isContainer, items_create_self, newItem, Option.isSome_map, hc]

mutual

/-- **What is loaded has the right totals**, whether or not loading succeeds. -/
theorem loaded_loadNode (node : Node) {h : Heap} (hwf : WellFormed h) :
    Loaded types h (loadNode types node h).1 (loadNode types node h).2 := by
  obtain ⟨data, children⟩ := node
  rw [loadNode]
  split
  · exact ⟨hwf, ⟨le_rfl, fun _ _ => rfl⟩, fun k hk => weighsItems_of_empty
      (Heap.itemlist_eq_nil _ (hwf.fresh k hk)) (Heap.totalWeight_eq_zero _ (hwf.fresh k hk)),
      fun _ hx => nomatch hx⟩
  · rename_i id container _
    dsimp only
    split
    · exact (created_newItem hwf id 1 none container).loaded
    · rename_i count weight _
      split_ifs with hc
      · have hfilling : FillingLoaded types h (h.create (newItem id count weight container)) :=
          fillingLoaded_newItem hwf id count weight hc
        have hchildren := fillingLoaded_loadChildren children hfilling
        revert hchildren
        generalize loadChildren types children h.size _ = loaded
        rcases loaded with ⟨s, _ | _⟩
        · intro f
          exact ⟨f.wellFormed, f.ext, fun k hk => f.weighs_new hk, fun _ hx => nomatch hx⟩
        · exact fun f => f.loaded
      · have n : Created types h (h.create (newItem id count weight container)) h.size :=
          created_newItem hwf id count weight container
        exact ⟨n.wellFormed, n.ext, n.weighs, fun x hx => Option.some.inj hx ▸ n⟩

/-- The container stays one that is being loaded. -/
theorem fillingLoaded_loadChildren (children : List Node) {h s : Heap} (f : FillingLoaded types h s) :
    FillingLoaded types h (loadChildren types children h.size s).1 := by
  match children with
  | [] =>
    rw [loadChildren]
    exact f
  | .node data below :: children =>
    rw [loadChildren]
    split_ifs
    · have hloaded := loaded_loadNode (.node data below) f.wellFormed
      revert hloaded
      generalize loadNode types (.node data below) s = loaded
      rcases loaded with ⟨s', _ | x⟩
      · intro l
        exact fillingLoaded_loadChildren children (f.skip l)
      · intro l
        exact fillingLoaded_loadChildren children (f.addItem (l.created x rfl))
    · exact f

end

end Load

end TiabloServer.Weights
