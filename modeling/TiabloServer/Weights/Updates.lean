import TiabloServer.Weights.Container

/-!
# Pushing weight differences upwards

What the operations on a heap leave as it is, and what `updateItemWeight` does to the totals.

## Main definitions

* `Weights.WeighsItems` — the total of a container is the weight of its items.
* `Weights.Plain` — no `getParent` above a container skips anything.

## Main results

* `Weights.totalWeight_updateItemWeight` — the difference is added to a container and to all above.
* `Weights.WellFormed.attach`, `Weights.WellFormed.detach` — the containers stay a forest.
* `Weights.weighsItems_push` — the totals are right when the difference is that of the items.
-/

namespace TiabloServer.Weights

open Items (ItemTypes createdId)

namespace Heap

variable (types : ItemTypes) (h : Heap)

/-- Whether an item is a container. -/
def isContainer (n : ℕ) : Bool := (h.items n).container.isSome

theorem itemlist_eq_nil {n : ℕ} (hn : h.isContainer n = false) : h.itemlist n = [] := by
  have hnone : (h.items n).container = none := by simpa [isContainer] using hn
  simp [itemlist, hnone]

theorem totalWeight_eq_zero {n : ℕ} (hn : h.isContainer n = false) : h.totalWeight n = 0 := by
  have hnone : (h.items n).container = none := by simpa [isContainer] using hn
  simp [totalWeight, hnone]

theorem isContainer_of_mem {n x : ℕ} (hx : x ∈ h.itemlist n) : h.isContainer n = true := by
  by_contra hn
  rw [h.itemlist_eq_nil (Bool.eq_false_iff.2 hn)] at hx
  exact nomatch hx

/-! ### What the heap's operations leave -/

section SetItem

variable {h} {n : ℕ} {i : Item}

@[simp] theorem size_setItem : (h.setItem n i).size = h.size := rfl

@[simp] theorem items_setItem (k : ℕ) :
    (h.setItem n i).items k = if k = n then i else h.items k :=
  Function.update_apply ..

@[simp] theorem size_setParent {p : Option ℕ} : (h.setParent n p).size = h.size := rfl

@[simp] theorem parent_setParent {p : Option ℕ} (k : ℕ) :
    (h.setParent n p).parent k = if k = n then p else h.parent k := by
  simp only [parent, setParent, items_setItem]
  split_ifs <;> rfl

@[simp] theorem kind_setParent {p : Option ℕ} (k : ℕ) : (h.setParent n p).kind k = h.kind k := by
  simp only [kind, setParent, items_setItem]
  split_ifs with hk
  · rw [hk]
  · rfl

@[simp] theorem isContainer_setParent {p : Option ℕ} (k : ℕ) :
    (h.setParent n p).isContainer k = h.isContainer k := by
  simp only [isContainer, setParent, items_setItem]
  split_ifs with hk
  · rw [hk]
  · rfl

@[simp] theorem itemlist_setParent {p : Option ℕ} (k : ℕ) : (h.setParent n p).itemlist k = h.itemlist k := by
  simp only [itemlist, setParent, items_setItem]
  split_ifs with hk
  · rw [hk]
  · rfl

@[simp] theorem totalWeight_setParent {p : Option ℕ} (k : ℕ) :
    (h.setParent n p).totalWeight k = h.totalWeight k := by
  simp only [totalWeight, setParent, items_setItem]
  split_ifs with hk
  · rw [hk]
  · rfl

@[simp] theorem itemWeight_setParent {p : Option ℕ} (k : ℕ) :
    (h.setParent n p).itemWeight types k = h.itemWeight types k := by
  simp only [itemWeight, setParent, items_setItem]
  split_ifs with hk
  · rw [hk]
    rfl
  · rfl

end SetItem

section MapContainer

variable {h} {n : ℕ} {f : Container → Container}

@[simp] theorem size_mapContainer : (h.mapContainer n f).size = h.size := rfl

@[simp] theorem parent_mapContainer (k : ℕ) : (h.mapContainer n f).parent k = h.parent k := by
  simp only [parent, mapContainer, items_setItem]
  split_ifs with hk
  · rw [hk]
  · rfl

@[simp] theorem itemWeight_mapContainer (k : ℕ) :
    (h.mapContainer n f).itemWeight types k = h.itemWeight types k := by
  simp only [itemWeight, mapContainer, items_setItem]
  split_ifs with hk
  · rw [hk]
    rfl
  · rfl

@[simp] theorem isContainer_mapContainer (k : ℕ) : (h.mapContainer n f).isContainer k = h.isContainer k := by
  simp only [isContainer, mapContainer, items_setItem]
  split_ifs with hk
  · rw [hk, Option.isSome_map]
  · rfl

theorem items_mapContainer_of_ne {k : ℕ} (hk : k ≠ n) : (h.mapContainer n f).items k = h.items k := by
  simp only [mapContainer, items_setItem, if_neg hk]

theorem container_mapContainer_self : ((h.mapContainer n f).items n).container = (h.items n).container.map f := by
  simp only [mapContainer, items_setItem, if_true]

/-- A change of a container leaves what it does not mention. -/
theorem map_container_mapContainer {α : Type} {g : Container → α} (hg : ∀ k, g (f k) = g k) (k : ℕ) :
    ((h.mapContainer n f).items k).container.map g = (h.items k).container.map g := by
  by_cases hk : k = n
  · rw [hk, container_mapContainer_self, Option.map_map]
    exact congrFun (congrArg Option.map (funext hg)) _
  · rw [items_mapContainer_of_ne hk]

theorem kind_mapContainer (hf : ∀ c, (f c).kind = c.kind) (k : ℕ) : (h.mapContainer n f).kind k = h.kind k := by
  rw [kind, map_container_mapContainer hf, kind]

theorem itemlist_mapContainer (hf : ∀ c, (f c).itemlist = c.itemlist) (k : ℕ) :
    (h.mapContainer n f).itemlist k = h.itemlist k := by
  rw [itemlist, map_container_mapContainer hf, itemlist]

theorem totalWeight_mapContainer (hf : ∀ c, (f c).totalWeight = c.totalWeight) (k : ℕ) :
    (h.mapContainer n f).totalWeight k = h.totalWeight k := by
  rw [totalWeight, map_container_mapContainer hf, totalWeight]

@[simp] theorem kind_setItemlist {l : List ℕ} (k : ℕ) : (h.setItemlist n l).kind k = h.kind k :=
  kind_mapContainer (by exact fun _ => rfl) k

@[simp] theorem totalWeight_setItemlist {l : List ℕ} (k : ℕ) :
    (h.setItemlist n l).totalWeight k = h.totalWeight k :=
  totalWeight_mapContainer (by exact fun _ => rfl) k

@[simp] theorem kind_addTotal {diff : UInt32} (k : ℕ) : (h.addTotal n diff).kind k = h.kind k :=
  kind_mapContainer (by exact fun _ => rfl) k

@[simp] theorem itemlist_addTotal {diff : UInt32} (k : ℕ) : (h.addTotal n diff).itemlist k = h.itemlist k :=
  itemlist_mapContainer (by exact fun _ => rfl) k

@[simp] theorem size_setItemlist {l : List ℕ} : (h.setItemlist n l).size = h.size := rfl

@[simp] theorem parent_setItemlist {l : List ℕ} (k : ℕ) : (h.setItemlist n l).parent k = h.parent k :=
  parent_mapContainer k

@[simp] theorem isContainer_setItemlist {l : List ℕ} (k : ℕ) :
    (h.setItemlist n l).isContainer k = h.isContainer k :=
  isContainer_mapContainer k

@[simp] theorem itemWeight_setItemlist {l : List ℕ} (k : ℕ) :
    (h.setItemlist n l).itemWeight types k = h.itemWeight types k :=
  itemWeight_mapContainer types k

theorem itemlist_setItemlist {l : List ℕ} (hn : h.isContainer n = true) (k : ℕ) :
    (h.setItemlist n l).itemlist k = if k = n then l else h.itemlist k := by
  obtain ⟨c, hc⟩ := Option.isSome_iff_exists.1 hn
  split_ifs with hk
  · rw [hk, itemlist, setItemlist, container_mapContainer_self, hc]
    rfl
  · rw [itemlist, setItemlist, items_mapContainer_of_ne hk]
    rfl

theorem totalWeight_addTotal {diff : UInt32} (hn : h.isContainer n = true) (k : ℕ) :
    (h.addTotal n diff).totalWeight k = h.totalWeight k + if k = n then diff else 0 := by
  obtain ⟨c, hc⟩ := Option.isSome_iff_exists.1 hn
  split_ifs with hk
  · rw [hk, totalWeight, addTotal, container_mapContainer_self, totalWeight, hc]
    rfl
  · rw [totalWeight, addTotal, items_mapContainer_of_ne hk, add_zero]
    rfl

theorem totalWeight_addTotal_zero (n k : ℕ) : (h.addTotal n 0).totalWeight k = h.totalWeight k :=
  totalWeight_mapContainer (fun c => add_zero c.totalWeight) k

end MapContainer

/-- Two heaps that differ at most in the totals. -/
structure SameItems (h h' : Heap) : Prop where
  size : h'.size = h.size
  parent : ∀ n, h'.parent n = h.parent n
  kind : ∀ n, h'.kind n = h.kind n
  itemlist : ∀ n, h'.itemlist n = h.itemlist n
  isContainer : ∀ n, h'.isContainer n = h.isContainer n
  itemWeight : ∀ types n, h'.itemWeight types n = h.itemWeight types n

namespace SameItems

variable {h} {h' : Heap}

theorem refl : SameItems h h := ⟨rfl, fun _ => rfl, fun _ => rfl, fun _ => rfl, fun _ => rfl,
  fun _ _ => rfl⟩

theorem trans {h h' h'' : Heap} (a : SameItems h h') (b : SameItems h' h'') : SameItems h h'' where
  size := b.size.trans a.size
  parent n := (b.parent n).trans (a.parent n)
  kind n := (b.kind n).trans (a.kind n)
  itemlist n := (b.itemlist n).trans (a.itemlist n)
  isContainer n := (b.isContainer n).trans (a.isContainer n)
  itemWeight types n := (b.itemWeight types n).trans (a.itemWeight types n)

theorem addTotal (n : ℕ) (diff : UInt32) : SameItems h (h.addTotal n diff) where
  size := rfl
  parent := parent_mapContainer
  kind := kind_addTotal
  itemlist := itemlist_addTotal
  isContainer := isContainer_mapContainer
  itemWeight types := itemWeight_mapContainer types

theorem setParent (a : SameItems h h') (n : ℕ) (p : Option ℕ) : SameItems (h.setParent n p) (h'.setParent n p) where
  size := a.size
  parent k := by rw [parent_setParent, parent_setParent, a.parent]
  kind k := by rw [kind_setParent, kind_setParent, a.kind]
  itemlist k := by rw [itemlist_setParent, itemlist_setParent, a.itemlist]
  isContainer k := by rw [isContainer_setParent, isContainer_setParent, a.isContainer]
  itemWeight types k := by rw [itemWeight_setParent, itemWeight_setParent, a.itemWeight]

/-- Who the next container is does not depend on totals. -/
theorem getParentContainer (a : SameItems h h') (n : ℕ) : h'.getParentContainer n = h.getParentContainer n := by
  have hfuel : ∀ fuel n, h'.getParent fuel n = h.getParent fuel n := by
    intro fuel
    induction fuel with
    | zero => exact fun _ => rfl
    | succ fuel ih =>
      intro n
      have hfun : h'.getParent fuel = h.getParent fuel := funext ih
      rw [Heap.getParent, Heap.getParent, a.kind, a.parent, hfun]
  rw [Heap.getParentContainer, a.size, hfuel, Heap.getParentContainer]

end SameItems

theorem sameItems_addToParents (diff : UInt32) (fuel : ℕ) (h : Heap) (n : ℕ) :
    SameItems h (addToParents diff fuel h n) := by
  induction fuel generalizing h n with
  | zero => exact SameItems.refl
  | succ fuel ih =>
    rw [addToParents]
    cases h.getParentContainer n with
    | none => exact SameItems.refl
    | some p => exact (SameItems.addTotal p diff).trans (ih _ p)

/-- `updateItemWeight` changes nothing but totals. -/
theorem sameItems_updateItemWeight (h : Heap) (n : ℕ) (diff : UInt32) : SameItems h (updateItemWeight h n diff) :=
  (SameItems.addTotal n diff).trans (sameItems_addToParents diff _ _ n)

end Heap

/-! ## The chain of a container -/

/-- A container and those above it. -/
abbrev Heap.above (h : Heap) (c : ℕ) : List ℕ := Forest.chain h.parent (h.size + 1) c

/-- The chain of a container ends, has none twice, and has only containers. -/
structure Path (h : Heap) (c : ℕ) : Prop where
  rooted : Forest.Rooted h.parent (h.size + 1) c
  nodup : (h.above c).Nodup
  isContainer : ∀ m ∈ h.above c, h.isContainer m = true

/-- The `getParent` of a container and of those above it skips nothing. -/
def Plain (h : Heap) (c : ℕ) : Prop := ∀ m ∈ h.above c, h.kind m = .container ∨ h.parent m = none

section Chains

variable {h h' : Heap} {c : ℕ}

theorem above_congr (hsize : h'.size = h.size) (hparent : ∀ m ∈ h.above c, h'.parent m = h.parent m) :
    h'.above c = h.above c := by
  rw [Heap.above, hsize]
  exact Forest.chain_congr hparent

theorem Path.congr (hpath : Path h c) (hsize : h'.size = h.size)
    (hparent : ∀ m ∈ h.above c, h'.parent m = h.parent m)
    (hcontainer : ∀ m ∈ h.above c, h'.isContainer m = h.isContainer m) : Path h' c := by
  have habove := above_congr hsize hparent
  constructor
  · rw [hsize]
    exact Forest.rooted_congr hparent hpath.rooted
  · rw [habove]
    exact hpath.nodup
  · intro m hm
    rw [habove] at hm
    rw [hcontainer m hm]
    exact hpath.isContainer m hm

theorem Plain.congr (hplain : Plain h c) (hsize : h'.size = h.size)
    (hparent : ∀ m ∈ h.above c, h'.parent m = h.parent m)
    (hkind : ∀ m ∈ h.above c, h'.kind m = h.kind m) : Plain h' c := by
  intro m hm
  rw [above_congr hsize hparent] at hm
  rw [hkind m hm, hparent m hm]
  exact hplain m hm

theorem getParent_eq_parent {fuel m : ℕ} (hm : h.kind m = .container ∨ h.parent m = none) :
    h.getParent (fuel + 1) m = h.parent m := by
  rw [Heap.getParent]
  rcases hm with hm | hm
  · rw [hm]
  · rw [hm]
    cases h.kind m <;> rfl

/-- The loop adds the difference to all above a container. -/
theorem totalWeight_addToParents (diff : UInt32) {fuel : ℕ} {h : Heap} {n : ℕ}
    (hrooted : Forest.Rooted h.parent (fuel + 1) n)
    (hnodup : (Forest.chain h.parent (fuel + 1) n).Nodup)
    (hcontainer : ∀ m ∈ Forest.chain h.parent (fuel + 1) n, h.isContainer m = true)
    (hplain : ∀ m ∈ Forest.chain h.parent (fuel + 1) n, h.getParentContainer m = h.parent m)
    (k : ℕ) :
    (addToParents diff fuel h n).totalWeight k = h.totalWeight k +
      if k ∈ Forest.chain h.parent (fuel + 1) n ∧ k ≠ n then diff else 0 := by
  induction fuel generalizing h n with
  | zero =>
    cases hp : h.parent n with
    | none => simp [addToParents, Forest.chain_of_none hp]
    | some p => exact (hrooted p hp).elim
  | succ fuel ih =>
    have hget := hplain n List.mem_cons_self
    cases hp : h.parent n with
    | none => simp [addToParents, hget, hp, Forest.chain_of_none hp]
    | some p =>
      have hsame := Heap.SameItems.addTotal (h := h) p diff
      have hfun : (h.addTotal p diff).parent = h.parent := funext hsame.parent
      rw [Forest.chain_of_some hp] at hnodup hcontainer hplain ⊢
      have hself := Forest.mem_chain_self (hrooted p hp)
      rw [addToParents, hget, hp]
      dsimp only
      rw [ih (by rw [hfun]; exact hrooted p hp) (by rw [hfun]; exact (List.nodup_cons.1 hnodup).2)
        (by
          intro m hm
          rw [hfun] at hm
          rw [hsame.isContainer]
          exact hcontainer m (List.mem_cons_of_mem n hm))
        (by
          intro m hm
          rw [hfun] at hm
          rw [hsame.parent, ← hplain m (List.mem_cons_of_mem n hm)]
          exact hsame.getParentContainer m),
        hfun, Heap.totalWeight_addTotal (hcontainer p (List.mem_cons_of_mem n hself)), add_assoc]
      congr 1
      have hpn : p ≠ n := by
        rintro rfl
        exact (List.nodup_cons.1 hnodup).1 hself
      by_cases hkp : k = p
      · subst hkp
        simp [hself, hpn]
      · by_cases hkn : k = n
        · subst hkn
          simp [hkp, (List.nodup_cons.1 hnodup).1]
        · simp [hkp, hkn]

/-- A difference of 0 changes no total. -/
theorem totalWeight_addToParents_zero (fuel : ℕ) (h : Heap) (n k : ℕ) :
    (addToParents 0 fuel h n).totalWeight k = h.totalWeight k := by
  induction fuel generalizing h n with
  | zero => rfl
  | succ fuel ih =>
    rw [addToParents]
    cases h.getParentContainer n with
    | none => rfl
    | some p => exact (ih _ p).trans (Heap.totalWeight_addTotal_zero p k)

/-- **`updateItemWeight` adds the difference** to the total of a container and of all above. -/
theorem totalWeight_updateItemWeight {diff : UInt32} (hpath : Path h c)
    (hplain : Plain h c ∨ diff = 0) (k : ℕ) :
    (updateItemWeight h c diff).totalWeight k =
      h.totalWeight k + if k ∈ h.above c then diff else 0 := by
  have hself := Forest.mem_chain_self hpath.rooted
  rcases hplain with hplain | rfl
  · have hsame := Heap.SameItems.addTotal (h := h) c diff
    have hfun : (h.addTotal c diff).parent = h.parent := funext hsame.parent
    rw [updateItemWeight, totalWeight_addToParents diff (by rw [hfun]; exact hpath.rooted)
      (by rw [hfun]; exact hpath.nodup)
      (by
        intro m hm
        rw [hfun] at hm
        rw [hsame.isContainer]
        exact hpath.isContainer m hm)
      (by
        intro m hm
        rw [hfun] at hm
        rw [hsame.getParentContainer, hsame.parent]
        exact getParent_eq_parent (hplain m hm)),
      hfun, Heap.totalWeight_addTotal (hpath.isContainer c hself), add_assoc]
    congr 1
    by_cases hkc : k = c
    · subst hkc
      simp [hself]
    · simp [hkc]
  · rw [updateItemWeight, totalWeight_addToParents_zero, Heap.totalWeight_addTotal_zero]
    simp

end Chains

/-! ## Forests of containers -/

/-- The containers are a forest: what lies in a container has it as its parent, nothing lies in
itself, and what has not been created is no container. -/
structure WellFormed (h : Heap) : Prop where
  links : Forest.Links h.parent h.itemlist
  ranked : ∃ r, Forest.Ranked h.parent r
  live : ∀ x p, h.parent x = some p → x < h.size ∧ p < h.size
  fresh : ∀ n, h.size ≤ n → h.isContainer n = false

/-- `h'` is `h` with the item `x`, which lay in no container, in the container `c`. -/
structure Attached (h h' : Heap) (c x : ℕ) : Prop where
  size : h'.size = h.size
  parent : ∀ y, h'.parent y = if y = x then some c else h.parent y
  perm : (h'.itemlist c).Perm (x :: h.itemlist c)
  itemlist : ∀ n, n ≠ c → h'.itemlist n = h.itemlist n
  kind : ∀ n, h'.kind n = h.kind n
  isContainer : ∀ n, h'.isContainer n = h.isContainer n
  totalWeight : ∀ n, h'.totalWeight n = h.totalWeight n
  itemWeight : ∀ types n, h'.itemWeight types n = h.itemWeight types n

/-- `h'` is `h` without the item `x` in the container `c`. -/
structure Detached (h h' : Heap) (c x : ℕ) : Prop where
  size : h'.size = h.size
  parent : ∀ y, h'.parent y = if y = x then none else h.parent y
  erase : h'.itemlist c = (h.itemlist c).erase x
  itemlist : ∀ n, n ≠ c → h'.itemlist n = h.itemlist n
  kind : ∀ n, h'.kind n = h.kind n
  isContainer : ∀ n, h'.isContainer n = h.isContainer n
  totalWeight : ∀ n, h'.totalWeight n = h.totalWeight n
  itemWeight : ∀ types n, h'.itemWeight types n = h.itemWeight types n

section Forests

variable {h h' : Heap} {c x : ℕ}

theorem WellFormed.rooted (hwf : WellFormed h) (hc : c < h.size) : Forest.Rooted h.parent (h.size + 1) c := by
  obtain ⟨r, hr⟩ := hwf.ranked
  refine hr.rooted (S := Finset.range h.size) (by simp) (fun x p hp => ?_) (by simpa using hc)
  exact Finset.mem_range.2 (hwf.live x p hp).2

theorem WellFormed.lt_size (hwf : WellFormed h) (hc : h.isContainer c = true) : c < h.size := by
  by_contra hle
  exact Bool.false_ne_true ((hwf.fresh c (not_lt.1 hle)).symm.trans hc)

theorem WellFormed.path (hwf : WellFormed h) (hc : h.isContainer c = true) : Path h c := by
  obtain ⟨r, hr⟩ := hwf.ranked
  refine ⟨hwf.rooted (hwf.lt_size hc), hr.nodup_chain _ c, fun m hm => ?_⟩
  rcases Forest.eq_or_parent_of_mem_chain hm with rfl | ⟨x, hx⟩
  · exact hc
  · exact h.isContainer_of_mem ((hwf.links.mem_iff x m).2 hx)

/-- What lies in a container is not above it. -/
theorem WellFormed.notMem_above (hwf : WellFormed h) (hx : h.parent x = some c) : x ∉ h.above c := by
  obtain ⟨r, hr⟩ := hwf.ranked
  exact hr.notMem_chain hx

/-- Totals do not matter. -/
theorem WellFormed.congr (hwf : WellFormed h) (hsize : h'.size = h.size)
    (hparent : ∀ n, h'.parent n = h.parent n) (hlist : ∀ n, h'.itemlist n = h.itemlist n)
    (hcontainer : ∀ n, h'.isContainer n = h.isContainer n) : WellFormed h' := by
  obtain ⟨hlinks, hranked, hlive, hfresh⟩ := hwf
  rw [← funext hparent] at hlinks hranked
  rw [← funext hlist] at hlinks
  refine ⟨hlinks, hranked, fun x p hp => ?_, fun n hn => ?_⟩
  · rw [hparent] at hp
    rw [hsize]
    exact hlive x p hp
  · rw [hsize] at hn
    rw [hcontainer]
    exact hfresh n hn

/-- **The containers stay a forest** when an item that lies in none and is not above a container is
put into it. -/
theorem Attached.wellFormed (a : Attached h h' c x) (hwf : WellFormed h)
    (hc : h.isContainer c = true) (hx : x < h.size) (hroot : h.parent x = none)
    (hnot : x ∉ h.above c) : WellFormed h' := by
  obtain ⟨r, hr⟩ := hwf.ranked
  have hpath := hwf.path hc
  refine ⟨hwf.links.attach hroot a.parent a.perm a.itemlist,
    ⟨_, hr.raise hpath.rooted hnot a.parent⟩, fun y p hy => ?_, fun n hn => ?_⟩
  · rw [a.parent] at hy
    rw [a.size]
    split_ifs at hy with hyx
    · obtain rfl := Option.some.inj hy
      exact ⟨hyx ▸ hx, hwf.lt_size hc⟩
    · exact hwf.live y p hy
  · rw [a.size] at hn
    rw [a.isContainer]
    exact hwf.fresh n hn

/-- **The containers stay a forest** when an item is taken out of one. -/
theorem Detached.wellFormed (d : Detached h h' c x) (hwf : WellFormed h)
    (hx : h.parent x = some c) : WellFormed h' := by
  have hsub : ∀ y p, h'.parent y = some p → h.parent y = some p := by
    intro y p hy
    rw [d.parent] at hy
    split_ifs at hy with hyx
    exact hy
  obtain ⟨r, hr⟩ := hwf.ranked
  refine ⟨hwf.links.detach hx d.parent d.erase d.itemlist, ⟨r, hr.detach hsub⟩,
    fun y p hy => ?_, fun n hn => ?_⟩
  · rw [d.size]
    exact hwf.live y p (hsub y p hy)
  · rw [d.size] at hn
    rw [d.isContainer]
    exact hwf.fresh n hn

theorem Attached.above (a : Attached h h' c x) (hnot : x ∉ h.above c) : h'.above c = h.above c := by
  refine above_congr a.size fun m hm => ?_
  rw [a.parent, if_neg]
  rintro rfl
  exact hnot hm

theorem Detached.above (d : Detached h h' c x) (hnot : x ∉ h.above c) : h'.above c = h.above c := by
  refine above_congr d.size fun m hm => ?_
  rw [d.parent, if_neg]
  rintro rfl
  exact hnot hm

end Forests

/-! ## Weights of items -/

section Weighing

variable (types : ItemTypes) {h h' : Heap} {c x : ℕ} {δ : UInt32}

/-- The total of a container is the weight of its items. -/
def WeighsItems (h : Heap) (n : ℕ) : Prop :=
  h.totalWeight n = ((h.itemlist n).map (h.getWeight types)).sum

variable {types}

theorem getWeight_congr {h h' : Heap} {x : ℕ} (hitem : h'.itemWeight types x = h.itemWeight types x)
    (htotal : h'.totalWeight x = h.totalWeight x) : h'.getWeight types x = h.getWeight types x := by
  rw [Heap.getWeight, Heap.getWeight, hitem, htotal]

/-- **The totals are right** after the difference in the weight of a container's items has been
added to its total and to all above. -/
theorem weighsItems_push (hwf : WellFormed h) (hc : c < h.size)
    (hlist : ∀ n, h'.itemlist n = h.itemlist n)
    (hitem : ∀ n, h'.itemWeight types n = h.itemWeight types n)
    (htotal : ∀ n, h'.totalWeight n = h.totalWeight n + if n ∈ h.above c then δ else 0)
    (hdiff : ((h.itemlist c).map (h.getWeight types)).sum = h.totalWeight c + δ)
    {n : ℕ} (hn : n ≠ c → WeighsItems types h n) : WeighsItems types h' n := by
  obtain ⟨r, hr⟩ := hwf.ranked
  have hbalanced := Forest.balanced_push hwf.links hr (hwf.rooted hc)
    htotal hdiff hn
  rw [WeighsItems, hlist]
  refine hbalanced.trans (congrArg List.sum (List.map_congr_left fun x _ => ?_))
  rw [Heap.getWeight, hitem]

/-- The totals are right after `updateItemWeight`. -/
theorem weighsItems_updateItemWeight (hwf : WellFormed h) (hc : h.isContainer c = true) (hplain : Plain h c ∨ δ = 0)
    (hdiff : ((h.itemlist c).map (h.getWeight types)).sum = h.totalWeight c + δ)
    {n : ℕ} (hn : n ≠ c → WeighsItems types h n) : WeighsItems types (updateItemWeight h c δ) n := by
  have hsame := Heap.sameItems_updateItemWeight h c δ
  exact weighsItems_push hwf (hwf.lt_size hc) hsame.itemlist (hsame.itemWeight types)
    (totalWeight_updateItemWeight (hwf.path hc) hplain) hdiff hn

theorem Heap.SameItems.wellFormed (a : Heap.SameItems h h') (hwf : WellFormed h) : WellFormed h' :=
  hwf.congr a.size a.parent a.itemlist a.isContainer

/-- The weight of what lies in a container after an item has been put into it. -/
theorem Attached.sum_getWeight (a : Attached h h' c x) (hc : WeighsItems types h c) :
    ((h'.itemlist c).map (h'.getWeight types)).sum = h'.totalWeight c + h'.getWeight types x := by
  have hget : h'.getWeight types = h.getWeight types :=
    funext fun y => getWeight_congr (a.itemWeight types y) (a.totalWeight y)
  rw [hget, (a.perm.map _).sum_eq, List.map_cons, List.sum_cons, ← hc, a.totalWeight, add_comm]

/-- The weight of what lies in a container after an item has been taken out of it. -/
theorem Detached.sum_getWeight (d : Detached h h' c x) (hx : x ∈ h.itemlist c) (hc : WeighsItems types h c) :
    ((h'.itemlist c).map (h'.getWeight types)).sum = h'.totalWeight c + -h'.getWeight types x := by
  have hget : h'.getWeight types = h.getWeight types :=
    funext fun y => getWeight_congr (d.itemWeight types y) (d.totalWeight y)
  rw [hget, d.erase, d.totalWeight, hc, ← ((List.perm_cons_erase hx).map _).sum_eq.symm,
    List.map_cons, List.sum_cons]
  abel

theorem Attached.weighsItems (a : Attached h h' c x) {n : ℕ} (hn : n ≠ c)
    (hweighs : WeighsItems types h n) : WeighsItems types h' n := by
  have hget : h'.getWeight types = h.getWeight types :=
    funext fun y => getWeight_congr (a.itemWeight types y) (a.totalWeight y)
  rw [WeighsItems, a.itemlist n hn, a.totalWeight, hget]
  exact hweighs

theorem Detached.weighsItems (d : Detached h h' c x) {n : ℕ} (hn : n ≠ c)
    (hweighs : WeighsItems types h n) : WeighsItems types h' n := by
  have hget : h'.getWeight types = h.getWeight types :=
    funext fun y => getWeight_congr (d.itemWeight types y) (d.totalWeight y)
  rw [WeighsItems, d.itemlist n hn, d.totalWeight, hget]
  exact hweighs

end Weighing

end TiabloServer.Weights
