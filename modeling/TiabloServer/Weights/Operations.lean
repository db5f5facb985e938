import TiabloServer.Weights.Updates

/-!
# Operations on one container

That putting an item into a container, changing it and taking it out keep the totals right, as long
as the difference in weight reaches all containers above.

## Main definitions

* `Weights.Consistent` — the containers are a forest and every total is right.

## Main results

* `Weights.Attached.consistent`, `Weights.Consistent.reweigh`, `Weights.Consistent.takeOut`,
  `Weights.Consistent.exchange` — the four ways in which the items of a container change.
-/

namespace TiabloServer.Weights

open Items (ItemTypes createdId)

/-- The containers are a forest and the total of each is the weight of its items. -/
structure Consistent (types : ItemTypes) (h : Heap) : Prop where
  wellFormed : WellFormed h
  weighs : ∀ n, WeighsItems types h n

section Operations

variable {types : ItemTypes} {h h₁ h' : Heap} {c x y : ℕ}

/-! ## Putting in -/

theorem attached_addItem (hc : h.isContainer c = true) (x : ℕ) : Attached h (addItem h c x) c x where
  size := rfl
  parent n := by rw [addItem, Heap.parent_setParent, Heap.parent_setItemlist]
  perm := by
    rw [addItem, Heap.itemlist_setParent, Heap.itemlist_setItemlist hc, if_pos rfl]
    exact List.perm_append_singleton x _
  itemlist n hn := by
    rw [addItem, Heap.itemlist_setParent, Heap.itemlist_setItemlist hc, if_neg hn]
  kind n := by rw [addItem, Heap.kind_setParent, Heap.kind_setItemlist]
  isContainer n := by rw [addItem, Heap.isContainer_setParent, Heap.isContainer_setItemlist]
  totalWeight n := by rw [addItem, Heap.totalWeight_setParent, Heap.totalWeight_setItemlist]
  itemWeight types n := by rw [addItem, Heap.itemWeight_setParent, Heap.itemWeight_setItemlist]

theorem attached_front (hc : h.isContainer c = true) (x : ℕ) :
    Attached h ((h.setParent x (some c)).setItemlist c (x :: h.itemlist c)) c x where
  size := rfl
  parent n := by rw [Heap.parent_setItemlist, Heap.parent_setParent]
  perm := by rw [Heap.itemlist_setItemlist (by rwa [Heap.isContainer_setParent]), if_pos rfl]
  itemlist n hn := by
    rw [Heap.itemlist_setItemlist (by rwa [Heap.isContainer_setParent]), if_neg hn,
      Heap.itemlist_setParent]
  kind n := by rw [Heap.kind_setItemlist, Heap.kind_setParent]
  isContainer n := by rw [Heap.isContainer_setItemlist, Heap.isContainer_setParent]
  totalWeight n := by rw [Heap.totalWeight_setItemlist, Heap.totalWeight_setParent]
  itemWeight types n := by rw [Heap.itemWeight_setItemlist, Heap.itemWeight_setParent]

theorem Attached.plain (a : Attached h h' c x) (hnot : x ∉ h.above c) (hplain : Plain h c) : Plain h' c := by
  refine hplain.congr a.size (fun m hm => ?_) fun m _ => a.kind m
  rw [a.parent, if_neg]
  rintro rfl
  exact hnot hm

/-- What was right stays right when an item is put into a container. -/
theorem Attached.weighsItems_update (a : Attached h h₁ c x) (hwf : WellFormed h₁)
    (hc : h.isContainer c = true) (hnot : x ∉ h.above c)
    (hplain : Plain h c ∨ h.getWeight types x = 0) (hself : WeighsItems types h c) {n : ℕ}
    (hn : WeighsItems types h n) : WeighsItems types (updateItemWeight h₁ c (h₁.getWeight types x)) n := by
  have hx : h₁.getWeight types x = h.getWeight types x :=
    getWeight_congr (a.itemWeight types x) (a.totalWeight x)
  refine weighsItems_updateItemWeight hwf ((a.isContainer c).trans hc) ?_ (a.sum_getWeight hself)
    fun hnc => a.weighsItems hnc hn
  rw [hx]
  exact hplain.imp_left (a.plain hnot)

/-- **Putting an item in keeps the totals right.** -/
theorem Attached.consistent (a : Attached h h₁ c x) (hcons : Consistent types h)
    (hc : h.isContainer c = true) (hx : x < h.size) (hroot : h.parent x = none)
    (hnot : x ∉ h.above c) (hplain : Plain h c ∨ h.getWeight types x = 0) :
    Consistent types (updateItemWeight h₁ c (h₁.getWeight types x)) := by
  have hwf := a.wellFormed hcons.wellFormed hc hx hroot hnot
  refine ⟨(Heap.sameItems_updateItemWeight _ _ _).wellFormed hwf, fun n => ?_⟩
  exact a.weighsItems_update hwf hc hnot hplain (hcons.weighs c) (hcons.weighs n)

/-! ## Changing -/

section Reweigh

variable {i : Item}

theorem parent_setItem (hparent : i.parent = h.parent x) (n : ℕ) : (h.setItem x i).parent n = h.parent n := by
  simp only [Heap.parent, Heap.items_setItem]
  split_ifs with hn
  · rw [hn, hparent]
    rfl
  · rfl

theorem container_setItem (hcontainer : i.container = (h.items x).container) (n : ℕ) :
    ((h.setItem x i).items n).container = (h.items n).container := by
  rw [Heap.items_setItem]
  split_ifs with hn
  · rw [hn, hcontainer]
  · rfl

/-- **Changing an item keeps the totals right.** -/
theorem Consistent.reweigh (hcons : Consistent types h) (hparent : i.parent = h.parent x)
    (hcontainer : i.container = (h.items x).container) (hx : x ∈ h.itemlist c)
    (hplain : Plain h c ∨ i.getWeight types = h.itemWeight types x) :
    Consistent types (updateItemWeight (h.setItem x i) c
      (-h.getWeight types x + (h.setItem x i).getWeight types x)) := by
  have hsameContainer := container_setItem (h := h) hcontainer
  have hparents := parent_setItem hparent
  have hlist : ∀ n, (h.setItem x i).itemlist n = h.itemlist n := by
    intro n
    rw [Heap.itemlist, hsameContainer, Heap.itemlist]
  have hkind : ∀ n, (h.setItem x i).kind n = h.kind n := by
    intro n
    rw [Heap.kind, hsameContainer, Heap.kind]
  have hisContainer : ∀ n, (h.setItem x i).isContainer n = h.isContainer n := by
    intro n
    rw [Heap.isContainer, hsameContainer, Heap.isContainer]
  have htotal : ∀ n, (h.setItem x i).totalWeight n = h.totalWeight n := by
    intro n
    rw [Heap.totalWeight, hsameContainer, Heap.totalWeight]
  have hitem : (h.setItem x i).itemWeight types x = i.getWeight types := by
    rw [Heap.itemWeight, Heap.items_setItem, if_pos rfl]
  have hother : ∀ n, n ≠ x → (h.setItem x i).getWeight types n = h.getWeight types n := by
    intro n hn
    refine getWeight_congr ?_ (htotal n)
    rw [Heap.itemWeight, Heap.items_setItem, if_neg hn, Heap.itemWeight]
  have hget : ∀ n, (h.setItem x i).getWeight types n = h.getWeight types n +
      if n = x then -h.getWeight types x + (h.setItem x i).getWeight types x else 0 := by
    intro n
    split_ifs with hn
    · rw [hn]
      abel
    · rw [hother n hn, add_zero]
  have hwf : WellFormed (h.setItem x i) := hcons.wellFormed.congr rfl hparents hlist hisContainer
  have hcx := (hcons.wellFormed.links.mem_iff x c).1 hx
  refine ⟨(Heap.sameItems_updateItemWeight _ _ _).wellFormed hwf, fun n => ?_⟩
  refine weighsItems_updateItemWeight hwf
    ((hisContainer c).trans (h.isContainer_of_mem hx)) ?_ ?_ fun hnc => ?_
  · refine hplain.imp (fun hplain => ?_) fun hsame => ?_
    · exact hplain.congr rfl (fun m _ => hparents m) fun m _ => hkind m
    · rw [getWeight_congr (hitem.trans hsame) (htotal x), neg_add_cancel]
  · rw [hlist, htotal, hcons.weighs c, List.map_congr_left fun n _ => hget n, List.sum_map_add,
      Forest.sum_ite_eq (hcons.wellFormed.links.nodup c), if_pos hx]
  · rw [WeighsItems, hlist, htotal, hcons.weighs n]
    refine congrArg List.sum (List.map_congr_left fun m hm => (hother m ?_).symm)
    rintro rfl
    exact hnc (Option.some.inj (((hcons.wellFormed.links.mem_iff m n).1 hm).symm.trans hcx))

end Reweigh

/-! ## Taking out -/

theorem detached_removeItem (hx : x ∈ h.itemlist c) : Detached h (removeItem h c x) c x := by
  have hc := h.isContainer_of_mem hx
  rw [removeItem, if_pos hx]
  constructor
  · rfl
  · intro n
    rw [Heap.parent_setParent, Heap.parent_setItemlist]
  · rw [Heap.itemlist_setParent, Heap.itemlist_setItemlist hc, if_pos rfl]
  · intro n hn
    rw [Heap.itemlist_setParent, Heap.itemlist_setItemlist hc, if_neg hn]
  · intro n
    rw [Heap.kind_setParent, Heap.kind_setItemlist]
  · intro n
    rw [Heap.isContainer_setParent, Heap.isContainer_setItemlist]
  · intro n
    rw [Heap.totalWeight_setParent, Heap.totalWeight_setItemlist]
  · intro types n
    rw [Heap.itemWeight_setParent, Heap.itemWeight_setItemlist]

/-- The end of `removeThing`, once the weight has been taken away. -/
def detach (h : Heap) (c x : ℕ) : Heap :=
  (h.setParent x none).setItemlist c (((h.setParent x none).itemlist c).erase x)

theorem detached_detach (hc : h.isContainer c = true) : Detached h (detach h c x) c x := by
  have hc' : (h.setParent x none).isContainer c = true := by rwa [Heap.isContainer_setParent]
  constructor
  · rfl
  · intro n
    rw [detach, Heap.parent_setItemlist, Heap.parent_setParent]
  · rw [detach, Heap.itemlist_setItemlist hc', if_pos rfl, Heap.itemlist_setParent]
  · intro n hn
    rw [detach, Heap.itemlist_setItemlist hc', if_neg hn, Heap.itemlist_setParent]
  · intro n
    rw [detach, Heap.kind_setItemlist, Heap.kind_setParent]
  · intro n
    rw [detach, Heap.isContainer_setItemlist, Heap.isContainer_setParent]
  · intro n
    rw [detach, Heap.totalWeight_setItemlist, Heap.totalWeight_setParent]
  · intro types n
    rw [detach, Heap.itemWeight_setItemlist, Heap.itemWeight_setParent]

/-- Taking an item out of two heaps that differ in totals only leaves two such heaps. -/
theorem Detached.sameItems {u h₂ : Heap} (d : Detached h h₂ c x) (d' : Detached u h' c x)
    (hsame : Heap.SameItems h u) : Heap.SameItems h₂ h' where
  size := by rw [d'.size, d.size, hsame.size]
  parent n := by rw [d'.parent, d.parent, hsame.parent]
  kind n := by rw [d'.kind, d.kind, hsame.kind]
  itemlist n := by
    by_cases hn : n = c
    · rw [hn, d'.erase, d.erase, hsame.itemlist]
    · rw [d'.itemlist n hn, d.itemlist n hn, hsame.itemlist]
  isContainer n := by rw [d'.isContainer, d.isContainer, hsame.isContainer]
  itemWeight types n := by rw [d'.itemWeight, d.itemWeight, hsame.itemWeight]

/-- **Taking an item out keeps the totals right.** -/
theorem Consistent.takeOut (hcons : Consistent types h) (hx : x ∈ h.itemlist c)
    (hplain : Plain h c ∨ h.getWeight types x = 0) :
    Consistent types (detach (updateItemWeight h c (-h.getWeight types x)) c x) := by
  have hwf := hcons.wellFormed
  have hc := h.isContainer_of_mem hx
  have hparent := (hwf.links.mem_iff x c).1 hx
  have hsame := Heap.sameItems_updateItemWeight h c (-h.getWeight types x)
  have hd := detached_detach (x := x) hc
  have hd' := detached_detach (h := updateItemWeight h c (-h.getWeight types x)) (x := x)
    ((hsame.isContainer c).trans hc)
  have hskeleton := hd.sameItems hd' hsame
  have hwf₂ := hd.wellFormed hwf hparent
  refine ⟨hskeleton.wellFormed hwf₂, fun n => ?_⟩
  refine weighsItems_push (δ := -h.getWeight types x) hwf₂ ?_ hskeleton.itemlist
    (hskeleton.itemWeight types) (fun n => ?_) ?_ fun hnc => hd.weighsItems hnc (hcons.weighs n)
  · exact hd.size ▸ hwf.lt_size hc
  · rw [hd'.totalWeight, hd.totalWeight, hd.above (hwf.notMem_above hparent)]
    exact totalWeight_updateItemWeight (hwf.path hc) (hplain.imp_right neg_eq_zero.2) n
  · rw [hd.sum_getWeight hx (hcons.weighs c), getWeight_congr (hd.itemWeight types x)
      (hd.totalWeight x)]

/-- Taking out an item that weighs nothing keeps the totals right as they are. -/
theorem Consistent.takeOut_weightless (hcons : Consistent types h) (hx : x ∈ h.itemlist c)
    (hzero : h.getWeight types x = 0) : Consistent types (removeItem h c x) := by
  have hd := detached_removeItem hx
  have hparent := (hcons.wellFormed.links.mem_iff x c).1 hx
  refine ⟨hd.wellFormed hcons.wellFormed hparent, fun n => ?_⟩
  by_cases hnc : n = c
  · subst hnc
    rw [WeighsItems, hd.sum_getWeight hx (hcons.weighs n),
      getWeight_congr (hd.itemWeight types x) (hd.totalWeight x), hzero, neg_zero, add_zero]
  · exact hd.weighsItems hnc (hcons.weighs n)

/-! ## Replacing -/

/-- A replaced item makes room for the new one. -/
theorem set_perm_cons_erase {l : List ℕ} (hl : l.Nodup) {i : ℕ} (hi : l[i]? = some y) (x : ℕ) :
    (l.set i x).Perm (x :: l.erase y) := by
  obtain ⟨hlt, hget⟩ := List.getElem?_eq_some_iff.1 hi
  have herase : l.erase y = l.eraseIdx i := by
    rw [← hget, List.Nodup.erase_getElem hl]
  rw [herase]
  exact List.set_perm_cons_eraseIdx hlt x

/-- The heap with `x` in the place `i` of a container, before its weight is counted. -/
def put (h : Heap) (c i x : ℕ) : Heap :=
  (h.setItemlist c ((h.itemlist c).set i x)).setParent x (some c)

section Put

variable {i : ℕ}

theorem parent_put (n : ℕ) : (put h c i x).parent n = if n = x then some c else h.parent n := by
  rw [put, Heap.parent_setParent, Heap.parent_setItemlist]

theorem kind_put (n : ℕ) : (put h c i x).kind n = h.kind n := by
  rw [put, Heap.kind_setParent, Heap.kind_setItemlist]

theorem isContainer_put (n : ℕ) : (put h c i x).isContainer n = h.isContainer n := by
  rw [put, Heap.isContainer_setParent, Heap.isContainer_setItemlist]

theorem totalWeight_put (n : ℕ) : (put h c i x).totalWeight n = h.totalWeight n := by
  rw [put, Heap.totalWeight_setParent, Heap.totalWeight_setItemlist]

theorem itemWeight_put (n : ℕ) : (put h c i x).itemWeight types n = h.itemWeight types n := by
  rw [put, Heap.itemWeight_setParent, Heap.itemWeight_setItemlist]

theorem getWeight_put (n : ℕ) : (put h c i x).getWeight types n = h.getWeight types n :=
  getWeight_congr (itemWeight_put n) (totalWeight_put n)

/-- Once the replaced item has no parent, `x` has been put into the container without it. -/
theorem attached_put (hwf : WellFormed h) (hy : (h.itemlist c)[i]? = some y) (hroot : h.parent x = none) :
    Attached (detach h c y) ((put h c i x).setParent y none) c x := by
  have hmem : y ∈ h.itemlist c := List.mem_of_getElem? hy
  have hc := h.isContainer_of_mem hmem
  have hd := detached_detach (x := y) hc
  have hxy : x ≠ y := by
    rintro rfl
    exact nomatch hroot.symm.trans ((hwf.links.mem_iff x c).1 hmem)
  constructor
  · rfl
  · intro n
    rw [Heap.parent_setParent, parent_put, hd.parent]
    by_cases hnx : n = x
    · rw [if_pos hnx, if_pos hnx, if_neg (hnx ▸ hxy)]
    · rw [if_neg hnx, if_neg hnx]
  · rw [Heap.itemlist_setParent, put, Heap.itemlist_setParent, Heap.itemlist_setItemlist hc,
      if_pos rfl, hd.erase]
    exact set_perm_cons_erase (hwf.links.nodup c) hy x
  · intro n hn
    rw [Heap.itemlist_setParent, put, Heap.itemlist_setParent, Heap.itemlist_setItemlist hc,
      if_neg hn, hd.itemlist n hn]
  · intro n
    rw [Heap.kind_setParent, kind_put, hd.kind]
  · intro n
    rw [Heap.isContainer_setParent, isContainer_put, hd.isContainer]
  · intro n
    rw [Heap.totalWeight_setParent, totalWeight_put, hd.totalWeight]
  · intro types n
    rw [Heap.itemWeight_setParent, itemWeight_put, hd.itemWeight]

/-- Putting an item in place of another does not change what is above. -/
theorem parent_put_of_mem_above (hnot : x ∉ h.above c) {m : ℕ} (hm : m ∈ h.above c) :
    (put h c i x).parent m = h.parent m := by
  rw [parent_put, if_neg]
  rintro rfl
  exact hnot hm

theorem totalWeight_update_put (hwf : WellFormed h) (hc : h.isContainer c = true)
    (hnot : x ∉ h.above c) (hplain : Plain h c ∨ h.getWeight types x = h.getWeight types y) (n : ℕ) :
    (updateItemWeight (put h c i x) c
      (-(put h c i x).getWeight types y + (put h c i x).getWeight types x)).totalWeight n =
      h.totalWeight n +
        if n ∈ h.above c then -h.getWeight types y + h.getWeight types x else 0 := by
  have hchain : ∀ m ∈ h.above c, (put h c i x).parent m = h.parent m :=
    fun m => parent_put_of_mem_above hnot
  have hpath : Path (put h c i x) c := (hwf.path hc).congr rfl hchain fun m _ => isContainer_put m
  have hplain' : Plain (put h c i x) c ∨
      -(put h c i x).getWeight types y + (put h c i x).getWeight types x = 0 := by
    refine hplain.imp (fun hplain => hplain.congr rfl hchain fun m _ => kind_put m) fun hsame => ?_
    rw [getWeight_put, getWeight_put, hsame, neg_add_cancel]
  have habove : (put h c i x).above c = h.above c := above_congr rfl hchain
  rw [totalWeight_updateItemWeight hpath hplain', habove, totalWeight_put, getWeight_put,
    getWeight_put]

/-- **Replacing an item keeps the totals right.** -/
theorem Consistent.exchange (hcons : Consistent types h) (hy : (h.itemlist c)[i]? = some y)
    (hx : x < h.size) (hroot : h.parent x = none) (hnot : x ∉ h.above c)
    (hplain : Plain h c ∨ h.getWeight types x = h.getWeight types y) :
    Consistent types ((updateItemWeight (put h c i x) c
      (-(put h c i x).getWeight types y + (put h c i x).getWeight types x)).setParent y none) := by
  have hwf := hcons.wellFormed
  have hmem : y ∈ h.itemlist c := List.mem_of_getElem? hy
  have hc := h.isContainer_of_mem hmem
  have hparent := (hwf.links.mem_iff y c).1 hmem
  have hd := detached_detach (x := y) hc
  have ha := attached_put hwf hy hroot
  have habove : (detach h c y).above c = h.above c := hd.above (hwf.notMem_above hparent)
  have hxy : x ≠ y := by
    rintro rfl
    exact nomatch hroot.symm.trans hparent
  have hwf₂ := ha.wellFormed (hd.wellFormed hwf hparent) ((hd.isContainer c).trans hc)
    (hd.size ▸ hx) (by rw [hd.parent, if_neg hxy, hroot]) (habove ▸ hnot)
  have hskeleton := (Heap.sameItems_updateItemWeight (put h c i x) c
    (-(put h c i x).getWeight types y + (put h c i x).getWeight types x)).setParent y none
  have hget : (detach h c y).getWeight types = h.getWeight types :=
    funext fun n => getWeight_congr (hd.itemWeight types n) (hd.totalWeight n)
  have hget₂ : ((put h c i x).setParent y none).getWeight types = h.getWeight types := by
    funext n
    rw [← hget]
    exact getWeight_congr (ha.itemWeight types n) (ha.totalWeight n)
  refine ⟨hskeleton.wellFormed hwf₂, fun n => ?_⟩
  refine weighsItems_push (δ := -h.getWeight types y + h.getWeight types x) hwf₂ ?_
    hskeleton.itemlist (hskeleton.itemWeight types) (fun n => ?_) ?_
    fun hnc => ha.weighsItems hnc (hd.weighsItems hnc (hcons.weighs n))
  · exact hwf.lt_size hc
  · rw [Heap.totalWeight_setParent, ha.above (habove ▸ hnot), habove, ha.totalWeight,
      hd.totalWeight]
    exact totalWeight_update_put hwf hc hnot hplain n
  · have hsum := hd.sum_getWeight hmem (hcons.weighs c)
    rw [hget] at hsum
    rw [hget₂, (ha.perm.map _).sum_eq, List.map_cons, List.sum_cons, hsum, ha.totalWeight]
    abel

end Put

end Operations

end TiabloServer.Weights
