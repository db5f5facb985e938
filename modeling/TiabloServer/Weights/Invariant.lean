import TiabloServer.Items.Samples
import TiabloServer.Lib.Runs
import TiabloServer.Weights.Creation

/-!
# The weight invariant

The total of a container is the weight of its items, in every state that operations reach as long as
each of them pushes its difference in weight to all containers above. Three do not: `removeItem`
never changes a total, the copied total of a clone forgets that `Item::CreateItem` transforms some
ids, and no difference gets from an inbox or a depot chest to the locker it lies in.

## Main definitions

* `Weights.Op.Allowed` — what callers see to: a container is not put into itself.
* `Weights.Op.Pushes` — the difference in weight reaches every total that it concerns.

## Main results

* `Weights.consistent_step` — an operation that pushes its difference keeps the totals right.
* `Weights.run_totalWeight` — the totals are right in every state of a run of such operations.
-/

namespace TiabloServer.Weights

open Items (ItemTypes createdId bagType)

/-- What callers see to: the item that is put into a container exists, lies in none and is not above
that container, and what is cloned exists. -/
def Op.Allowed (h : Heap) : Op → Prop
  | .addThing n _ x | .addItemBack n x | .replaceThing n _ x | .internalAddThing n x =>
    x < h.size ∧ h.parent x = none ∧ x ∉ h.above n
  | .clone n => n < h.size
  | _ => True

/-- The weight of an item changes by nothing, or `getParent` skips no container above. For an item
taken out by `removeItem`: it weighs nothing. For a clone: each item in it weighs what the one that
`Item::clone` makes of it weighs. -/
def Op.Pushes (types : ItemTypes) (h : Heap) : Op → Prop
  | .addThing n _ x | .addItemBack n x | .internalAddThing n x =>
    Plain h n ∨ h.getWeight types x = 0
  | .updateThing n x itemId count =>
    x ∈ h.itemlist n → Plain h n ∨
      ({ h.items x with id := itemId }.setSubType types count).getWeight types =
        h.itemWeight types x
  | .replaceThing n index x =>
    ∀ y, (h.itemlist n)[index]? = some y →
      Plain h n ∨ h.getWeight types x = h.getWeight types y
  | .removeThing n x count =>
    x ∈ h.itemlist n → Plain h n ∨
      if (types (h.items x).id).stackable ∧ count ≠ UInt32.ofNat (h.items x).count.toNat then
        ({ h.items x with count := remainingCount (h.items x).count count }).getWeight types =
          h.itemWeight types x
      else h.getWeight types x = 0
  | .removeItem n x => x ∈ h.itemlist n → h.getWeight types x = 0
  | .clone n => ∀ k, k < h.size → n ∈ h.above k →
      ((h.items k).clone types).getWeight types = h.itemWeight types k
  | .createItem .. | .unserializeItemNode _ => True

section Steps

variable {types : ItemTypes} {h : Heap}

/-! ## Steps -/

theorem setSubType_parent (i : Item) (n : UInt32) : (i.setSubType types n).parent = i.parent := by
  rw [Item.setSubType]
  split_ifs <;> rfl

theorem setSubType_container (i : Item) (n : UInt32) : (i.setSubType types n).container = i.container := by
  rw [Item.setSubType]
  split_ifs <;> rfl

theorem Consistent.of_extends {h' : Heap} (hcons : Consistent types h) (hwf : WellFormed h')
    (e : Extends h h') (hnew : ∀ k, h.size ≤ k → WeighsItems types h' k) : Consistent types h' := by
  refine ⟨hwf, fun k => ?_⟩
  by_cases hk : k < h.size
  · exact e.weighsItems hcons.wellFormed hk (hcons.weighs k)
  · exact hnew k (not_lt.1 hk)

theorem consistent_pushFront (hcons : Consistent types h) {n x : ℕ}
    (hn : h.isContainer n = true) (hallowed : x < h.size ∧ h.parent x = none ∧ x ∉ h.above n)
    (hpushes : Plain h n ∨ h.getWeight types x = 0) : Consistent types (pushFront types h n x) :=
  (attached_front hn x).consistent hcons hn hallowed.1 hallowed.2.1 hallowed.2.2 hpushes

/-- What is below a container that exists can be cloned when the clones weigh the same. -/
theorem clonable_below (hcons : Consistent types h) {n : ℕ} {r : ℕ → ℕ} (hr : Forest.Ranked h.parent r)
    (hweight : ∀ k, k < h.size → n ∈ h.above k → ((h.items k).clone types).getWeight types = h.itemWeight types k) :
    Clonable types h r fun k => k < h.size ∧ n ∈ h.above k where
  live k hk := hk.1
  closed k hk x hx := by
    have hparent := (hcons.wellFormed.links.mem_iff x k).1 hx
    have hlt := (hcons.wellFormed.live x k hparent).1
    exact ⟨⟨hlt, Forest.mem_chain_of_parent hparent (hcons.wellFormed.rooted hlt) hk.2⟩,
      hr x k hparent⟩
  weighs k _ := hcons.weighs k
  weight k hk := hweight k hk.1 hk.2

theorem consistent_clone (hcons : Consistent types h) {n : ℕ} (hn : n < h.size)
    (hweight : ∀ k, k < h.size → n ∈ h.above k → ((h.items k).clone types).getWeight types = h.itemWeight types k) :
    Consistent types (clone types (h.size + 1) h n).1 := by
  have hwf := hcons.wellFormed
  obtain ⟨r, hr⟩ := hwf.ranked
  -- the ranks bound the depth of the recursion
  have hrooted : ∀ k ∈ Finset.range h.size, Forest.Rooted h.parent (h.size + 1) k := fun k hk =>
    hwf.rooted (Finset.mem_range.1 hk)
  obtain ⟨r', hr', hle⟩ := hr.exists_le hrooted fun x p hp =>
    Finset.mem_range.2 (hwf.live x p hp).1
  have hfuel : r' n < h.size + 1 := by
    have hn' := hle n
    rw [Finset.card_range] at hn'
    omega
  have hcloned := cloned_clone hwf (clonable_below hcons hr' hweight)
    ⟨hn, Forest.mem_chain_self (hwf.rooted hn)⟩ hfuel
  exact hcons.of_extends hcloned.wellFormed hcloned.ext hcloned.weighs

/-- **An operation keeps the totals right** if it pushes its difference in weight to all containers
above. -/
theorem consistent_step (hcons : Consistent types h) {op : Op} (hallowed : op.Allowed h)
    (hpushes : op.Pushes types h) : Consistent types (step types h op) := by
  cases op with
  | createItem id count weight container =>
    have hnew : Created types h (h.create (newItem id count weight container)) h.size :=
      created_newItem hcons.wellFormed id count weight container
    exact hcons.of_extends hnew.wellFormed hnew.ext hnew.weighs
  | addThing n index x =>
    rw [step, addThing]
    split
    · exact hcons
    · rename_i k hk
      split_ifs
      · exact hcons
      · exact consistent_pushFront hcons (Option.isSome_iff_exists.2 ⟨k, hk⟩) hallowed hpushes
  | addItemBack n x =>
    rw [step, addItemBack]
    split_ifs with hn
    · exact (attached_addItem hn x).consistent hcons hn hallowed.1 hallowed.2.1 hallowed.2.2
        hpushes
    · exact hcons
  | internalAddThing n x =>
    rw [step, internalAddThing]
    split_ifs with hn
    · exact consistent_pushFront hcons hn hallowed hpushes
    · exact hcons
  | updateThing n x itemId count =>
    rw [step, updateThing]
    split_ifs with hx
    · exact hcons.reweigh (setSubType_parent _ count) (setSubType_container _ count) hx (hpushes hx)
    · exact hcons
  | replaceThing n index x =>
    rw [step, replaceThing]
    split
    · exact hcons
    · rename_i y hy
      exact hcons.exchange hy hallowed.1 hallowed.2.1 hallowed.2.2 (hpushes y hy)
  | removeThing n x count =>
    rw [step, removeThing]
    by_cases hx : x ∈ h.itemlist n
    · have hdiff := hpushes hx
      rw [if_neg (not_not.2 hx)]
      split_ifs at hdiff ⊢
      · exact hcons.reweigh rfl rfl hx hdiff
      · exact hcons.takeOut hx hdiff
    · rw [if_pos hx]
      exact hcons
  | removeItem n x =>
    by_cases hx : x ∈ h.itemlist n
    · exact hcons.takeOut_weightless hx (hpushes hx)
    · rw [step, removeItem, if_neg hx]
      exact hcons
  | clone n => exact consistent_clone hcons hallowed hpushes
  | unserializeItemNode node =>
    have hloaded : Loaded types h (loadNode types node h).1 (loadNode types node h).2 :=
      loaded_loadNode node hcons.wellFormed
    exact hcons.of_extends hloaded.wellFormed hloaded.ext hloaded.weighs

end Steps

/-! ## Runs -/

/-- **The weight invariant.** From a forest of containers with the right totals, when every
operation is allowed and pushes its difference in weight to all containers above, in every state
the total of each container is the weight of its items, and the weight of an item is its own and
that of all it holds, at any depth. -/
theorem run_totalWeight (types : ItemTypes) {h : Heap} (hcons : Consistent types h) {l : List Op}
    (hl : Runs.Meets (step types) (fun h op => op.Allowed h ∧ op.Pushes types h) h l)
    {m : List Op} (hm : m <+: l) (n : ℕ) :
    let s := Runs.run (step types) h m
    s.totalWeight n = ((s.itemlist n).map (s.getWeight types)).sum ∧
      s.getWeight types n = s.itemWeight types n +
        ((Forest.below s.itemlist s.size n).map (s.itemWeight types)).sum := by
  have hs : Consistent types (Runs.run (step types) h m) :=
    Runs.invariant (step types) (P := Consistent types)
      (fun _ _ hcons hop => consistent_step hcons hop.1 hop.2) hcons
      (hl.of_prefix _ hm)
  generalize Runs.run (step types) h m = s at hs
  obtain ⟨r, hr⟩ := hs.wellFormed.ranked
  refine ⟨hs.weighs n, congrArg (s.itemWeight types n + ·) ?_⟩
  have htotal := Forest.total_eq_below hs.wellFormed.links hr hs.weighs (S := Finset.range s.size)
    (fun x p hp => (hs.wellFormed.live x p hp).imp Finset.mem_range.2 Finset.mem_range.2) n
  rwa [Finset.card_range] at htotal

/-! ## A reward that is taken out of its chest -/

/-- The heap before anything has been created. -/
def Heap.empty : Heap := ⟨fun _ => ⟨0, 0, none, none, none⟩, 0⟩

theorem consistent_empty (types : ItemTypes) : Consistent types Heap.empty := by
  have hlist : ∀ n, Heap.empty.itemlist n = [] := fun _ => rfl
  have hparent : ∀ n, Heap.empty.parent n = none := fun _ => rfl
  refine ⟨⟨⟨fun x n => ?_, fun n => ?_⟩, ⟨fun _ => 0, fun x p hp => ?_⟩, fun x p hp => ?_,
    fun _ _ => rfl⟩, fun n => weighsItems_of_empty (hlist n) rfl⟩
  · rw [hlist, hparent]
    exact iff_of_false List.not_mem_nil nofun
  · rw [hlist]
    exact List.nodup_nil
  · exact nomatch (hparent x).symm.trans hp
  · exact nomatch (hparent x).symm.trans hp

/-- A chest, a container that weighs 18.00 and lies in it, and an item of 1.00 in the container. -/
def fillChest : List Op :=
  [.createItem 1 1 (some 1800) (some (.container, 20)),
    .createItem 1 1 (some 1800) (some (.container, 20)), .createItem 1 1 (some 100) none,
    .addThing 1 0 2, .addThing 0 0 1]

/-- `run_totalWeight` for a chest with a container in it. -/
theorem run_totalWeight_fillChest :
    let s := Runs.run (step fun _ => bagType) Heap.empty fillChest
    (s.totalWeight 0 = ((s.itemlist 0).map (s.getWeight fun _ => bagType)).sum ∧
      s.getWeight (fun _ => bagType) 0 = s.itemWeight (fun _ => bagType) 0 +
        ((Forest.below s.itemlist s.size 0).map (s.itemWeight fun _ => bagType)).sum) ∧
      s.getWeight (fun _ => bagType) 0 = 3700 := by
  refine ⟨run_totalWeight (fun _ => bagType) (consistent_empty _) ?_ (List.prefix_refl _) 0,
    by decide +kernel⟩
  refine ⟨⟨trivial, trivial⟩, ⟨trivial, trivial⟩, ⟨trivial, trivial⟩, ⟨⟨?_, ?_, ?_⟩, Or.inl ?_⟩,
    ⟨⟨?_, ?_, ?_⟩, Or.inl ?_⟩, trivial⟩
  · decide +kernel
  · decide +kernel
  · decide +kernel
  · unfold Plain
    decide +kernel
  · decide +kernel
  · decide +kernel
  · decide +kernel
  · unfold Plain
    decide +kernel

/-- **`removeItem` breaks the weight invariant**: an empty reward that is taken out of the chest
still counts in the chest's weight. -/
theorem not_run_totalWeight :
    ¬ ∀ l : List Op, Runs.Meets (step fun _ => bagType) (fun h op => op.Allowed h) Heap.empty l →
      ∀ n, (Runs.run (step fun _ => bagType) Heap.empty l).totalWeight n =
        (((Runs.run (step fun _ => bagType) Heap.empty l).itemlist n).map
          ((Runs.run (step fun _ => bagType) Heap.empty l).getWeight fun _ => bagType)).sum := by
  intro h
  have hmeets : Runs.Meets (step fun _ => bagType) (fun h op => op.Allowed h) Heap.empty
      [.createItem 1 1 (some 1800) (some (.container, 20)),
        .createItem 1 1 (some 1800) (some (.container, 20)), .addThing 0 0 1, .removeItem 0 1] := by
    refine ⟨trivial, trivial, ⟨?_, ?_, ?_⟩, trivial, trivial⟩
    · decide +kernel
    · decide +kernel
    · decide +kernel
  exact absurd (h _ hmeets 0) (by decide +kernel)

end TiabloServer.Weights
