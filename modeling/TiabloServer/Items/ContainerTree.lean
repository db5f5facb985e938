import TiabloServer.Lib.BreadthFirst
import TiabloServer.Lib.Loop

/-!
# Trees of containers

Containers with what lies in them, at any depth, and the traversal of a `ContainerIterator`
(`items/containers/container.cpp`): a queue of containers, and a cursor in the one at its front. A
container is put into the queue when the cursor stands on it, unless it is empty.

## Main definitions

* `Containers.ContainerIterator` — the iterator and its operations.
* `Containers.traverse` — the loop of the functions that use it.

## Main results

* `Containers.traverse_eq` — the loop is one over all items in breadth-first order.
* `Containers.iterator_visits_once` — it visits each item once, and the functions that use it agree
  with their recursive definitions.
-/

namespace TiabloServer.Containers

/-! ## Items and containers -/

/-- What an item has of its own: the object, its id, its count and its sub type. -/
structure Body where
  object : ℕ
  id : ℕ
  count : UInt8
  subType : ℕ
  deriving DecidableEq

/-- An item. A container has a capacity, `maxSize`, and holds a list of items. -/
inductive Item where
  | item (body : Body)
  | container (body : Body) (maxSize : UInt32) (itemlist : List Item)

namespace Item

/-- The item itself. -/
def body : Item → Body
  | .item body => body
  | .container body _ _ => body

/-- `getContainer` answers with a container. -/
def isContainer : Item → Bool
  | .item _ => false
  | .container _ _ _ => true

/-- `itemlist`; none for an item that is no container. -/
def itemlist : Item → List Item
  | .item _ => []
  | .container _ _ itemlist => itemlist

mutual

/-- The number of items of a tree. -/
def size : Item → ℕ
  | .item _ => 1
  | .container _ _ itemlist => 1 + sizes itemlist

/-- The number of items of a list of trees. -/
def sizes : List Item → ℕ
  | [] => 0
  | x :: l => size x + sizes l

end

theorem sizes_eq (l : List Item) : sizes l = (l.map size).sum := by
  induction l with
  | nil => simp [sizes]
  | cons x l ih => simp [sizes, ih]

end Item

/-- Items and what lies in them. -/
def tree : BreadthFirst.Branching Item where
  children := Item.itemlist
  size := Item.size
  size_eq x := by
    cases x with
    | item body => simp [Item.size, Item.itemlist]
    | container body maxSize itemlist => simp [Item.size, Item.itemlist, Item.sizes_eq]

/-! ## The iterator -/

/-- `ContainerIterator`: containers, and the place of the cursor in the first of them. -/
structure ContainerIterator where
  overQueue : List Item
  cur : ℕ

/-- `Container::iterator`. -/
def iterator (c : Item) : ContainerIterator :=
  if c.itemlist = [] then ⟨[], 0⟩ else ⟨[c], 0⟩

namespace ContainerIterator

variable (it : ContainerIterator)

def hasNext : Bool := !it.overQueue.isEmpty

/-- `operator*`; none where the cursor is past the end. -/
def deref : Option Item := it.overQueue.head?.bind fun front => front.itemlist[it.cur]?

/-- `advance`; none where the cursor is past the end. -/
def advance : Option ContainerIterator :=
  match it.overQueue, it.deref with
  | front :: rest, some i =>
    let rest := if i.isContainer && !i.itemlist.isEmpty then rest ++ [i] else rest
    let cur := it.cur + 1
    if cur = front.itemlist.length then some ⟨rest, if rest = [] then cur else 0⟩
    else some ⟨front :: rest, cur⟩
  | _, _ => none

/-- The cursor stands on an item, and no container in the queue is empty. -/
structure Valid : Prop where
  nonempty : ∀ c ∈ it.overQueue, c.itemlist ≠ []
  cur_lt : ∀ front ∈ it.overQueue.head?, it.cur < front.itemlist.length

/-- The items of the queue that the cursor has not passed. -/
def pending : List Item :=
  match it.overQueue with
  | [] => []
  | front :: rest => front.itemlist.drop it.cur ++ rest.flatMap Item.itemlist

variable {it}

theorem valid_iterator (c : Item) : (iterator c).Valid := by
  unfold iterator
  split_ifs with h
  · exact ⟨by simp, by simp⟩
  · exact ⟨by simpa using h, by simpa using List.length_pos_iff.2 h⟩

theorem pending_iterator (c : Item) : (iterator c).pending = c.itemlist := by
  unfold iterator
  split_ifs with h
  · exact h.symm
  · simp [pending]

theorem flatMap_enqueue (rest : List Item) (x : Item) :
    (if x.isContainer && !x.itemlist.isEmpty then rest ++ [x] else rest).flatMap Item.itemlist =
      rest.flatMap Item.itemlist ++ x.itemlist := by
  split_ifs with h
  · simp
  · have hempty : x.itemlist = [] := by
      cases x with
      | item body => rfl
      | container body maxSize itemlist => simpa [Item.isContainer, Item.itemlist] using h
    rw [hempty, List.append_nil]

/-- **A step of the iterator** works off the first of the items that are pending. -/
theorem Valid.advance (h : it.Valid) (hnext : it.hasNext = true) :
    ∃ x l it', it.deref = some x ∧ it.pending = x :: l ∧ it.advance = some it' ∧ it'.Valid ∧
      it'.pending = l ++ x.itemlist := by
  obtain ⟨queue, cur⟩ := it
  cases queue with
  | nil => simp [hasNext] at hnext
  | cons front rest =>
    have hcur : cur < front.itemlist.length := h.cur_lt front rfl
    have hderef : deref ⟨front :: rest, cur⟩ = some front.itemlist[cur] := by
      simp [deref, List.getElem?_eq_getElem hcur]
    set x := front.itemlist[cur] with hx
    set rest' := if x.isContainer && !x.itemlist.isEmpty then rest ++ [x] else rest with hrest'
    have hall : ∀ c ∈ rest', c.itemlist ≠ [] := by
      intro c hc
      rw [hrest'] at hc
      split_ifs at hc with hsome
      · rcases List.mem_append.1 hc with hc | hc
        · exact h.nonempty c (List.mem_cons_of_mem _ hc)
        · obtain rfl := List.mem_singleton.1 hc
          simp only [Bool.and_eq_true, Bool.not_eq_true', List.isEmpty_eq_false_iff] at hsome
          exact hsome.2
      · exact h.nonempty c (List.mem_cons_of_mem _ hc)
    have hadvance : ContainerIterator.advance ⟨front :: rest, cur⟩ =
        if cur + 1 = front.itemlist.length then some ⟨rest', if rest' = [] then cur + 1 else 0⟩
        else some ⟨front :: rest', cur + 1⟩ := by
      simp only [ContainerIterator.advance, hderef]
      rfl
    have hqueue : rest'.flatMap Item.itemlist = rest.flatMap Item.itemlist ++ x.itemlist :=
      flatMap_enqueue rest x
    have hpending : pending ⟨front :: rest, cur⟩ =
        x :: (front.itemlist.drop (cur + 1) ++ rest.flatMap Item.itemlist) := by
      show front.itemlist.drop cur ++ rest.flatMap Item.itemlist = _
      rw [List.drop_eq_getElem_cons hcur, List.cons_append]
    by_cases hend : cur + 1 = front.itemlist.length
    · refine ⟨x, _, _, hderef, hpending, by rw [hadvance, if_pos hend], ?_, ?_⟩
      · refine ⟨hall, fun c hc => ?_⟩
        have hsome : rest' ≠ [] := by
          rintro hnil
          rw [hnil] at hc
          cases hc
        rw [if_neg hsome]
        exact List.length_pos_iff.2 (hall c (List.mem_of_mem_head? hc))
      · rw [hend, List.drop_length, List.nil_append, ← hqueue, pending]
        cases rest' with
        | nil => rfl
        | cons c rest'' => simp
    · refine ⟨x, _, _, hderef, hpending, by rw [hadvance, if_neg hend], ?_, ?_⟩
      · refine ⟨fun c hc => ?_, fun c hc => ?_⟩
        · rcases List.mem_cons.1 hc with rfl | hc
          · exact h.nonempty c List.mem_cons_self
          · exact hall c hc
        · obtain rfl := Option.some.inj hc
          show cur + 1 < front.itemlist.length
          omega
      · rw [pending, List.append_assoc, ← hqueue]

end ContainerIterator

/-! ## Loops over a container -/

section Loops

variable {σ ρ : Type*} (body : σ → Item → Loop.Round σ ρ) (finish : σ → ρ)

/-- A round of the loop `for (it = c.iterator(); it.hasNext(); it.advance())`. There is no result
when it looks past the end of a container. -/
def traverseRound (s : ContainerIterator × σ) : Loop.Round (ContainerIterator × σ) (Option ρ) :=
  if s.1.hasNext then
    match s.1.deref with
    | none => .done none
    | some x =>
      match body s.2 x with
      | .done r => .done (some r)
      | .next s' =>
        match s.1.advance with
        | none => .done none
        | some it => .next (it, s')
  else .done (some (finish s.2))

/-- The loop over what a container holds, with fuel. -/
def traverse (fuel : ℕ) (c : Item) (s : σ) : Option (Option ρ) :=
  Loop.run (traverseRound body finish) fuel (iterator c, s)

/-- The same loop over a list. -/
def eachOf : List Item → σ → ρ
  | [], s => finish s
  | x :: l, s =>
    match body s x with
    | .done r => r
    | .next s' => eachOf l s'

/-- **The loop over a container** ends, looks past the end of no container, and is one over all
items in breadth-first order. -/
theorem traverse_eq (c : Item) (s : σ) {fuel : ℕ} (hfuel : tree.total c.itemlist < fuel) :
    traverse body finish fuel c s = some (some (eachOf body finish (tree.order c.itemlist) s)) := by
  suffices h : ∀ (l : List Item) (it : ContainerIterator) (s : σ) (fuel : ℕ), it.Valid → it.pending = l →
      tree.total l < fuel → Loop.run (traverseRound body finish) fuel (it, s) =
        some (some (eachOf body finish (tree.order l) s)) from
    h _ _ s fuel (ContainerIterator.valid_iterator c) (ContainerIterator.pending_iterator c) hfuel
  intro l
  induction l using tree.queue_induction with
  | nil =>
    intro it s fuel hvalid hpending hfuel
    obtain ⟨fuel, rfl⟩ : ∃ n, fuel = n + 1 := ⟨fuel - 1, by omega⟩
    have hlast : it.hasNext = false := by
      by_contra hnext
      obtain ⟨x, l, -, -, hpending', -⟩ := hvalid.advance (Bool.not_eq_false _ ▸ hnext)
      rw [hpending] at hpending'
      cases hpending'
    refine Loop.run_of_done ?_ fuel
    simp [traverseRound, hlast, eachOf]
  | cons x l ih =>
    intro it s fuel hvalid hpending hfuel
    obtain ⟨fuel, rfl⟩ : ∃ n, fuel = n + 1 := ⟨fuel - 1, by omega⟩
    have hnext : it.hasNext = true := by
      by_contra hlast
      have hempty : it.overQueue = [] := by simpa [ContainerIterator.hasNext] using hlast
      rw [ContainerIterator.pending, hempty] at hpending
      cases hpending
    obtain ⟨x', l', it', hderef, hpending', hadvance, hvalid', hrest⟩ := hvalid.advance hnext
    obtain ⟨rfl, rfl⟩ : x = x' ∧ l = l' := by simpa using hpending.symm.trans hpending'
    rw [tree.total_cons] at hfuel
    rw [tree.order_cons, eachOf]
    cases hbody : body s x with
    | done r =>
      refine Loop.run_of_done ?_ fuel
      simp [traverseRound, hnext, hderef, hbody]
    | next s' =>
      have hround : traverseRound body finish (it, s) = .next (it', s') := by
        simp [traverseRound, hnext, hderef, hbody, hadvance]
      rw [Loop.run_of_next hround]
      exact ih it' s' fuel hvalid' hrest (by omega)

end Loops

/-! ## The functions that use the iterator -/

/-- The body of a loop that counts items in a 32-bit counter. -/
def counting (p : Item → Bool) (counter : UInt32) (x : Item) : Loop.Round UInt32 UInt32 :=
  .next (if p x then counter + 1 else counter)

/-- `Container::getItemHoldingCount`. -/
def getItemHoldingCount (fuel : ℕ) (c : Item) : Option (Option UInt32) :=
  traverse (counting fun _ => true) id fuel c 0

/-- `Container::getContainerHoldingCount`. -/
def getContainerHoldingCount (fuel : ℕ) (c : Item) : Option (Option UInt32) :=
  traverse (counting Item.isContainer) id fuel c 0

/-- `Container::isHoldingItem`, of an object. -/
def isHoldingItem (object fuel : ℕ) (c : Item) : Option (Option Bool) :=
  traverse (fun _ x => if x.body.object = object then .done true else .next ()) (fun _ => false) fuel c ()

/-- `Container::getItems`, with those of the containers in it. -/
def getItems (fuel : ℕ) (c : Item) : Option (Option (List Item)) :=
  traverse (fun containerItems x => .next (containerItems ++ [x])) id fuel c []

/-! ## Recursive definitions -/

mutual

/-- The items below an item: each with those below it. -/
def itemsBelow : Item → List Item
  | .item _ => []
  | .container _ _ itemlist => itemsIn itemlist

/-- Items, each with those below it. -/
def itemsIn : List Item → List Item
  | [] => []
  | x :: l => x :: (itemsBelow x ++ itemsIn l)

end

mutual

/-- The number of items with a property below an item. -/
def countBelow (p : Item → Bool) : Item → ℕ
  | .item _ => 0
  | .container _ _ itemlist => countIn p itemlist

/-- The number of items with a property in a list and below its items. -/
def countIn (p : Item → Bool) : List Item → ℕ
  | [] => 0
  | x :: l => (if p x then 1 else 0) + countBelow p x + countIn p l

end

mutual

/-- An object is below an item. -/
def holds (object : ℕ) : Item → Bool
  | .item _ => false
  | .container _ _ itemlist => holdsIn object itemlist

/-- An object is in a list or below its items. -/
def holdsIn (object : ℕ) : List Item → Bool
  | [] => false
  | x :: l => x.body.object == object || holds object x || holdsIn object l

end

theorem itemsBelow_eq (x : Item) : itemsBelow x = itemsIn x.itemlist := by
  cases x with
  | item body => rw [itemsBelow, Item.itemlist, itemsIn]
  | container body maxSize itemlist => rw [itemsBelow, Item.itemlist]

theorem countBelow_eq (p : Item → Bool) (x : Item) : countBelow p x = countIn p x.itemlist := by
  cases x with
  | item body => rw [countBelow, Item.itemlist, countIn]
  | container body maxSize itemlist => rw [countBelow, Item.itemlist]

theorem holds_eq (object : ℕ) (x : Item) : holds object x = holdsIn object x.itemlist := by
  cases x with
  | item body => rw [holds, Item.itemlist, holdsIn]
  | container body maxSize itemlist => rw [holds, Item.itemlist]

theorem coe_itemsIn (l : List Item) :
    (itemsIn l : Multiset Item) = (l.map fun x => {x} + (itemsBelow x : Multiset Item)).sum := by
  induction l with
  | nil => simp [itemsIn]
  | cons x l ih =>
    rw [itemsIn, List.map_cons, List.sum_cons, ← ih, ← Multiset.cons_coe, ← Multiset.coe_add, add_assoc,
      Multiset.singleton_add]

theorem countIn_eq (p : Item → Bool) (l : List Item) :
    countIn p l = (l.map fun x => (if p x then 1 else 0) + countBelow p x).sum := by
  induction l with
  | nil => simp [countIn]
  | cons x l ih => rw [countIn, List.map_cons, List.sum_cons, ih]

theorem holdsIn_iff (object : ℕ) (l : List Item) :
    holdsIn object l = true ↔ ∃ x ∈ l, x.body.object = object ∨ holds object x = true := by
  induction l with
  | nil => simp [holdsIn]
  | cons x l ih => simp [holdsIn, ih]

/-- Breadth-first order is a permutation of the items, depth first. -/
theorem order_perm (l : List Item) : (tree.order l).Perm (itemsIn l) := by
  have hsum := tree.sum_order (fun x => ({x} : Multiset Item)) (fun x => {x} + (itemsBelow x : Multiset Item))
    (fun x => by rw [itemsBelow_eq, coe_itemsIn]; rfl) l
  rw [← coe_itemsIn] at hsum
  refine Multiset.coe_eq_coe.1 (Eq.trans ?_ hsum)
  induction tree.order l with
  | nil => rfl
  | cons x l ih => rw [← Multiset.cons_coe, ih, List.map_cons, List.sum_cons, Multiset.singleton_add]

theorem countP_order (p : Item → Bool) (l : List Item) : (tree.order l).countP p = countIn p l := by
  rw [countIn_eq, ← tree.sum_order (fun x => if p x then 1 else 0) (fun x => (if p x then 1 else 0) + countBelow p x)
    (fun x => by rw [countBelow_eq, countIn_eq]; rfl)]
  induction tree.order l with
  | nil => rfl
  | cons x l ih => rw [List.countP_cons, ih, List.map_cons, List.sum_cons, Nat.add_comm]

theorem exists_order_iff (object : ℕ) (l : List Item) :
    (∃ x ∈ tree.order l, x.body.object = object) ↔ holdsIn object l = true := by
  rw [holdsIn_iff, tree.exists_mem_order (fun x => x.body.object = object)
    (fun x => x.body.object = object ∨ holds object x = true)
    (fun x => by rw [holds_eq, holdsIn_iff]; rfl)]

/-! ### The loops over a list -/

theorem eachOf_counting (p : Item → Bool) (l : List Item) (n : UInt32) :
    eachOf (counting p) id l n = n + UInt32.ofNat (l.countP p) := by
  induction l generalizing n with
  | nil => simp [eachOf]
  | cons x l ih =>
    rw [eachOf]
    simp only [counting]
    rw [ih, List.countP_cons, UInt32.ofNat_add]
    split_ifs
    · rw [add_assoc, add_comm 1]
      rfl
    · simp

theorem eachOf_isHoldingItem (object : ℕ) (l : List Item) :
    eachOf (fun (_ : Unit) x => if x.body.object = object then Loop.Round.done true else .next ())
      (fun _ => false) l () = true ↔ ∃ x ∈ l, x.body.object = object := by
  induction l with
  | nil => simp [eachOf]
  | cons x l ih =>
    rw [eachOf]
    by_cases hx : x.body.object = object
    · simp [hx]
    · simp [hx, ih]

theorem eachOf_getItems (l m : List Item) :
    eachOf (fun containerItems x => Loop.Round.next (containerItems ++ [x])) id l m = m ++ l := by
  induction l generalizing m with
  | nil => simp [eachOf]
  | cons x l ih =>
    rw [eachOf]
    simp [ih]

/-! ## Everything once -/

/-- A traversal of a container visits the items of a list: those of each depth after those above,
each item at any depth once. The functions that use it agree with their recursive definitions. -/
structure VisitsOnce (c : Item) (l : List Item) : Prop where
  levels : l = (List.range c.size).flatMap (tree.level c.itemlist)
  once : l.Perm (itemsBelow c)
  loop : ∀ {σ ρ : Type} (body : σ → Item → Loop.Round σ ρ) (finish : σ → ρ) (s : σ) (fuel : ℕ),
    c.size ≤ fuel → traverse body finish fuel c s = some (some (eachOf body finish l s))
  getItemHoldingCount_eq : ∀ fuel, c.size ≤ fuel →
    getItemHoldingCount fuel c = some (some (UInt32.ofNat (countBelow (fun _ => true) c)))
  getContainerHoldingCount_eq : ∀ fuel, c.size ≤ fuel →
    getContainerHoldingCount fuel c = some (some (UInt32.ofNat (countBelow Item.isContainer c)))
  isHoldingItem_eq : ∀ object fuel, c.size ≤ fuel →
    isHoldingItem object fuel c = some (some (holds object c))
  getItems_eq : ∀ fuel, c.size ≤ fuel → getItems fuel c = some (some l)

theorem total_itemlist_lt (c : Item) : tree.total c.itemlist < c.size := by
  have hsize := tree.size_eq c
  show ((tree.children c).map tree.size).sum < tree.size c
  omega

/-- **The iterator visits everything once**, level by level, and ends.

**Proof sketch.** What the cursor has not passed of the containers in the queue is a queue of items:
a step takes its first item away and puts what that item holds to its end. -/
theorem iterator_visits_once (c : Item) : ∃ l, VisitsOnce c l := by
  have hlt := total_itemlist_lt c
  have hloop : ∀ {σ ρ : Type} (body : σ → Item → Loop.Round σ ρ) (finish : σ → ρ) (s : σ) (fuel : ℕ),
      c.size ≤ fuel → traverse body finish fuel c s =
        some (some (eachOf body finish (tree.order c.itemlist) s)) :=
    fun body finish s fuel hfuel => traverse_eq body finish c s (hlt.trans_le hfuel)
  refine ⟨tree.order c.itemlist, ?_⟩
  constructor
  case levels => exact tree.order_eq_levels c.itemlist hlt.le
  case once => exact itemsBelow_eq c ▸ order_perm c.itemlist
  case loop => exact hloop
  case getItemHoldingCount_eq =>
    intro fuel hfuel
    rw [getItemHoldingCount, hloop _ _ _ fuel hfuel, eachOf_counting, countP_order, ← countBelow_eq, zero_add]
  case getContainerHoldingCount_eq =>
    intro fuel hfuel
    rw [getContainerHoldingCount, hloop _ _ _ fuel hfuel, eachOf_counting, countP_order, ← countBelow_eq,
      zero_add]
  case isHoldingItem_eq =>
    intro object fuel hfuel
    rw [isHoldingItem, hloop _ _ _ fuel hfuel]
    refine congrArg (some ∘ some) (Bool.eq_iff_iff.2 ?_)
    rw [eachOf_isHoldingItem, exists_order_iff, holds_eq]
  case getItems_eq =>
    intro fuel hfuel
    rw [getItems, hloop _ _ _ fuel hfuel, eachOf_getItems, List.nil_append]

end TiabloServer.Containers
