import TiabloServer.Items.ContainerTree

/-!
# Stowing

`Player::stashContainer` (`creatures/players/player.cpp`) moves items into the stash. Before it does
so, it checks the size that the stash would have, with one count for each id: that of the last stack
in the list. Containers that hold something are listed like other items (`sendStowItems`), and what
they hold goes with them.

## Main definitions

* `Stowing.Stows` — units are moved, and the size stays below the limit.
* `Stowing.Listing.Emptied` — no container is removed with something in it.

## Main results

* `Stowing.Listing.foldl_stow` — what the loop leaves of the items, and what it adds.
* `Stowing.stows_iff` — a list is stowed so just when the check refuses it, or when the containers
  are empty and all that is moved is within the limit.
* `Stowing.stows_container` — a container in which no id is stowable twice is stowed so.
-/

namespace TiabloServer.Stowing

/-! ## The functions of the source -/

/-- An id of 16 bits. -/
abbrev ItemId := Fin (2 ^ 16)

/-- What the types of items say about stacks. -/
structure Types where
  stackable : ItemId → Bool
  stackSize : ItemId → ℕ
  stackSize_pos : ∀ id, 0 < stackSize id
  stackSize_lt : ∀ id, stackSize id < 2 ^ 8

/-- An item of a player, with the containers of his that it lies in, the outer and the inner
ones. -/
structure Stack where
  object : ℕ
  id : ItemId
  count : ℕ
  removable : Bool
  holders : List ℕ

variable (t : Types)

/-- `Game::internalRemoveItem`, on the items that have a parent. An item that has been removed
before has none any more; what lies in it has. -/
def internalRemoveItem (object n : ℕ) (items : List Stack) : Option (List Stack) :=
  match items.find? (·.object = object) with
  | none => none
  | some x =>
    if x.removable = false ∨ n = 0 ∨ t.stackable x.id = true ∧ x.count < n then none
    else if t.stackable x.id = true ∧ n ≠ x.count then
      some (items.map fun y => if y.object = object then { y with count := y.count - n } else y)
    else some (items.filter fun y => y.object ≠ object)

/-- `getStashSize`, of 16 bits. Below 2 ^ 24 units, the quotient of floats is rounded up as that of
integers. -/
def getStashSize (stash : ItemId → ℕ) : ℕ :=
  (∑ id, (stash id + t.stackSize id - 1) / t.stackSize id) % 2 ^ 16

/-- The counts of the list: that of the last pair of an id. -/
def listed (itemDict : List (Stack × ℕ)) : ItemId → ℕ :=
  itemDict.foldl (fun dict p => Function.update dict p.1.id p.2) fun _ => 0

/-- The stash with the counts of the list. -/
def stashItemDict (stashItems : ItemId → ℕ) (itemDict : List (Stack × ℕ)) (id : ItemId) : ℕ :=
  if listed itemDict id = 0 then stashItems id else (listed itemDict id + stashItems id) % 2 ^ 32

/-- `Player::addItemOnStash`. -/
def addItemOnStash (stashItems : ItemId → ℕ) (id : ItemId) (amount : ℕ) : ItemId → ℕ :=
  Function.update stashItems id ((stashItems id + amount) % 2 ^ 32)

/-- The loop of `stashContainer`, for one pair. -/
def stow (s : List Stack × (ItemId → ℕ)) (p : Stack × ℕ) : List Stack × (ItemId → ℕ) :=
  match internalRemoveItem t p.1.object p.2 s.1 with
  | none => s
  | some items => (items, addItemOnStash s.2 p.1.id p.2)

/-- `Player::stashContainer`. -/
def stashContainer (limit : ℕ) (itemDict : List (Stack × ℕ)) (s : List Stack × (ItemId → ℕ)) :
    List Stack × (ItemId → ℕ) :=
  if limit < getStashSize t (stashItemDict s.2 itemDict) then s else itemDict.foldl (stow t) s

/-! ## Units -/

/-- The units of an id. -/
def total (id : ItemId) (items : List Stack) : ℕ := (items.map fun x => if x.id = id then x.count else 0).sum

/-- The units of an id that the player has: those in a container that was removed are not his. -/
def units (id : ItemId) (items : List Stack) : ℕ :=
  (items.map fun x =>
    if x.id = id ∧ ∀ o ∈ x.holders, o ∈ items.map Stack.object then x.count else 0).sum

/-- The units of an id in a list of pairs. -/
def pairUnits (id : ItemId) (l : List (Stack × ℕ)) : ℕ := (l.map fun p => if p.1.id = id then p.2 else 0).sum

/-- The pairs of a list whose items can be removed. -/
def removals : List Stack → List (Stack × ℕ) → List (Stack × ℕ)
  | _, [] => []
  | items, p :: l =>
    match internalRemoveItem t p.1.object p.2 items with
    | none => removals items l
    | some items => p :: removals items l

/-- The units of an item in a list of pairs. -/
def taken (l : List (Stack × ℕ)) (x : Stack) : ℕ :=
  (l.map fun p => if p.1.object = x.object then p.2 else 0).sum

/-- A list of pairs for the items of a player. The counts are those of the items, or parts of
stacks. -/
structure Listing where
  items : List Stack
  itemDict : List (Stack × ℕ)
  distinct : (items.map Stack.object).Nodup
  counts : ∀ p ∈ itemDict, ∀ x ∈ items, x.object = p.1.object →
    x.id = p.1.id ∧ (t.stackable x.id = false → p.2 = x.count)
  held : ∀ x ∈ items, ∀ o ∈ x.holders, o ∈ items.map Stack.object

/-- The places that a stash takes. -/
def stackCount (stash : ItemId → ℕ) : ℕ := ∑ id, (stash id + t.stackSize id - 1) / t.stackSize id

/-- A stash below the range of its size. -/
def InRange (stashItems : ItemId → ℕ) : Prop :=
  ∑ id, (stashItems id + t.stackSize id - 1) / t.stackSize id < 2 ^ 15

/-- Units are moved into the stash, and its size stays below the limit. -/
structure Stows (limit : ℕ) (itemDict : List (Stack × ℕ)) (s : List Stack × (ItemId → ℕ)) : Prop where
  moves : ∀ id, units id (stashContainer t limit itemDict s).1 + (stashContainer t limit itemDict s).2 id =
    units id s.1 + s.2 id
  respects : getStashSize t s.2 ≤ limit → getStashSize t (stashContainer t limit itemDict s).2 ≤ limit

variable {t}

/-- The units of an id that are moved: those of the pairs whose items can be removed. -/
def Listing.moved (g : Listing t) (id : ItemId) : ℕ := pairUnits id (removals t g.items g.itemDict)

/-- An item is removed, all of it. -/
def Listing.Gone (g : Listing t) (x : Stack) : Prop :=
  0 < taken (removals t g.items g.itemDict) x ∧ taken (removals t g.items g.itemDict) x = x.count

/-- A container is removed only when all units in it are. -/
def Listing.Emptied (g : Listing t) : Prop :=
  ∀ z ∈ g.items, g.Gone z → ∀ x ∈ g.items, z.object ∈ x.holders →
    taken (removals t g.items g.itemDict) x = x.count

/-! ## Stacks -/

/-- Each unit takes at most one stack more. -/
theorem stacks_add_le {k : ℕ} (hk : 0 < k) (a c : ℕ) : (a + c + k - 1) / k ≤ (a + k - 1) / k + c := by
  have hmul : c ≤ c * k := Nat.le_mul_of_pos_right c hk
  calc (a + c + k - 1) / k ≤ (a + k - 1 + c * k) / k := Nat.div_le_div_right (by omega)
    _ = (a + k - 1) / k + c := Nat.add_mul_div_right _ _ hk

/-! ## The removals of a list -/

variable {items items' : List Stack} {l : List (Stack × ℕ)} {id : ItemId}

theorem total_cons (x : Stack) (items : List Stack) :
    total id (x :: items) = (if x.id = id then x.count else 0) + total id items := by
  rw [total, List.map_cons, List.sum_cons, total]

theorem pairUnits_cons (p : Stack × ℕ) (l : List (Stack × ℕ)) :
    pairUnits id (p :: l) = (if p.1.id = id then p.2 else 0) + pairUnits id l := by
  rw [pairUnits, List.map_cons, List.sum_cons, pairUnits]

/-- Units are taken from a stack. -/
theorem total_map {x : Stack} {n : ℕ} (hitems : (items.map Stack.object).Nodup) (hx : x ∈ items)
    (hn : n ≤ x.count) :
    total id (items.map fun y => if y.object = x.object then { y with count := y.count - n } else y) +
      (if x.id = id then n else 0) = total id items := by
  induction items with
  | nil => cases hx
  | cons y items ih =>
    rw [List.map_cons, List.nodup_cons] at hitems
    rcases List.mem_cons.1 hx with rfl | hx
    · have hrest :
          (items.map fun y => if y.object = x.object then { y with count := y.count - n } else y) = items := by
        refine (List.map_congr_left fun y hy => ?_).trans (List.map_id items)
        have hne : y.object ≠ x.object := fun heq => hitems.1 (heq ▸ List.mem_map_of_mem hy)
        rw [if_neg hne]
        rfl
      rw [List.map_cons, hrest, if_pos rfl, total_cons, total_cons]
      dsimp only
      split_ifs <;> omega
    · have hne : y.object ≠ x.object := fun heq => hitems.1 (heq ▸ List.mem_map_of_mem hx)
      have hrest := ih hitems.2 hx
      rw [List.map_cons, if_neg hne, total_cons, total_cons]
      omega

/-- An item is removed. -/
theorem total_filter {x : Stack} (hitems : (items.map Stack.object).Nodup) (hx : x ∈ items) :
    total id (items.filter fun y => y.object ≠ x.object) + (if x.id = id then x.count else 0) = total id items := by
  induction items with
  | nil => cases hx
  | cons y items ih =>
    rw [List.map_cons, List.nodup_cons] at hitems
    rcases List.mem_cons.1 hx with rfl | hx
    · have hrest : (items.filter fun y => y.object ≠ x.object) = items := by
        refine List.filter_eq_self.2 fun y hy => ?_
        have hne : y.object ≠ x.object := fun heq => hitems.1 (heq ▸ List.mem_map_of_mem hy)
        simpa using hne
      rw [List.filter_cons_of_neg (by simp), hrest, total_cons, Nat.add_comm]
    · have hne : y.object ≠ x.object := fun heq => hitems.1 (heq ▸ List.mem_map_of_mem hx)
      have hrest := ih hitems.2 hx
      rw [List.filter_cons_of_pos (by simpa using hne), total_cons, total_cons]
      omega

/-- The items are different objects, and the counts of pairs are theirs or parts of stacks. -/
structure Fits (t : Types) (items : List Stack) (l : List (Stack × ℕ)) : Prop where
  distinct : (items.map Stack.object).Nodup
  counts : ∀ p ∈ l, ∀ x ∈ items, x.object = p.1.object →
    x.id = p.1.id ∧ (t.stackable x.id = false → p.2 = x.count)

theorem Fits.tail {p : Stack × ℕ} (h : Fits t items (p :: l)) : Fits t items l :=
  ⟨h.distinct, fun q hq => h.counts q (List.mem_cons_of_mem _ hq)⟩

/-- A removal takes a part of a stack, or an item. -/
theorem Fits.removed {p : Stack × ℕ} (h : Fits t items (p :: l))
    (hremove : internalRemoveItem t p.1.object p.2 items = some items') :
    ∃ x ∈ items, x.object = p.1.object ∧ x.id = p.1.id ∧ 0 < p.2 ∧
      (t.stackable x.id = true ∧ p.2 < x.count ∧
          items' = (items.map fun y => if y.object = x.object then { y with count := y.count - p.2 } else y) ∨
        p.2 = x.count ∧ items' = items.filter fun y => y.object ≠ x.object) := by
  rw [internalRemoveItem] at hremove
  cases hfind : items.find? (·.object = p.1.object) with
  | none =>
    rw [hfind] at hremove
    cases hremove
  | some x =>
    rw [hfind] at hremove
    have hx : x ∈ items := List.mem_of_find?_eq_some hfind
    have hobject : x.object = p.1.object := by simpa using List.find?_some hfind
    obtain ⟨hid, hwhole⟩ := h.counts p List.mem_cons_self x hx hobject
    dsimp only at hremove
    rw [← hobject] at hremove
    split_ifs at hremove with hrefused hpart
    · rw [not_or, not_or] at hrefused
      have hle : ¬ x.count < p.2 := fun hlt => hrefused.2.2 ⟨hpart.1, hlt⟩
      exact ⟨x, hx, hobject, hid, Nat.pos_of_ne_zero hrefused.2.1,
        Or.inl ⟨hpart.1, by omega, (Option.some.inj hremove).symm⟩⟩
    · rw [not_or, not_or] at hrefused
      refine ⟨x, hx, hobject, hid, Nat.pos_of_ne_zero hrefused.2.1,
        Or.inr ⟨?_, (Option.some.inj hremove).symm⟩⟩
      cases hstack : t.stackable x.id with
      | false => exact hwhole hstack
      | true =>
        by_contra hne
        exact hpart ⟨hstack, hne⟩

/-- A removal takes the count of the pair, and the other pairs still fit. -/
theorem Fits.remove {p : Stack × ℕ} (h : Fits t items (p :: l))
    (hremove : internalRemoveItem t p.1.object p.2 items = some items') :
    Fits t items' l ∧ ∀ id, total id items' + (if p.1.id = id then p.2 else 0) = total id items := by
  obtain ⟨x, hx, hobject, hid, -, ⟨hstack, hlt, rfl⟩ | ⟨hcount, rfl⟩⟩ := h.removed hremove
  · refine ⟨⟨?_, fun q hq y hy heq => ?_⟩, fun id => hid ▸ total_map h.distinct hx hlt.le⟩
    · have hobjects : (items.map fun y => if y.object = x.object then
          { y with count := y.count - p.2 } else y).map Stack.object = items.map Stack.object := by
        rw [List.map_map]
        refine List.map_congr_left fun y _ => ?_
        rw [Function.comp_apply]
        split_ifs <;> rfl
      rw [hobjects]
      exact h.distinct
    · obtain ⟨z, hz, rfl⟩ := List.mem_map.1 hy
      by_cases hzx : z.object = x.object
      · rw [if_pos hzx] at heq ⊢
        obtain rfl := List.inj_on_of_nodup_map h.distinct hz hx hzx
        refine ⟨(h.counts q (List.mem_cons_of_mem _ hq) z hz heq).1, fun hnot => ?_⟩
        exact absurd hstack (by rw [show t.stackable z.id = false from hnot]; exact Bool.false_ne_true)
      · rw [if_neg hzx] at heq ⊢
        exact h.counts q (List.mem_cons_of_mem _ hq) z hz heq
  · refine ⟨⟨h.distinct.sublist (List.filter_sublist.map _), fun q hq y hy heq => ?_⟩, fun id => ?_⟩
    · exact h.counts q (List.mem_cons_of_mem _ hq) y (List.mem_of_mem_filter hy) heq
    · rw [← hid, hcount]
      exact total_filter h.distinct hx

theorem removals_sublist (items : List Stack) (l : List (Stack × ℕ)) : (removals t items l).Sublist l := by
  induction l generalizing items with
  | nil => exact List.Sublist.refl _
  | cons p l ih =>
    rw [removals]
    cases internalRemoveItem t p.1.object p.2 items with
    | none => exact (ih _).cons _
    | some items' => exact (ih _).cons_cons _

theorem pairUnits_removals_le (items : List Stack) (l : List (Stack × ℕ)) (id : ItemId) :
    pairUnits id (removals t items l) ≤ pairUnits id l :=
  ((removals_sublist items l).map _).sum_le_sum fun _ _ => Nat.zero_le _

/-- The loop moves the units of the removals. -/
theorem Fits.foldl_stow (h : Fits t items l) {stash : ItemId → ℕ}
    (hstash : ∀ id, stash id + pairUnits id l < 2 ^ 32) (id : ItemId) :
    (l.foldl (stow t) (items, stash)).2 id = stash id + pairUnits id (removals t items l) ∧
      total id (l.foldl (stow t) (items, stash)).1 + pairUnits id (removals t items l) = total id items := by
  induction l generalizing items stash with
  | nil => exact ⟨rfl, rfl⟩
  | cons p l ih =>
    rw [List.foldl_cons, stow, removals]
    cases hremove : internalRemoveItem t p.1.object p.2 items with
    | none =>
      refine ih h.tail fun id => ?_
      have hid := hstash id
      rw [pairUnits_cons] at hid
      omega
    | some items' =>
      obtain ⟨hfits, hunits⟩ := h.remove hremove
      have hadd (i : ItemId) : addItemOnStash stash p.1.id p.2 i = stash i + if p.1.id = i then p.2 else 0 := by
        have hi := hstash i
        rw [pairUnits_cons] at hi
        by_cases heq : p.1.id = i
        · subst heq
          rw [if_pos rfl] at hi ⊢
          rw [addItemOnStash, Function.update_self, Nat.mod_eq_of_lt (by omega)]
        · rw [addItemOnStash, Function.update_of_ne (Ne.symm heq), if_neg heq, Nat.add_zero]
      have hsmall (i : ItemId) : addItemOnStash stash p.1.id p.2 i + pairUnits i l < 2 ^ 32 := by
        have hi := hstash i
        rw [pairUnits_cons] at hi
        rw [hadd]
        omega
      have hrest := ih hfits hsmall
      have hid := hunits id
      rw [hadd] at hrest
      dsimp only
      rw [pairUnits_cons]
      omega

/-! ## What is left of the items -/

theorem taken_cons (p : Stack × ℕ) (l : List (Stack × ℕ)) (x : Stack) :
    taken (p :: l) x = (if p.1.object = x.object then p.2 else 0) + taken l x := by
  rw [taken, List.map_cons, List.sum_cons, taken]

/-- What is left of an item when a list of pairs has been removed. -/
def after (l : List (Stack × ℕ)) (x : Stack) : Option Stack :=
  if 0 < taken l x ∧ taken l x = x.count then none else some { x with count := x.count - taken l x }

theorem after_cons_of_ne {p : Stack × ℕ} {x : Stack} (h : p.1.object ≠ x.object) (l : List (Stack × ℕ)) :
    after (p :: l) x = after l x := by
  simp only [after, taken_cons, if_neg h, Nat.zero_add]

/-- Only items that are there can be removed. -/
theorem Fits.object_of_removals (h : Fits t items l) :
    ∀ p ∈ removals t items l, p.1.object ∈ items.map Stack.object := by
  induction l generalizing items with
  | nil => exact fun p hp => absurd hp List.not_mem_nil
  | cons p l ih =>
    intro q hq
    rw [removals] at hq
    cases hremove : internalRemoveItem t p.1.object p.2 items with
    | none =>
      rw [hremove] at hq
      exact ih h.tail q hq
    | some items' =>
      rw [hremove] at hq
      obtain ⟨x, hx, hobject, -, -, hcases⟩ := h.removed hremove
      rcases List.mem_cons.1 hq with rfl | hq
      · exact hobject ▸ List.mem_map_of_mem hx
      · have hrest := ih (h.remove hremove).1 q hq
        obtain ⟨z, hz, heq⟩ := List.mem_map.1 hrest
        rcases hcases with ⟨-, -, rfl⟩ | ⟨-, rfl⟩
        · obtain ⟨y, hy, rfl⟩ := List.mem_map.1 hz
          refine List.mem_map.2 ⟨y, hy, ?_⟩
          rw [← heq]
          split_ifs <;> rfl
        · exact heq ▸ List.mem_map_of_mem (List.mem_of_mem_filter hz)

/-- Nothing is taken of an object that is not there. -/
theorem Fits.taken_eq_zero (h : Fits t items l) {x : Stack} (hx : x.object ∉ items.map Stack.object) :
    taken (removals t items l) x = 0 := by
  refine List.sum_eq_zero fun n hn => ?_
  obtain ⟨p, hp, rfl⟩ := List.mem_map.1 hn
  exact if_neg fun heq : p.1.object = x.object => hx (heq ▸ h.object_of_removals p hp)

/-- Not more is taken of an item than it has. -/
theorem Fits.taken_le (h : Fits t items l) {x : Stack} (hx : x ∈ items) :
    taken (removals t items l) x ≤ x.count := by
  induction l generalizing items x with
  | nil => exact Nat.zero_le _
  | cons p l ih =>
    rw [removals]
    cases hremove : internalRemoveItem t p.1.object p.2 items with
    | none => exact ih h.tail hx
    | some items' =>
      obtain ⟨y, hy, hobject, -, -, hcases⟩ := h.removed hremove
      have hrest := (h.remove hremove).1
      dsimp only
      rw [taken_cons]
      by_cases hxy : x.object = y.object
      · obtain rfl := List.inj_on_of_nodup_map h.distinct hx hy hxy
        rw [if_pos hobject.symm]
        rcases hcases with ⟨-, hlt, rfl⟩ | ⟨hcount, rfl⟩
        · have hle := ih hrest (List.mem_map_of_mem hx)
          rw [if_pos rfl] at hle
          have hsame : ∀ n, taken (removals t (items.map fun z => if z.object = x.object then
              { z with count := z.count - p.2 } else z) l) { x with count := n } =
              taken (removals t (items.map fun z => if z.object = x.object then
                { z with count := z.count - p.2 } else z) l) x := fun _ => rfl
          rw [hsame] at hle
          dsimp only at hle
          omega
        · rw [hrest.taken_eq_zero]
          · omega
          · intro hmem
            obtain ⟨z, hz, heq⟩ := List.mem_map.1 hmem
            simp [heq] at hz
      · rw [if_neg fun heq => hxy (heq.symm.trans hobject.symm), Nat.zero_add]
        refine ih hrest ?_
        rcases hcases with ⟨-, -, rfl⟩ | ⟨-, rfl⟩
        · exact List.mem_map.2 ⟨x, hx, if_neg hxy⟩
        · exact List.mem_filter.2 ⟨hx, by simpa using hxy⟩

/-- **The loop leaves** of each item what its pairs do not take. -/
theorem Fits.foldl_stow_fst (h : Fits t items l) (stash : ItemId → ℕ) :
    (l.foldl (stow t) (items, stash)).1 = items.filterMap (after (removals t items l)) := by
  induction l generalizing items stash with
  | nil =>
    have hall : after [] = some := by
      funext x
      rw [after, if_neg (fun hpos => absurd hpos.1 (lt_irrefl 0))]
      rfl
    rw [List.foldl_nil, removals, hall, List.filterMap_some]
  | cons p l ih =>
    rw [List.foldl_cons, stow, removals]
    cases hremove : internalRemoveItem t p.1.object p.2 items with
    | none => exact ih h.tail stash
    | some items' =>
      obtain ⟨x, hx, hobject, -, hpos, hcases⟩ := h.removed hremove
      have hrest := (h.remove hremove).1
      refine (ih hrest _).trans ?_
      dsimp only
      rcases hcases with ⟨-, hlt, rfl⟩ | ⟨hcount, rfl⟩
      · rw [List.filterMap_map]
        refine List.filterMap_congr fun y hy => ?_
        rw [Function.comp_apply]
        by_cases hyx : y.object = x.object
        · obtain rfl := List.inj_on_of_nodup_map h.distinct hy hx hyx
          rw [if_pos rfl, after, after, taken_cons, if_pos hobject.symm]
          have htaken : ∀ n, taken (removals t (items.map fun z => if z.object = y.object then
              { z with count := z.count - p.2 } else z) l) { y with count := n } =
              taken (removals t (items.map fun z => if z.object = y.object then
                { z with count := z.count - p.2 } else z) l) y := fun _ => rfl
          rw [htaken]
          dsimp only
          split_ifs with hgone hgone' hgone'
          · rfl
          · omega
          · omega
          · congr 2
            omega
        · rw [if_neg hyx, after_cons_of_ne fun heq => hyx (heq.symm.trans hobject.symm)]
      · have hnone : after (p :: removals t (items.filter fun y => y.object ≠ x.object) l) x = none := by
          rw [after, taken_cons, if_pos hobject.symm, hrest.taken_eq_zero, if_pos]
          · omega
          · intro hmem
            obtain ⟨y, hy, heq⟩ := List.mem_map.1 hmem
            simp [heq] at hy
        rw [List.filterMap_filter]
        refine List.filterMap_congr fun y hy => ?_
        by_cases hyx : y.object = x.object
        · obtain rfl := List.inj_on_of_nodup_map h.distinct hy hx hyx
          rw [hnone]
          simp
        · rw [if_pos (by simpa using hyx), after_cons_of_ne fun heq => hyx (heq.symm.trans hobject.symm)]

/-- Terms that are at most others have the same sum just when they are the same. -/
theorem sum_eq_iff {α : Type} {f g : α → ℕ} (xs : List α) (hle : ∀ x ∈ xs, f x ≤ g x) :
    (xs.map f).sum = (xs.map g).sum ↔ ∀ x ∈ xs, f x = g x := by
  induction xs with
  | nil => simp
  | cons x xs ih =>
    have hrest := ih fun y hy => hle y (List.mem_cons_of_mem _ hy)
    have hx := hle x List.mem_cons_self
    have hsum : (xs.map f).sum ≤ (xs.map g).sum :=
      List.sum_le_sum fun y hy => hle y (List.mem_cons_of_mem _ hy)
    rw [List.map_cons, List.sum_cons, List.map_cons, List.sum_cons, List.forall_mem_cons, ← hrest]
    omega

/-- Where no item lies in a container that is not there, all units are the player's; and only
there. -/
theorem units_eq_total_iff (items : List Stack) : (∀ id, units id items = total id items) ↔
    ∀ x ∈ items, 0 < x.count → ∀ o ∈ x.holders, o ∈ items.map Stack.object := by
  have hiff (id : ItemId) := sum_eq_iff items
    (f := fun x => if x.id = id ∧ ∀ o ∈ x.holders, o ∈ items.map Stack.object then x.count else 0)
    (g := fun x => if x.id = id then x.count else 0) fun x _ => by
      split_ifs with hboth hid hid
      · exact le_rfl
      · exact absurd hboth.1 hid
      · exact Nat.zero_le _
      · exact Nat.zero_le _
  constructor
  · intro h x hx hpos
    have hterm := (hiff x.id).1 (h x.id) x hx
    by_contra hnot
    rw [if_neg (fun hboth => hnot hboth.2), if_pos rfl] at hterm
    omega
  · intro h id
    refine (hiff id).2 fun x hx => ?_
    rcases Nat.eq_zero_or_pos x.count with hzero | hpos
    · simp [hzero]
    · by_cases hid : x.id = id
      · rw [if_pos ⟨hid, h x hx hpos⟩, if_pos hid]
      · rw [if_neg fun hboth => hid hboth.1, if_neg hid]

/-! ## The sizes of stashes -/

theorem listed_le (l : List (Stack × ℕ)) (id : ItemId) : listed l id ≤ pairUnits id l := by
  have hfold (l : List (Stack × ℕ)) (dict : ItemId → ℕ) :
      l.foldl (fun dict p => Function.update dict p.1.id p.2) dict id ≤ dict id + pairUnits id l := by
    induction l generalizing dict with
    | nil => exact Nat.le_refl _
    | cons p l ih =>
      rw [List.foldl_cons, pairUnits_cons]
      refine (ih _).trans ?_
      by_cases hid : p.1.id = id
      · subst hid
        rw [Function.update_self, if_pos rfl]
        omega
      · rw [Function.update_of_ne (Ne.symm hid), if_neg hid]
        omega
  exact (hfold l _).trans (by omega)

theorem sum_pairUnits (l : List (Stack × ℕ)) : ∑ id, pairUnits id l = (l.map Prod.snd).sum := by
  induction l with
  | nil => exact Finset.sum_const_zero
  | cons p l ih =>
    simp only [pairUnits_cons, Finset.sum_add_distrib, Finset.sum_ite_eq, Finset.mem_univ, if_true, ih,
      List.map_cons, List.sum_cons]

theorem stackCount_mono {stash stash' : ItemId → ℕ} (h : ∀ id, stash id ≤ stash' id) :
    stackCount t stash ≤ stackCount t stash' := by
  refine Finset.sum_le_sum fun id _ => Nat.div_le_div_right ?_
  have hid := h id
  omega

/-- A size in the range is what `getStashSize` answers. -/
theorem getStashSize_eq {stash : ItemId → ℕ} (h : stackCount t stash < 2 ^ 16) : getStashSize t stash = stackCount t stash :=
  Nat.mod_eq_of_lt h

/-- The units of an id in a stash of a size in the range. -/
theorem lt_of_stackCount {stash : ItemId → ℕ} (h : stackCount t stash < 2 ^ 16) (id : ItemId) : stash id < 2 ^ 24 := by
  have hk := t.stackSize_pos id
  have hsize := t.stackSize_lt id
  have hone : (stash id + t.stackSize id - 1) / t.stackSize id < 2 ^ 16 :=
    (Finset.single_le_sum (f := fun id => (stash id + t.stackSize id - 1) / t.stackSize id)
      (fun _ _ => Nat.zero_le _) (Finset.mem_univ id)).trans_lt h
  have hle : stash id ≤ (stash id + t.stackSize id - 1) / t.stackSize id * t.stackSize id := by
    have hlt := Nat.lt_div_mul_add (a := stash id + t.stackSize id - 1) hk
    omega
  calc stash id ≤ (stash id + t.stackSize id - 1) / t.stackSize id * t.stackSize id := hle
    _ ≤ (2 ^ 16 - 1) * (2 ^ 8 - 1) := Nat.mul_le_mul (by omega) (by omega)
    _ < 2 ^ 24 := by decide

namespace Listing

variable (g : Listing t) {stash : ItemId → ℕ}

theorem fits : Fits t g.items g.itemDict := ⟨g.distinct, g.counts⟩

/-- The stash with all units of the list has a size of 16 bits. -/
def Sized (g : Listing t) (stash : ItemId → ℕ) : Prop :=
  stackCount t (fun id => stash id + pairUnits id g.itemDict) < 2 ^ 16

variable {g}

theorem Sized.listed (h : g.Sized stash) : stackCount t (fun id => stash id + listed g.itemDict id) < 2 ^ 16 :=
  (stackCount_mono fun id => Nat.add_le_add_left (listed_le _ id) _).trans_lt h

theorem Sized.moved (h : g.Sized stash) : stackCount t (fun id => stash id + g.moved id) < 2 ^ 16 :=
  (stackCount_mono fun id => Nat.add_le_add_left (pairUnits_removals_le _ _ id) _).trans_lt h

theorem Sized.before (h : g.Sized stash) : stackCount t stash < 2 ^ 16 :=
  (stackCount_mono fun _ => Nat.le_add_right _ _).trans_lt h

/-- The stash that is checked has the units of the last stacks. -/
theorem stashItemDict_eq (h : g.Sized stash) :
    stashItemDict stash g.itemDict = fun id => stash id + Stowing.listed g.itemDict id := by
  funext id
  have hlt := lt_of_stackCount h.listed id
  rw [stashItemDict]
  split_ifs with hzero
  · rw [hzero, Nat.add_zero]
  · rw [Nat.mod_eq_of_lt (by omega), Nat.add_comm]

/-- **The loop** adds the units that are moved, and leaves the rest of the items. -/
theorem foldl_stow (h : g.Sized stash) :
    (g.itemDict.foldl (stow t) (g.items, stash)).2 = (fun id => stash id + g.moved id) ∧
      (∀ id, total id (g.itemDict.foldl (stow t) (g.items, stash)).1 + g.moved id = total id g.items) := by
  have hsmall (id : ItemId) : stash id + pairUnits id g.itemDict < 2 ^ 32 :=
    (lt_of_stackCount h id).trans (by decide)
  exact ⟨funext fun id => (g.fits.foldl_stow hsmall id).1, fun id => (g.fits.foldl_stow hsmall id).2⟩

theorem taken_le (g : Listing t) {x : Stack} (hx : x ∈ g.items) :
    taken (removals t g.items g.itemDict) x ≤ x.count := g.fits.taken_le hx

/-- The items that are left, and what of them. -/
theorem mem_left {x : Stack} : x ∈ (g.items.filterMap (after (removals t g.items g.itemDict))) ↔
    ∃ y ∈ g.items, ¬ g.Gone y ∧
      { y with count := y.count - taken (removals t g.items g.itemDict) y } = x := by
  rw [List.mem_filterMap]
  refine exists_congr fun y => and_congr_right fun _ => ?_
  rw [after, Gone]
  split_ifs with hgone
  · exact iff_of_false (fun h => nomatch h) fun h => h.1 hgone
  · rw [Option.some_inj, and_iff_right hgone]

/-- **All units are still the player's or moved** just when the containers that are removed are
empty. -/
theorem units_left_iff (g : Listing t) :
    (∀ id, units id (g.items.filterMap (after (removals t g.items g.itemDict))) =
      total id (g.items.filterMap (after (removals t g.items g.itemDict)))) ↔ g.Emptied := by
  have hobject (z : Stack) (hz : z ∈ g.items) :
      z.object ∈ (g.items.filterMap (after (removals t g.items g.itemDict))).map Stack.object ↔ ¬ g.Gone z := by
    constructor
    · intro hmem hgone
      obtain ⟨_, hx, heq⟩ := List.mem_map.1 hmem
      obtain ⟨y, hy, hleft, rfl⟩ := mem_left.1 hx
      exact hleft (List.inj_on_of_nodup_map g.distinct hy hz heq ▸ hgone)
    · exact fun hleft => List.mem_map.2 ⟨_, mem_left.2 ⟨z, hz, hleft, rfl⟩, rfl⟩
  rw [units_eq_total_iff]
  constructor
  · intro h z hz hgone x hx hholder
    by_contra hne
    have hle := g.taken_le hx
    have hleft : ¬ g.Gone x := fun hgone' => hne hgone'.2
    have hin := h _ (mem_left.2 ⟨x, hx, hleft, rfl⟩) (by dsimp only; omega) z.object hholder
    exact (hobject z hz).1 hin hgone
  · rintro h _ hx hpos o ho
    obtain ⟨y, hy, -, rfl⟩ := mem_left.1 hx
    obtain ⟨z, hz, rfl⟩ := List.mem_map.1 (g.held y hy o ho)
    refine (hobject z hz).2 fun hgone => ?_
    have htaken := h z hz hgone y hy ho
    dsimp only at hpos
    omega

/-- At first all units are the player's. -/
theorem units_items (g : Listing t) (id : ItemId) : units id g.items = total id g.items :=
  (units_eq_total_iff g.items).2 (fun x hx _ => g.held x hx) id

end Listing

/-! ## Stowing a list -/

section List

variable {g : Listing t} {limit : ℕ} {stash : ItemId → ℕ}

/-- The size that is checked. -/
theorem getStashSize_stashItemDict (h : g.Sized stash) : getStashSize t (stashItemDict stash g.itemDict) =
    stackCount t fun id => stash id + listed g.itemDict id := by
  rw [Listing.stashItemDict_eq h, getStashSize_eq h.listed]

/-- A list that the check refuses changes nothing. -/
theorem stows_of_lt (h : g.Sized stash) (hlimit : limit < stackCount t fun id => stash id + listed g.itemDict id) :
    Stows t limit g.itemDict (g.items, stash) := by
  have hr : stashContainer t limit g.itemDict (g.items, stash) = (g.items, stash) := by
    rw [stashContainer, getStashSize_stashItemDict h, if_pos hlimit]
  exact ⟨fun id => by rw [hr], fun hle => by rw [hr]; exact hle⟩

/-- A list that passes the check is stowed just when the containers are empty and all that is moved
is within the limit. -/
theorem stows_iff_of_le (h : g.Sized stash)
    (hlimit : (stackCount t fun id => stash id + listed g.itemDict id) ≤ limit) :
    Stows t limit g.itemDict (g.items, stash) ↔
      g.Emptied ∧ stackCount t (fun id => stash id + g.moved id) ≤ limit := by
  obtain ⟨hmoved, hunits⟩ := Listing.foldl_stow h
  have hr : stashContainer t limit g.itemDict (g.items, stash) =
      g.itemDict.foldl (stow t) (g.items, stash) := by
    rw [stashContainer, getStashSize_stashItemDict h, if_neg (not_lt.2 hlimit)]
  have hbefore : stackCount t stash ≤ limit := (stackCount_mono fun id => Nat.le_add_right _ _).trans hlimit
  rw [← g.units_left_iff, ← g.fits.foldl_stow_fst stash]
  constructor
  · rintro ⟨hmoves, hrespects⟩
    rw [hr] at hmoves hrespects
    refine ⟨fun id => ?_, ?_⟩
    · have hid := hmoves id
      have htotal := hunits id
      rw [hmoved, g.units_items] at hid
      dsimp only at hid
      omega
    · have hsize := hrespects (by rwa [getStashSize_eq h.before])
      rwa [hmoved, getStashSize_eq h.moved] at hsize
  · rintro ⟨hleft, hsize⟩
    refine ⟨fun id => ?_, fun _ => ?_⟩
    · have htotal := hunits id
      rw [hr, hleft id, hmoved, g.units_items]
      dsimp only
      omega
    · rw [hr, hmoved, getStashSize_eq h.moved]
      exact hsize

end List

/-- **A list is stowed** into a stash below a limit if and only if the check refuses it, or the
containers that are removed are empty and all that is moved is within the limit. -/
theorem stows_iff (t : Types) (g : Listing t) (limit : ℕ) (stash : ItemId → ℕ) (h : g.Sized stash) :
    Stows t limit g.itemDict (g.items, stash) ↔
      limit < stackCount t (fun id => stash id + listed g.itemDict id) ∨
        g.Emptied ∧ stackCount t (fun id => stash id + g.moved id) ≤ limit := by
  rcases lt_or_ge limit (stackCount t fun id => stash id + listed g.itemDict id) with hlt | hle
  · exact iff_of_true (stows_of_lt h hlt) (Or.inl hlt)
  · rw [or_iff_right (not_lt.2 hle)]
    exact stows_iff_of_le h hle

/-! ## Stowing a container -/

/-- Where no id is listed twice, all its units are checked. -/
theorem listed_eq {l : List (Stack × ℕ)} (hl : (l.map fun p => p.1.id).Nodup) (id : ItemId) :
    listed l id = pairUnits id l := by
  have hfold (l : List (Stack × ℕ)) (hl : (l.map fun p => p.1.id).Nodup) (dict : ItemId → ℕ) :
      l.foldl (fun dict p => Function.update dict p.1.id p.2) dict id =
        if id ∈ l.map fun p => p.1.id then pairUnits id l else dict id := by
    induction l generalizing dict with
    | nil => rfl
    | cons p l ih =>
      rw [List.map_cons, List.nodup_cons] at hl
      rw [List.foldl_cons, ih hl.2, List.map_cons, pairUnits_cons]
      by_cases hid : p.1.id = id
      · subst hid
        have hnone : pairUnits p.1.id l = 0 := by
          refine List.sum_eq_zero fun n hn => ?_
          obtain ⟨q, hq, rfl⟩ := List.mem_map.1 hn
          have hne : q.1.id ≠ p.1.id := fun heq => hl.1 (heq ▸ List.mem_map_of_mem (f := fun p => p.1.id) hq)
          exact if_neg hne
        rw [if_neg hl.1, Function.update_self, if_pos List.mem_cons_self, if_pos rfl, hnone, Nat.add_zero]
      · rw [Function.update_of_ne (Ne.symm hid), if_neg hid, Nat.zero_add]
        by_cases hmem : id ∈ l.map fun p => p.1.id
        · rw [if_pos hmem, if_pos (List.mem_cons_of_mem _ hmem)]
        · rw [if_neg hmem, if_neg]
          rw [List.mem_cons, not_or]
          exact ⟨Ne.symm hid, hmem⟩
  rw [listed, hfold l hl]
  split_ifs with hmem
  · rfl
  · refine (List.sum_eq_zero fun n hn => ?_).symm
    obtain ⟨q, hq, rfl⟩ := List.mem_map.1 hn
    have hne : q.1.id ≠ id := fun heq => hmem (heq ▸ List.mem_map_of_mem (f := fun p => p.1.id) hq)
    exact if_neg hne

/-- A stash in the range with few units more is of a size of 16 bits. -/
theorem Listing.sized_of_small (g : Listing t) {stash : ItemId → ℕ} (hstash : InRange t stash)
    (hsmall : (g.itemDict.map Prod.snd).sum < 2 ^ 15) : g.Sized stash := by
  have hsum := sum_pairUnits g.itemDict
  have hle : stackCount t (fun id => stash id + pairUnits id g.itemDict) ≤
      ∑ id, (stash id + t.stackSize id - 1) / t.stackSize id + ∑ id, pairUnits id g.itemDict := by
    rw [stackCount, ← Finset.sum_add_distrib]
    exact Finset.sum_le_sum fun id _ => stacks_add_le (t.stackSize_pos id) _ _
  rw [InRange] at hstash
  rw [Listing.Sized]
  omega

mutual

/-- The items at and below an item that are no containers. -/
def leavesOf : Containers.Item → List Containers.Body
  | .item body => [body]
  | .container _ _ itemlist => leavesIn itemlist

/-- The items in a list and below that are no containers. -/
def leavesIn : List Containers.Item → List Containers.Body
  | [] => []
  | x :: l => leavesOf x ++ leavesIn l

end

mutual

/-- What `Container::getStowableItems` adds for an item of its list. -/
def stowableOf (isItemStorable : Containers.Body → Bool) : Containers.Item → List Containers.Body
  | .item body => if isItemStorable body then [body] else []
  | .container _ _ itemlist => stowableIn isItemStorable itemlist

/-- What `Container::getStowableItems` finds in a list of items. -/
def stowableIn (isItemStorable : Containers.Body → Bool) : List Containers.Item → List Containers.Body
  | [] => []
  | x :: l => stowableOf isItemStorable x ++ stowableIn isItemStorable l

end

/-- An item, of an id of 16 bits. -/
def toStack (canRemove : Containers.Body → Bool) (body : Containers.Body) : Stack :=
  ⟨body.object, Fin.ofNat _ body.id, body.count.toNat, canRemove body, []⟩

/-- `Container::getStowableItems`. -/
def getStowableItems (isItemStorable canRemove : Containers.Body → Bool) (c : Containers.Item) :
    List (Stack × ℕ) :=
  (stowableIn isItemStorable c.itemlist).map fun body => (toStack canRemove body, body.count.toNat)

mutual

theorem stowableOf_eq (isItemStorable : Containers.Body → Bool) (x : Containers.Item) :
    stowableOf isItemStorable x = (leavesOf x).filter isItemStorable := by
  cases x with
  | item body =>
    rw [stowableOf, leavesOf, List.filter_cons, List.filter_nil]
  | container body maxSize itemlist =>
    rw [stowableOf, leavesOf]
    exact stowableIn_eq isItemStorable itemlist

theorem stowableIn_eq (isItemStorable : Containers.Body → Bool) (l : List Containers.Item) :
    stowableIn isItemStorable l = (leavesIn l).filter isItemStorable := by
  cases l with
  | nil => rw [stowableIn, leavesIn, List.filter_nil]
  | cons x l =>
    rw [stowableIn, leavesIn, List.filter_append, stowableOf_eq isItemStorable x, stowableIn_eq isItemStorable l]

end

/-- The stowable items of a container, with all its items that are no containers. -/
def Listing.ofContainer (t : Types) (isItemStorable canRemove : Containers.Body → Bool) (c : Containers.Item)
    (hdistinct : ((leavesIn c.itemlist).map Containers.Body.object).Nodup) : Listing t where
  items := (leavesIn c.itemlist).map (toStack canRemove)
  itemDict := getStowableItems isItemStorable canRemove c
  distinct := by
    rw [List.map_map]
    exact hdistinct
  counts := by
    intro p hp x hx heq
    obtain ⟨b, hb, rfl⟩ := List.mem_map.1 hp
    obtain ⟨b', hb', rfl⟩ := List.mem_map.1 hx
    rw [stowableIn_eq] at hb
    obtain rfl := List.inj_on_of_nodup_map hdistinct hb' (List.mem_of_mem_filter hb) heq
    exact ⟨rfl, fun _ => rfl⟩
  held := by
    intro x hx o ho
    obtain ⟨b, -, rfl⟩ := List.mem_map.1 hx
    exact absurd ho List.not_mem_nil

/-- **A container in which no id is stowable twice** is stowed into every stash below every
limit. -/
theorem stows_container (t : Types) (isItemStorable canRemove : Containers.Body → Bool) (c : Containers.Item)
    (hdistinct : ((leavesIn c.itemlist).map Containers.Body.object).Nodup)
    (hsmall : ((getStowableItems isItemStorable canRemove c).map Prod.snd).sum < 2 ^ 15)
    (hids : ((getStowableItems isItemStorable canRemove c).map fun p => p.1.id).Nodup) (limit : ℕ)
    {stash : ItemId → ℕ} (hstash : InRange t stash) : Stows t limit (getStowableItems isItemStorable canRemove c)
      ((leavesIn c.itemlist).map (toStack canRemove), stash) := by
  have hsized := (Listing.ofContainer t isItemStorable canRemove c hdistinct).sized_of_small hstash hsmall
  rcases lt_or_ge limit (stackCount t fun id => stash id +
      listed (getStowableItems isItemStorable canRemove c) id) with hlt | hle
  · exact stows_of_lt hsized hlt
  · refine (stows_iff_of_le hsized hle).2 ⟨fun z _ _ x hx hholder => ?_, (stackCount_mono fun id => ?_).trans hle⟩
    · obtain ⟨b, -, rfl⟩ := List.mem_map.1 hx
      exact absurd hholder List.not_mem_nil
    · rw [listed_eq hids]
      exact Nat.add_le_add_left (pairUnits_removals_le _ _ id) _

/-! ## Lists that are too long, and containers that are not empty -/

/-- Bags, and stacks of 100. -/
def coins : Types where
  stackable id := id ≠ 2853
  stackSize _ := 100
  stackSize_pos _ := by decide
  stackSize_lt _ := by decide

/-- Two full stacks of an id. -/
def twoStacks : Listing coins where
  items := [⟨0, 3031, 100, true, []⟩, ⟨1, 3031, 100, true, []⟩]
  itemDict := [(⟨0, 3031, 100, true, []⟩, 100), (⟨1, 3031, 100, true, []⟩, 100)]
  distinct := by decide
  counts := by simp [coins]
  held := by simp

/-- A bag with a bag in it that has some coins; the outer bag is listed. -/
def bags : Listing coins where
  items := [⟨0, 2853, 1, true, []⟩, ⟨1, 2853, 1, true, [0]⟩, ⟨2, 3031, 7, true, [0, 1]⟩]
  itemDict := [(⟨0, 2853, 1, true, []⟩, 1)]
  distinct := by decide
  counts := by simp [coins]
  held := by simp

/-- What is taken of the places of one id, when the stash has nothing else. -/
theorem stackCount_single {stash : ItemId → ℕ} (id : ItemId) (h : ∀ i, i ≠ id → stash i = 0) :
    stackCount coins stash = (stash id + 99) / 100 := by
  rw [stackCount, Finset.sum_eq_single id]
  · rfl
  · intro i _ hi
    rw [h i hi]
    exact Nat.div_eq_of_lt (show 0 + 100 - 1 < 100 by decide)
  · exact fun hid => absurd (Finset.mem_univ _) hid

/-- The size of an empty stash with the units of one id. -/
theorem stackCount_update (id : ItemId) (n : ℕ) {f : ItemId → ℕ} (hid : f id = n) (h : ∀ i, i ≠ id → f i = 0) :
    stackCount coins (fun i => 0 + f i) = (n + 99) / 100 := by
  rw [stackCount_single id fun i hi => by rw [h i hi], Nat.zero_add, hid]

/-- The size of an empty stash with the units that are checked, and with those that are moved, where
only one id is listed. -/
theorem stackCount_one (g : Listing coins) (id : ItemId) (hone : ∀ p ∈ g.itemDict, p.1.id = id) :
    stackCount coins (fun i => 0 + pairUnits i g.itemDict) = (pairUnits id g.itemDict + 99) / 100 ∧
      stackCount coins (fun i => 0 + listed g.itemDict i) = (listed g.itemDict id + 99) / 100 ∧
      stackCount coins (fun i => 0 + g.moved i) = (g.moved id + 99) / 100 := by
  have hzero (i : ItemId) (hi : i ≠ id) : pairUnits i g.itemDict = 0 := by
    refine List.sum_eq_zero fun n hn => ?_
    obtain ⟨p, hp, rfl⟩ := List.mem_map.1 hn
    exact if_neg fun heq : p.1.id = i => hi (heq.symm.trans (hone p hp))
  exact ⟨stackCount_update id _ rfl hzero,
    stackCount_update id _ rfl fun i hi => Nat.eq_zero_of_le_zero ((listed_le _ i).trans_eq (hzero i hi)),
    stackCount_update id _ rfl fun i hi =>
      Nat.eq_zero_of_le_zero ((pairUnits_removals_le _ _ i).trans_eq (hzero i hi))⟩

/-- **Two stacks go into a stash that has room for one**, and a bag takes the bag and the coins in
it along. -/
theorem not_stows_twoStacks : ¬ Stows coins 1 twoStacks.itemDict (twoStacks.items, fun _ => 0) ∧
    ¬ Stows coins 1 bags.itemDict (bags.items, fun _ => 0) := by
  constructor
  · obtain ⟨hall, hlisted, hmoved⟩ := stackCount_one twoStacks 3031 (by decide)
    have hsized : twoStacks.Sized fun _ => 0 := by
      rw [Listing.Sized, hall]
      decide
    rw [stows_iff_of_le hsized (by rw [hlisted]; decide), hmoved]
    rintro ⟨-, hle⟩
    revert hle
    decide
  · obtain ⟨hall, hlisted, -⟩ := stackCount_one bags 2853 (by decide)
    have hsized : bags.Sized fun _ => 0 := by
      rw [Listing.Sized, hall]
      decide
    rw [stows_iff_of_le hsized (by rw [hlisted]; decide)]
    rintro ⟨hemptied, -⟩
    have hcoins := hemptied ⟨0, 2853, 1, true, []⟩ List.mem_cons_self (by unfold Listing.Gone; decide)
      ⟨2, 3031, 7, true, [0, 1]⟩ (by simp [bags]) List.mem_cons_self
    revert hcoins
    decide

/-- The coins of the bags only. -/
def coinsInBags : Listing coins where
  items := bags.items
  itemDict := [(⟨2, 3031, 7, true, [0, 1]⟩, 7)]
  distinct := by decide
  counts := by simp [coins, bags]
  held := bags.held

/-- The coins in the inner bag are stowed below a limit of one. -/
theorem stows_coinsInBags : Stows coins 1 coinsInBags.itemDict (coinsInBags.items, fun _ => 0) := by
  obtain ⟨hall, -, hmoved⟩ := stackCount_one coinsInBags 3031 (by decide)
  have hsized : coinsInBags.Sized fun _ => 0 := by
    rw [Listing.Sized, hall]
    decide
  refine (stows_iff coins coinsInBags 1 _ hsized).2 (Or.inr ⟨?_, ?_⟩)
  · unfold Listing.Emptied Listing.Gone
    decide
  · rw [hmoved]
    decide

/-- A bag with gold and platinum coins. -/
theorem stows_container_bag :
    let bag : Containers.Item := .container ⟨0, 2853, 1, 0⟩ 20
      [.item ⟨1, 3031, 100, 0⟩, .item ⟨2, 3035, 7, 0⟩]
    Stows coins 5 (getStowableItems (fun _ => true) (fun _ => true) bag)
      ((leavesIn bag.itemlist).map (toStack fun _ => true), fun _ => 0) := by
  refine stows_container coins _ _ _ (by decide +kernel) (by decide +kernel) (by decide +kernel) 5 ?_
  simp [InRange, coins]

end TiabloServer.Stowing
