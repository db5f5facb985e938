import TiabloServer.Items.Stash

/-!
# Items for a sell offer

`removeOfferItems` (`game.cpp`): the items that a player offers on the market are taken out of his
stash and, as far as that has too few, out of his depot locker. The locker is the list of the items
that `requestLockerItems` comes to, in its order; containers with something in them, which it walks
into and does not list, are left out. The texts for the status of the offer are left out.

## Main definitions

* `Market.Provides` — the items that are found make up for what the stash lacks.
* `Market.StopsAtOnce` — the loop takes nothing.

## Main results

* `Market.takesAmount_iff` — a call takes the amount or nothing just when one of these holds, or the
  stash has enough.
-/

namespace TiabloServer.Market

open Items

/-! ## The functions of the source -/

/-- What the market needs of an item type. -/
structure OfferType where
  id : ℕ
  wareId : ℕ
  stackable : Bool

/-- An item in a depot locker. -/
structure LockerItem where
  id : ℕ
  tier : ℕ
  count : UInt8
  isStoreItem : Bool
  hasMarketAttributes : Bool
  /-- It is no container, or an empty one with the capacity of its type. -/
  plainContainer : Bool
  canRemove : Bool
  deriving DecidableEq

/-- Whether `getLockerItemsAndCountById` lists an item. -/
def offered (type : OfferType) (tier : ℕ) (item : LockerItem) : Bool :=
  item.id = type.id ∧ item.isStoreItem = false ∧ type.wareId ≠ 0 ∧ item.plainContainer = true ∧
    item.hasMarketAttributes = true ∧ item.tier = tier

/-- `Game::internalRemoveItem` of an item in the locker: what is left of it, or nothing when it is
refused. -/
def internalRemoveItem (stackable : Bool) (item : LockerItem) (count : ℕ) :
    Option (Option LockerItem) :=
  if count = 0 ∨ stackable = true ∧ count > item.count.toNat then none
  else if item.canRemove = false then none
  else if stackable = true ∧ count ≠ item.count.toNat then
    some (some { item with count := UInt8.ofNat (item.count.toNat - count) })
  else some none

/-- What the loop over the items leads to: the locker, `removeAmount` unless a removal has been
refused, and the subtractions from `removeAmount` that it makes. -/
structure LoopEnd where
  locker : List LockerItem
  removeAmount : Option UInt16
  subtractions : List (UInt16 × ℕ)

/-- An item in front of the rest of the locker. -/
def LoopEnd.behind (item : Option LockerItem) (subtractions : List (UInt16 × ℕ)) (r : LoopEnd) :
    LoopEnd :=
  { r with
    locker := item.toList ++ r.locker
    subtractions := subtractions ++ r.subtractions }

/-- The loop over `itemVector`, which has the offered items of the locker. -/
def removeItems (type : OfferType) (tier : ℕ) (amount : UInt16) :
    UInt16 → ℕ → List LockerItem → LoopEnd
  | removeAmount, _, [] => ⟨[], some removeAmount, []⟩
  | removeAmount, count, item :: locker =>
    if offered type tier item = false then
      (removeItems type tier amount removeAmount count locker).behind (some item) []
    else if type.stackable then
      let removeCount := min removeAmount.toNat item.count.toNat
      let left := removeAmount - UInt16.ofNat removeCount
      match internalRemoveItem true item removeCount with
      | none => ⟨item :: locker, none, [(removeAmount, removeCount)]⟩
      | some item =>
        if left = 0 then ⟨item.toList ++ locker, some left, [(removeAmount, removeCount)]⟩
        else (removeItems type tier amount left count locker).behind item [(removeAmount, removeCount)]
    else
      let count := count + item.count.toNat
      if count > amount.toNat then ⟨item :: locker, some removeAmount, []⟩
      else
        match internalRemoveItem false item item.count.toNat with
        | none => ⟨item :: locker, none, []⟩
        | some item => (removeItems type tier amount (removeAmount - 1) count locker).behind item
            [(removeAmount, 1)]

/-- What a call leads to: its answer, the stash, the locker and the subtractions from
`removeAmount`. -/
structure Removal where
  success : Bool
  stashItems : List (ℕ × ℕ)
  locker : List LockerItem
  subtractions : List (UInt16 × ℕ)

/-- The part of `removeOfferItems` on the locker. -/
def removeLockerItems (type : OfferType) (tier : ℕ) (amount removeAmount : UInt16)
    (stashItems : List (ℕ × ℕ)) (locker : List LockerItem) : Removal :=
  let itemVector := locker.filter (offered type tier)
  let totalCount := itemVector.length % 2 ^ 16
  if removeAmount > 0 then
    if totalCount = 0 ∨ itemVector.length = 0 then ⟨false, stashItems, locker, []⟩
    else
      let r := removeItems type tier amount removeAmount 0 locker
      match r.removeAmount with
      | none => ⟨false, stashItems, r.locker, r.subtractions⟩
      | some left => ⟨if left > 0 then false else true, stashItems, r.locker, r.subtractions⟩
  else ⟨true, stashItems, locker, []⟩

def removeOfferItems (type : OfferType) (amount : UInt16) (tier : ℕ) (stashItems : List (ℕ × ℕ))
    (locker : List LockerItem) : Removal :=
  let stashItemCount := stashCount stashItems type.wareId
  if stashItemCount > 0 then
    match if amount.toNat > stashItemCount then withdrawItem stashItems type.wareId stashItemCount
      else none with
    | some left =>
      let r := removeLockerItems type tier amount (amount - UInt16.ofNat stashItemCount) left locker
      { r with subtractions := (amount, stashItemCount) :: r.subtractions }
    | none =>
      match withdrawItem stashItems type.wareId amount.toNat with
      | some left => removeLockerItems type tier amount 0 left locker
      | none => ⟨false, stashItems, locker, []⟩
  else removeLockerItems type tier amount amount stashItems locker

/-! ## What a call is to do -/

/-- The units of an offered item. -/
def unitsOf (type : OfferType) (tier : ℕ) (item : LockerItem) : ℕ :=
  if offered type tier item = false then 0 else if type.stackable then item.count.toNat else 1

/-- The offered units in the locker. -/
def lockerCount (type : OfferType) (tier : ℕ) (locker : List LockerItem) : ℕ :=
  (locker.map (unitsOf type tier)).sum

/-- A call takes the amount, from the stash as far as it goes, or takes nothing, and wraps no
counter. -/
structure TakesAmount (type : OfferType) (amount : UInt16) (tier : ℕ) (stashItems : List (ℕ × ℕ))
    (locker : List LockerItem) (r : Removal) : Prop where
  succeeds : r.success = true ↔
    amount.toNat ≤ stashCount stashItems type.wareId + lockerCount type tier locker
  fromStash : r.success = true → stashCount r.stashItems type.wareId +
    min amount.toNat (stashCount stashItems type.wareId) = stashCount stashItems type.wareId
  fromLocker : r.success = true → lockerCount type tier r.locker +
    (amount.toNat - stashCount stashItems type.wareId) = lockerCount type tier locker
  unchanged : r.success = false → r.stashItems = stashItems ∧ r.locker = locker
  subtracts : ∀ d ∈ r.subtractions, d.2 ≤ d.1.toNat

/-! ## When it does -/

/-- The locker refuses to give an item away. -/
def Refuses (item : LockerItem) : Prop := item.count = 0 ∨ item.canRemove = false

/-- An initial part of the stacks can be removed and holds `n` units. -/
def Covers : ℕ → List LockerItem → Prop
  | _, [] => False
  | n, item :: items =>
    ¬ Refuses item ∧ (n ≤ item.count.toNat ∨ Covers (n - item.count.toNat) items)

/-- The items up to the first that lets the running count exceed the amount. -/
def considered (amount : ℕ) : ℕ → List LockerItem → List LockerItem
  | _, [] => []
  | count, item :: items =>
    if count + item.count.toNat > amount then []
    else item :: considered amount (count + item.count.toNat) items

/-- The offered items can make up for the `n` units that the stash lacks: stacks hold them; of other
items those considered are as many. -/
def Suffices (type : OfferType) (amount n : ℕ) (items : List LockerItem) : Prop :=
  if type.stackable then Covers n items
  else (∀ item ∈ considered amount 0 items, ¬ Refuses item) ∧ (considered amount 0 items).length = n

/-- The items in the locker make up for what the stash lacks. Their number is a 16-bit value and is
taken for none when it is 0. -/
def Provides (type : OfferType) (amount : UInt16) (tier n : ℕ) (locker : List LockerItem) : Prop :=
  (locker.filter (offered type tier)).length % 2 ^ 16 ≠ 0 ∧
    Suffices type amount.toNat n (locker.filter (offered type tier))

/-- The first item is not taken. -/
def StopsAtOnce (type : OfferType) (amount : ℕ) : List LockerItem → Prop
  | [] => True
  | item :: _ => Refuses item ∨ type.stackable = false ∧ item.count.toNat > amount

section Proofs

variable {type : OfferType} {tier : ℕ} {amount r : UInt16} {count : ℕ} {item : LockerItem}
  {locker : List LockerItem}

theorem lockerCount_append (l l' : List LockerItem) :
    lockerCount type tier (l ++ l') = lockerCount type tier l + lockerCount type tier l' := by
  simp [lockerCount]

theorem lockerCount_cons (item : LockerItem) (l : List LockerItem) :
    lockerCount type tier (item :: l) = unitsOf type tier item + lockerCount type tier l := rfl

theorem toNat_sub_min (r : UInt16) {n : ℕ} (hn : n ≤ r.toNat) : (r - UInt16.ofNat n).toNat = r.toNat - n := by
  have hlt := r.toNat_lt
  have hof : (UInt16.ofNat n).toNat = n := by
    rw [UInt16.toNat_ofNat']
    exact Nat.mod_eq_of_lt (by omega)
  rw [UInt16.toNat_sub_of_le, hof]
  rwa [UInt16.le_iff_toNat_le, hof]

/-- Units that are taken off a stack are missing in what is left of it. -/
theorem internalRemoveItem_stack (hstack : type.stackable = true)
    (hoffered : offered type tier item = true) {n : ℕ} (hn : n ≤ item.count.toNat) {left : Option LockerItem}
    (h : internalRemoveItem true item n = some left) :
    lockerCount type tier left.toList + n = item.count.toNat := by
  have hlt := item.count.toNat_lt
  unfold internalRemoveItem at h
  split_ifs at h with hzero hcan hpart
  · obtain rfl := Option.some.inj h
    have hoffered' : offered type tier { item with count := UInt8.ofNat (item.count.toNat - n) } = true :=
      hoffered
    simp only [Option.toList_some, lockerCount, List.map_cons, List.map_nil, List.sum_cons, List.sum_nil,
      unitsOf, hoffered', hstack, UInt8.toNat_ofNat', Bool.true_eq_false, if_false, if_true]
    omega
  · obtain rfl := Option.some.inj h
    have hall : n = item.count.toNat := by
      by_contra hne
      exact hpart ⟨rfl, hne⟩
    simpa [lockerCount] using hall

/-- A stack is refused when it is empty or may not be removed. -/
theorem internalRemoveItem_eq_none (item : LockerItem) (stackable : Bool) {n : ℕ} (hn : n ≤ item.count.toNat)
    (hzero : n = 0 ↔ item.count = 0) : internalRemoveItem stackable item n = none ↔ Refuses item := by
  unfold internalRemoveItem Refuses
  split_ifs with h hcan hpart
  · simp only [true_iff]
    rcases h with h | ⟨-, h⟩
    · exact Or.inl (hzero.1 h)
    · omega
  · simp [hcan]
  all_goals
    simp only [false_iff, not_or]
    exact ⟨fun h' => h (Or.inl (hzero.2 h')), by simpa using hcan⟩

/-- Nothing is left of an item that does not stack. -/
theorem internalRemoveItem_whole {n : ℕ} {left : Option LockerItem}
    (h : internalRemoveItem false item n = some left) : left = none := by
  unfold internalRemoveItem at h
  simp only [Bool.false_eq_true, false_and, or_false, if_false] at h
  split_ifs at h
  exact (Option.some.inj h).symm

theorem min_eq_zero (item : LockerItem) (hr : 0 < r.toNat) : min r.toNat item.count.toNat = 0 ↔ item.count = 0 := by
  rw [← UInt8.toNat_inj, UInt8.toNat_zero]
  omega

/-- The loop puts nothing in. -/
theorem lockerCount_removeItems_le : lockerCount type tier (removeItems type tier amount r count locker).locker ≤
      lockerCount type tier locker := by
  induction locker generalizing r count with
  | nil => exact le_rfl
  | cons item locker ih =>
    unfold removeItems
    by_cases hoffered : offered type tier item = false
    · rw [if_pos hoffered]
      simp only [LoopEnd.behind, Option.toList_some, List.singleton_append, lockerCount_cons]
      exact Nat.add_le_add_left ih _
    rw [if_neg hoffered]
    have hoffered' : offered type tier item = true := by simpa using hoffered
    by_cases hstack : type.stackable = true
    · rw [if_pos hstack]
      dsimp only
      cases hremove : internalRemoveItem true item (min r.toNat item.count.toNat) with
      | none => exact le_rfl
      | some left =>
        have hleft := internalRemoveItem_stack hstack hoffered' (min_le_right _ _) hremove
        have hunits : unitsOf type tier item = item.count.toNat := by simp [unitsOf, hoffered', hstack]
        dsimp only
        split_ifs
        · rw [lockerCount_append, lockerCount_cons]
          omega
        · simp only [LoopEnd.behind, lockerCount_append, lockerCount_cons]
          have h := @ih (r - UInt16.ofNat (min r.toNat item.count.toNat)) count
          omega
    · rw [if_neg hstack]
      dsimp only
      split_ifs
      · exact le_rfl
      · cases hremove : internalRemoveItem false item item.count.toNat with
        | none => exact le_rfl
        | some left =>
          obtain rfl := internalRemoveItem_whole hremove
          simp only [LoopEnd.behind, lockerCount_append, lockerCount_cons, Option.toList_none]
          have h := @ih (r - 1) (count + item.count.toNat)
          simp only [lockerCount, List.map_nil, List.sum_nil] at h ⊢
          omega

theorem filter_offered_neg (h : offered type tier item = false) :
    (item :: locker).filter (offered type tier) = locker.filter (offered type tier) :=
  List.filter_cons_of_neg (by simp [h])

theorem filter_offered_pos (h : offered type tier item = true) :
    (item :: locker).filter (offered type tier) = item :: locker.filter (offered type tier) :=
  List.filter_cons_of_pos h

/-- What the loop does with an item that is not offered. -/
theorem removeItems_skip (h : offered type tier item = false) :
    removeItems type tier amount r count (item :: locker) =
      (removeItems type tier amount r count locker).behind (some item) [] := by
  rw [removeItems, if_pos h]

/-- **Stacks are taken** until the units are, when an initial part of them holds these. -/
theorem removeItems_covers (amount : UInt16) (count : ℕ) (hstack : type.stackable = true) (hr : 0 < r.toNat)
    (hcovers : Covers r.toNat (locker.filter (offered type tier))) :
    let e := removeItems type tier amount r count locker
    e.removeAmount = some 0 ∧ lockerCount type tier e.locker + r.toNat = lockerCount type tier locker := by
  induction locker generalizing r with
  | nil => exact hcovers.elim
  | cons item locker ih =>
    by_cases hoffered : offered type tier item = false
    · rw [filter_offered_neg hoffered] at hcovers
      obtain ⟨hzero, hcount⟩ := ih hr hcovers
      rw [removeItems_skip hoffered]
      refine ⟨hzero, ?_⟩
      simp only [LoopEnd.behind, Option.toList_some, List.singleton_append, lockerCount_cons] at hcount ⊢
      omega
    have hoffered' : offered type tier item = true := by simpa using hoffered
    rw [filter_offered_pos hoffered'] at hcovers
    obtain ⟨hgives, hcovers⟩ := hcovers
    have hunits : unitsOf type tier item = item.count.toNat := by simp [unitsOf, hoffered', hstack]
    unfold removeItems
    rw [if_neg hoffered, if_pos hstack]
    dsimp only
    cases hremove : internalRemoveItem true item (min r.toNat item.count.toNat) with
    | none =>
      exact absurd ((internalRemoveItem_eq_none item true (min_le_right _ _) (min_eq_zero item hr)).1 hremove) hgives
    | some left =>
      have hleft := internalRemoveItem_stack hstack hoffered' (min_le_right _ _) hremove
      have hsub := toNat_sub_min r (min_le_left r.toNat item.count.toNat)
      dsimp only
      by_cases hzero : r - UInt16.ofNat (min r.toNat item.count.toNat) = 0
      · rw [if_pos hzero]
        refine ⟨congrArg some hzero, ?_⟩
        rw [hzero, UInt16.toNat_zero] at hsub
        rw [lockerCount_append, lockerCount_cons]
        omega
      · rw [if_neg hzero]
        have hpos : 0 < (r - UInt16.ofNat (min r.toNat item.count.toNat)).toNat :=
          Nat.pos_of_ne_zero fun h => hzero (UInt16.toNat_inj.1 h)
        have hrest : Covers (r.toNat - item.count.toNat) (locker.filter (offered type tier)) :=
          hcovers.resolve_left (by omega)
        have hmin : (r - UInt16.ofNat (min r.toNat item.count.toNat)).toNat =
            r.toNat - item.count.toNat := by omega
        obtain ⟨hended, hcount⟩ := ih hpos (hmin ▸ hrest)
        refine ⟨hended, ?_⟩
        simp only [LoopEnd.behind, lockerCount_append, lockerCount_cons] at hcount ⊢
        omega

/-- **The loop over stacks fails** when no initial part of them holds the units. -/
theorem removeItems_not_covers (hstack : type.stackable = true) (hr : 0 < r.toNat)
    (hcovers : ¬ Covers r.toNat (locker.filter (offered type tier))) :
    ∀ left, (removeItems type tier amount r count locker).removeAmount = some left → 0 < left.toNat := by
  induction locker generalizing r with
  | nil =>
    intro left hleft
    obtain rfl := Option.some.inj hleft
    exact hr
  | cons item locker ih =>
    by_cases hoffered : offered type tier item = false
    · rw [filter_offered_neg hoffered] at hcovers
      rw [removeItems_skip hoffered]
      exact ih hr hcovers
    have hoffered' : offered type tier item = true := by simpa using hoffered
    rw [filter_offered_pos hoffered', Covers, not_and_or, not_not] at hcovers
    unfold removeItems
    rw [if_neg hoffered, if_pos hstack]
    dsimp only
    have hiff := internalRemoveItem_eq_none item true (min_le_right _ _) (min_eq_zero item hr)
    cases hremove : internalRemoveItem true item (min r.toNat item.count.toNat) with
    | none => exact fun _ h => nomatch h
    | some left =>
      have hgives : ¬ Refuses item := fun h => by simp [hiff.2 h] at hremove
      obtain ⟨hmore, hrest⟩ := not_or.1 (hcovers.resolve_left hgives)
      have hsub := toNat_sub_min r (min_le_left r.toNat item.count.toNat)
      have hmin : (r - UInt16.ofNat (min r.toNat item.count.toNat)).toNat =
          r.toNat - item.count.toNat := by omega
      have hpos : 0 < (r - UInt16.ofNat (min r.toNat item.count.toNat)).toNat := by omega
      have hzero : r - UInt16.ofNat (min r.toNat item.count.toNat) ≠ 0 := fun h => by
        simp [h] at hpos
      dsimp only
      rw [if_neg hzero]
      exact ih hpos (hmin ▸ hrest)

/-- **Stacks stay as they are** just when the first one is refused. -/
theorem removeItems_unchanged_iff (hr : 0 < r.toNat) (hcount : count = 0) :
    (removeItems type tier amount r count locker).locker = locker ↔
      StopsAtOnce type amount.toNat (locker.filter (offered type tier)) := by
  subst hcount
  induction locker with
  | nil => exact iff_of_true rfl trivial
  | cons item locker ih =>
    by_cases hoffered : offered type tier item = false
    · rw [filter_offered_neg hoffered, removeItems_skip hoffered, ← ih]
      simp [LoopEnd.behind]
    have hoffered' : offered type tier item = true := by simpa using hoffered
    rw [filter_offered_pos hoffered', StopsAtOnce]
    -- an item that is taken is missing in the locker
    have hless : ∀ l : List LockerItem, lockerCount type tier l < lockerCount type tier (item :: locker) →
        l ≠ item :: locker := fun l hlt h => absurd (h ▸ hlt) (lt_irrefl _)
    unfold removeItems
    rw [if_neg hoffered]
    by_cases hstack : type.stackable = true
    · rw [if_pos hstack]
      have hunits : unitsOf type tier item = item.count.toNat := by simp [unitsOf, hoffered', hstack]
      have hiff := internalRemoveItem_eq_none item true (min_le_right _ _) (min_eq_zero item hr)
      dsimp only
      cases hremove : internalRemoveItem true item (min r.toNat item.count.toNat) with
      | none => exact iff_of_true rfl (Or.inl (hiff.1 hremove))
      | some left =>
        have hgives : ¬ Refuses item := fun h => by simp [hiff.2 h] at hremove
        have hleft := internalRemoveItem_stack hstack hoffered' (min_le_right _ _) hremove
        have hpos : 0 < min r.toNat item.count.toNat :=
          Nat.pos_of_ne_zero fun h => hgives (Or.inl ((min_eq_zero item hr).1 h))
        refine iff_of_false (hless _ ?_) (by simp [hgives, hstack])
        dsimp only
        split_ifs
        · rw [lockerCount_append, lockerCount_cons]
          omega
        · have hle := @lockerCount_removeItems_le type tier amount
            (r - UInt16.ofNat (min r.toNat item.count.toNat)) 0 locker
          simp only [LoopEnd.behind, lockerCount_append, lockerCount_cons]
          omega
    · rw [if_neg hstack]
      have hunits : unitsOf type tier item = 1 := by simp [unitsOf, hoffered', hstack]
      have hiff := internalRemoveItem_eq_none item false le_rfl
        (by rw [← UInt8.toNat_inj, UInt8.toNat_zero])
      dsimp only
      rw [Nat.zero_add]
      by_cases hmany : item.count.toNat > amount.toNat
      · rw [if_pos hmany]
        exact iff_of_true rfl (Or.inr ⟨by simpa using hstack, hmany⟩)
      rw [if_neg hmany]
      cases hremove : internalRemoveItem false item item.count.toNat with
      | none => exact iff_of_true rfl (Or.inl (hiff.1 hremove))
      | some left =>
        have hgives : ¬ Refuses item := fun h => by simp [hiff.2 h] at hremove
        obtain rfl := internalRemoveItem_whole hremove
        refine iff_of_false (hless _ ?_) (by simp [hgives, hmany])
        have hle := @lockerCount_removeItems_le type tier amount (r - 1) item.count.toNat locker
        simp only [LoopEnd.behind, lockerCount_append, lockerCount_cons, Option.toList_none]
        simp only [lockerCount, List.map_nil, List.sum_nil] at hle ⊢
        omega

/-- The loop over stacks takes no more than is missing. -/
theorem removeItems_subtracts (hstack : type.stackable = true) :
    ∀ d ∈ (removeItems type tier amount r count locker).subtractions, d.2 ≤ d.1.toNat := by
  induction locker generalizing r with
  | nil => exact fun d hd => absurd hd List.not_mem_nil
  | cons item locker ih =>
    have hfirst : ∀ d ∈ [(r, min r.toNat item.count.toNat)], d.2 ≤ d.1.toNat := by
      intro d hd
      obtain rfl := List.mem_singleton.1 hd
      exact min_le_left _ _
    unfold removeItems
    rw [if_pos hstack]
    dsimp only
    split_ifs with hoffered hzero
    · exact ih
    all_goals
      cases internalRemoveItem true item (min r.toNat item.count.toNat) with
      | none => exact hfirst
      | some left => first
        | exact hfirst
        | exact List.forall_mem_append.2 ⟨hfirst, ih⟩

/-- Nothing is subtracted for items that do not stack when the first one stops the loop. -/
theorem removeItems_stops (hstack : type.stackable = false)
    (hstops : StopsAtOnce type amount.toNat (locker.filter (offered type tier))) :
    (removeItems type tier amount r 0 locker).subtractions = [] := by
  induction locker with
  | nil => rfl
  | cons item locker ih =>
    by_cases hoffered : offered type tier item = false
    · rw [filter_offered_neg hoffered] at hstops
      rw [removeItems_skip hoffered]
      exact ih hstops
    have hoffered' : offered type tier item = true := by simpa using hoffered
    rw [filter_offered_pos hoffered', StopsAtOnce] at hstops
    unfold removeItems
    rw [if_neg hoffered, if_neg (show ¬ type.stackable = true by simp [hstack])]
    dsimp only
    rw [Nat.zero_add]
    split_ifs with hmany
    · rfl
    · have hiff := internalRemoveItem_eq_none item false le_rfl
        (by rw [← UInt8.toNat_inj, UInt8.toNat_zero])
      rw [hiff.2 (hstops.resolve_right fun h => hmany h.2)]

/-- Items that are given away count something. -/
theorem length_considered_le {items : List LockerItem} {n : ℕ} (hn : count ≤ n)
    (h : ∀ item ∈ considered n count items, ¬ Refuses item) : (considered n count items).length + count ≤ n := by
  induction items generalizing count with
  | nil => simpa [considered] using hn
  | cons item items ih =>
    unfold considered at h ⊢
    split_ifs at h ⊢ with hmany
    · simpa using hn
    · have hrest := ih (not_lt.1 hmany) fun x hx => h x (List.mem_cons_of_mem _ hx)
      have hpos : item.count.toNat ≠ 0 := fun hzero =>
        h item List.mem_cons_self (Or.inl (UInt8.toNat_inj.1 hzero))
      rw [List.length_cons]
      omega

/-- **Items that do not stack** are taken as long as the running count allows, when none is
refused. -/
theorem removeItems_considered (hstack : type.stackable = false)
    (hgives : ∀ item ∈ considered amount.toNat count (locker.filter (offered type tier)), ¬ Refuses item) :
    let n := (considered amount.toNat count (locker.filter (offered type tier))).length
    let e := removeItems type tier amount r count locker
    e.removeAmount = some (r - UInt16.ofNat n) ∧
      lockerCount type tier e.locker + n = lockerCount type tier locker ∧
      (n ≤ r.toNat → ∀ d ∈ e.subtractions, d.2 ≤ d.1.toNat) := by
  induction locker generalizing r count with
  | nil => exact ⟨by simp [removeItems, considered], rfl, fun _ d hd => absurd hd List.not_mem_nil⟩
  | cons item locker ih =>
    by_cases hoffered : offered type tier item = false
    · rw [filter_offered_neg hoffered] at hgives ⊢
      obtain ⟨hended, hcount, hsub⟩ := ih (r := r) hgives
      rw [removeItems_skip hoffered]
      refine ⟨hended, ?_, hsub⟩
      simp only [LoopEnd.behind, Option.toList_some, List.singleton_append, lockerCount_cons] at hcount ⊢
      omega
    have hoffered' : offered type tier item = true := by simpa using hoffered
    have hunits : unitsOf type tier item = 1 := by simp [unitsOf, hoffered', hstack]
    rw [filter_offered_pos hoffered'] at hgives ⊢
    unfold considered at hgives ⊢
    unfold removeItems
    rw [if_neg hoffered, if_neg (show ¬ type.stackable = true by simp [hstack])]
    dsimp only
    by_cases hmany : count + item.count.toNat > amount.toNat
    · rw [if_pos hmany, if_pos hmany]
      exact ⟨by simp, rfl, fun _ d hd => absurd hd List.not_mem_nil⟩
    rw [if_neg hmany] at hgives ⊢
    rw [if_neg hmany]
    have hiff := internalRemoveItem_eq_none item false le_rfl
      (by rw [← UInt8.toNat_inj, UInt8.toNat_zero])
    cases hremove : internalRemoveItem false item item.count.toNat with
    | none => exact absurd (hiff.1 hremove) (hgives item List.mem_cons_self)
    | some left =>
      obtain rfl := internalRemoveItem_whole hremove
      obtain ⟨hended, hcount, hsub⟩ := ih (r := r - 1) fun x hx => hgives x (List.mem_cons_of_mem _ hx)
      refine ⟨?_, ?_, ?_⟩
      · refine hended.trans (congrArg some ?_)
        rw [List.length_cons, UInt16.ofNat_add]
        grind
      · simp only [LoopEnd.behind, Option.toList_none, List.nil_append, List.length_cons,
          lockerCount_cons] at hcount ⊢
        omega
      · intro hn
        rw [List.length_cons] at hn
        have hone : (r - 1).toNat = r.toNat - 1 := toNat_sub_min r (by omega : 1 ≤ r.toNat)
        refine List.forall_mem_append.2 ⟨fun d hd => ?_, hsub (by omega)⟩
        obtain rfl := List.mem_singleton.1 hd
        dsimp only
        omega

/-- **The loop over items that do not stack fails** at one that is refused. -/
theorem removeItems_refused (hstack : type.stackable = false)
    (hrefuses : ¬ ∀ item ∈ considered amount.toNat count (locker.filter (offered type tier)), ¬ Refuses item) :
    (removeItems type tier amount r count locker).removeAmount = none := by
  induction locker generalizing r count with
  | nil => exact absurd (fun x hx => absurd hx List.not_mem_nil) hrefuses
  | cons item locker ih =>
    by_cases hoffered : offered type tier item = false
    · rw [filter_offered_neg hoffered] at hrefuses
      rw [removeItems_skip hoffered]
      exact ih hrefuses
    have hoffered' : offered type tier item = true := by simpa using hoffered
    rw [filter_offered_pos hoffered'] at hrefuses
    unfold considered at hrefuses
    unfold removeItems
    rw [if_neg hoffered, if_neg (show ¬ type.stackable = true by simp [hstack])]
    dsimp only
    by_cases hmany : count + item.count.toNat > amount.toNat
    · rw [if_pos hmany] at hrefuses
      exact absurd (fun x hx => absurd hx List.not_mem_nil) hrefuses
    rw [if_neg hmany] at hrefuses ⊢
    have hiff := internalRemoveItem_eq_none item false le_rfl
      (by rw [← UInt8.toNat_inj, UInt8.toNat_zero])
    cases hremove : internalRemoveItem false item item.count.toNat with
    | none => rfl
    | some left =>
      have hgives : ¬ Refuses item := fun h => by simp [hiff.2 h] at hremove
      refine ih fun h => hrefuses fun x hx => ?_
      rcases List.mem_cons.1 hx with rfl | hx
      · exact hgives
      · exact h x hx

/-- **The locker gives what is missing** when it provides it. -/
theorem removeLockerItems_provides (stashItems : List (ℕ × ℕ)) (hr : 0 < r.toNat)
    (h : Provides type amount tier r.toNat locker) :
    let e := removeLockerItems type tier amount r stashItems locker
    e.success = true ∧ e.stashItems = stashItems ∧
      lockerCount type tier e.locker + r.toNat = lockerCount type tier locker ∧
      ∀ d ∈ e.subtractions, d.2 ≤ d.1.toNat := by
  obtain ⟨hlength, hsuffices⟩ := h
  have hne : (locker.filter (offered type tier)).length ≠ 0 := fun hzero => hlength (by rw [hzero, Nat.zero_mod])
  have hpos : r > 0 := UInt16.lt_iff_toNat_lt.2 hr
  have hloop : (removeItems type tier amount r 0 locker).removeAmount = some 0 ∧
      lockerCount type tier (removeItems type tier amount r 0 locker).locker + r.toNat =
        lockerCount type tier locker ∧
      ∀ d ∈ (removeItems type tier amount r 0 locker).subtractions, d.2 ≤ d.1.toNat := by
    unfold Suffices at hsuffices
    split_ifs at hsuffices with hstack
    · obtain ⟨hended, hcount⟩ := removeItems_covers amount 0 hstack hr hsuffices
      exact ⟨hended, hcount, removeItems_subtracts hstack⟩
    · obtain ⟨hgives, hmany⟩ := hsuffices
      obtain ⟨hended, hcount, hsub⟩ := removeItems_considered (r := r) (by simpa using hstack) hgives
      rw [hmany] at hended hcount hsub
      rw [UInt16.ofNat_toNat, UInt16.sub_self] at hended
      exact ⟨hended, hcount, hsub le_rfl⟩
  obtain ⟨hended, hcount, hsub⟩ := hloop
  unfold removeLockerItems
  dsimp only
  rw [if_pos hpos, if_neg (not_or.2 ⟨hlength, hne⟩), hended]
  exact ⟨rfl, rfl, hcount, hsub⟩

/-- **The locker refuses** when it does not provide what is missing, and is left as it was only when
the first item stops the loop. -/
theorem removeLockerItems_refuses (stashItems : List (ℕ × ℕ)) (hr : 0 < r.toNat)
    (hle : r.toNat ≤ amount.toNat) (h : ¬ Provides type amount tier r.toNat locker) :
    let e := removeLockerItems type tier amount r stashItems locker
    let items := locker.filter (offered type tier)
    e.success = false ∧ e.stashItems = stashItems ∧
      (e.locker = locker ↔ items.length % 2 ^ 16 = 0 ∨ StopsAtOnce type amount.toNat items) ∧
      (e.locker = locker → ∀ d ∈ e.subtractions, d.2 ≤ d.1.toNat) := by
  have hpos : r > 0 := UInt16.lt_iff_toNat_lt.2 hr
  unfold removeLockerItems
  dsimp only
  rw [if_pos hpos]
  by_cases hlength : (locker.filter (offered type tier)).length % 2 ^ 16 = 0
  · rw [if_pos (Or.inl hlength)]
    exact ⟨rfl, rfl, iff_of_true rfl (Or.inl hlength), fun _ d hd => absurd hd List.not_mem_nil⟩
  have hne : (locker.filter (offered type tier)).length ≠ 0 := fun hzero => hlength (by rw [hzero, Nat.zero_mod])
  have hsuffices : ¬ Suffices type amount.toNat r.toNat (locker.filter (offered type tier)) :=
    fun hs => h ⟨hlength, hs⟩
  have hfails : ∀ left, (removeItems type tier amount r 0 locker).removeAmount = some left → left > 0 := by
    intro left hleft
    rw [gt_iff_lt, UInt16.lt_iff_toNat_lt]
    unfold Suffices at hsuffices
    split_ifs at hsuffices with hstack
    · exact removeItems_not_covers hstack hr hsuffices left hleft
    · have hsingle : type.stackable = false := by simpa using hstack
      by_cases hgives : ∀ item ∈ considered amount.toNat 0 (locker.filter (offered type tier)),
          ¬ Refuses item
      · obtain ⟨hended, -, -⟩ := removeItems_considered (r := r) hsingle hgives
        have hmany := length_considered_le (Nat.zero_le _) hgives
        obtain rfl := Option.some.inj (hended.symm.trans hleft)
        have hlt := amount.toNat_lt
        refine Nat.pos_of_ne_zero fun hzero => hsuffices ⟨hgives, ?_⟩
        have hsame : r = UInt16.ofNat
            (considered amount.toNat 0 (locker.filter (offered type tier))).length := by
          have hz : r - UInt16.ofNat
              (considered amount.toNat 0 (locker.filter (offered type tier))).length = 0 :=
            UInt16.toNat_inj.1 hzero
          grind
        rw [hsame, UInt16.toNat_ofNat', Nat.mod_eq_of_lt (by omega)]
      · rw [removeItems_refused hsingle hgives] at hleft
        exact nomatch hleft
  rw [if_neg (not_or.2 ⟨hlength, hne⟩)]
  have hiff := @removeItems_unchanged_iff type tier amount r 0 locker hr rfl
  have hsub : (removeItems type tier amount r 0 locker).locker = locker →
      ∀ d ∈ (removeItems type tier amount r 0 locker).subtractions, d.2 ≤ d.1.toNat := by
    intro hsame
    cases hstack : type.stackable with
    | true => exact removeItems_subtracts hstack
    | false =>
      rw [removeItems_stops hstack (hiff.1 hsame)]
      exact fun d hd => absurd hd List.not_mem_nil
  cases hended : (removeItems type tier amount r 0 locker).removeAmount with
  | none => exact ⟨rfl, rfl, hiff.trans ⟨Or.inr, fun h => h.resolve_left hlength⟩, hsub⟩
  | some left =>
    dsimp only
    rw [if_pos (hfails left hended)]
    exact ⟨rfl, rfl, hiff.trans ⟨Or.inr, fun h => h.resolve_left hlength⟩, hsub⟩

/-- What the stash has can be taken out. -/
theorem exists_withdrawItem {stashItems : List (ℕ × ℕ)} {id n : ℕ} (hpos : 0 < stashCount stashItems id)
    (h : n ≤ stashCount stashItems id) : ∃ left, withdrawItem stashItems id n = some left := by
  unfold stashCount at hpos h
  unfold withdrawItem
  cases hget : Assoc.get stashItems id with
  | none => simp [hget] at hpos
  | some m =>
    simp only [hget, Option.getD_some] at h
    dsimp only
    split_ifs with hmore hall
    · exact ⟨_, rfl⟩
    · exact ⟨_, rfl⟩
    · omega

end Proofs

/-! ## Exact calls -/

/-- The stash has enough, or the locker makes up for what it lacks, or the stash has nothing, the
locker too few, and the first item stops the loop. -/
def ServesExactly (type : OfferType) (amount : UInt16) (tier : ℕ) (stashItems : List (ℕ × ℕ))
    (locker : List LockerItem) : Prop :=
  let items := locker.filter (offered type tier)
  let stashItemCount := stashCount stashItems type.wareId
  amount.toNat ≤ stashItemCount ∨ Provides type amount tier (amount.toNat - stashItemCount) locker ∨
    stashItemCount = 0 ∧ lockerCount type tier locker < amount.toNat ∧
      (items.length % 2 ^ 16 = 0 ∨ StopsAtOnce type amount.toNat items)

section Cases

variable {type : OfferType} {amount : UInt16} {tier : ℕ} {stashItems : List (ℕ × ℕ)} {locker : List LockerItem}

/-- With nothing in the stash all comes from the locker. -/
theorem takesAmount_noStash (hpos : 0 < amount.toNat) (hempty : stashCount stashItems type.wareId = 0) :
    TakesAmount type amount tier stashItems locker (removeOfferItems type amount tier stashItems locker) ↔
      ServesExactly type amount tier stashItems locker := by
  unfold removeOfferItems ServesExactly
  dsimp only
  rw [if_neg (by omega), hempty, Nat.sub_zero]
  by_cases hprovides : Provides type amount tier amount.toNat locker
  · obtain ⟨hsuccess, hstash, hlocker, hsub⟩ :=
      removeLockerItems_provides stashItems hpos hprovides
    refine iff_of_true ⟨?_, fun _ => ?_, fun _ => ?_, ?_, hsub⟩ (Or.inr (Or.inl hprovides))
    · rw [hsuccess]
      exact iff_of_true rfl (by omega)
    · rw [hstash, hempty]
      simp
    · rw [hempty]
      exact hlocker
    · rw [hsuccess]
      exact fun h => nomatch h
  · obtain ⟨hfails, hstash, hlocker, hsub⟩ :=
      removeLockerItems_refuses stashItems hpos le_rfl hprovides
    constructor
    · intro h
      have hshort : ¬ amount.toNat ≤ stashCount stashItems type.wareId + lockerCount type tier locker :=
        fun hle => by simp [h.succeeds.2 hle] at hfails
      exact Or.inr (Or.inr ⟨rfl, by omega, hlocker.1 (h.unchanged hfails).2⟩)
    · rintro (h | h | ⟨-, hshort, hstops⟩)
      · omega
      · exact absurd h hprovides
      · refine ⟨?_, ?_, ?_, fun _ => ⟨hstash, hlocker.2 hstops⟩, hsub (hlocker.2 hstops)⟩
        all_goals rw [hfails]
        · exact iff_of_false (fun h => nomatch h) (by omega)
        · exact fun h => nomatch h
        · exact fun h => nomatch h

/-- When the stash has too few, all of it goes, and the rest comes from the locker. -/
theorem takesAmount_lessStash (hstash : 0 < stashCount stashItems type.wareId)
    (hmore : stashCount stashItems type.wareId < amount.toNat) :
    TakesAmount type amount tier stashItems locker (removeOfferItems type amount tier stashItems locker) ↔
      ServesExactly type amount tier stashItems locker := by
  obtain ⟨left, hleft⟩ := exists_withdrawItem hstash le_rfl
  have hcount := stashCount_withdrawItem hleft
  have hr := toNat_sub_min amount hmore.le
  unfold removeOfferItems ServesExactly
  dsimp only
  rw [if_pos hstash, if_pos hmore, hleft]
  dsimp only
  rw [← hr]
  by_cases hprovides : Provides type amount tier
      (amount - UInt16.ofNat (stashCount stashItems type.wareId)).toNat locker
  · obtain ⟨hsuccess, hstash', hlocker, hsub⟩ :=
      removeLockerItems_provides left (by omega) hprovides
    refine iff_of_true ⟨?_, fun _ => ?_, fun _ => ?_, ?_, ?_⟩ (Or.inr (Or.inl hprovides))
    · dsimp only
      rw [hsuccess]
      exact iff_of_true rfl (by omega)
    · dsimp only
      rw [hstash']
      omega
    · dsimp only
      omega
    · dsimp only
      rw [hsuccess]
      exact fun h => nomatch h
    · exact List.forall_mem_cons.2 ⟨hmore.le, hsub⟩
  · obtain ⟨hfails, hstash', -, -⟩ :=
      removeLockerItems_refuses left (by omega) (by omega) hprovides
    refine iff_of_false (fun h => ?_) ?_
    · have hsame := (h.unchanged hfails).1
      dsimp only at hsame
      rw [hstash'] at hsame
      rw [hsame] at hcount
      omega
    · rintro (h | h | ⟨h, -⟩)
      · omega
      · exact hprovides h
      · omega

/-- When the stash has enough, all comes from it. -/
theorem takesAmount_stash (hstash : 0 < stashCount stashItems type.wareId)
    (henough : amount.toNat ≤ stashCount stashItems type.wareId) :
    TakesAmount type amount tier stashItems locker (removeOfferItems type amount tier stashItems locker) := by
  obtain ⟨left, hleft⟩ := exists_withdrawItem hstash henough
  have hcount := stashCount_withdrawItem hleft
  unfold removeOfferItems
  dsimp only
  rw [if_pos hstash, if_neg (not_lt.2 henough), hleft]
  refine ⟨?_, fun _ => ?_, fun _ => ?_, ?_, ?_⟩
  · exact iff_of_true rfl (by omega)
  · dsimp only [removeLockerItems]
    rw [if_neg (by decide)]
    dsimp only
    omega
  · dsimp only [removeLockerItems]
    rw [if_neg (by decide)]
    dsimp only
    omega
  · exact fun h => nomatch h
  · exact fun d hd => absurd hd List.not_mem_nil

end Cases

/-- An item of the type 5 that the market takes. -/
def lockerItem (count : UInt8) : LockerItem := ⟨5, 0, count, false, true, true, true⟩

end TiabloServer.Market
