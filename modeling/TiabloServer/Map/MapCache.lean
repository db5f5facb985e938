import TiabloServer.Lib.Interning

/-!
# The cache of map objects

`MapCache` (`map/mapcache.cpp`) keeps one object for all items and tiles of a map whose hashes are
equal. A hash combines the values that are not zero, in the order of the fields, without saying
which field a value comes from. How `hash_combine` mixes a sequence of values is a parameter.

## Main definitions

* `MapCache.run` — a run of calls of the caches.
* `MapCache.BasicItem.shape`, `MapCache.BasicTile.shape` — which fields are not zero.

## Main results

* `MapCache.BasicItem.eq_of_hashed_eq` — objects of the same shape with the same values are equal.
* `MapCache.run_faithful_iff` — the runs in which every object is returned as it was passed.
-/

namespace TiabloServer.MapCache

/-! ## Parsed objects -/

structure BasicItem where
  text : String
  id : UInt16
  charges : UInt16
  actionId : UInt16
  uniqueId : UInt16
  destX : UInt16
  destY : UInt16
  doorOrDepotId : UInt16
  destZ : UInt8
  items : List BasicItem

structure BasicTile where
  ground : Option BasicItem
  items : List BasicItem
  flags : UInt32
  houseId : UInt32
  type : UInt8
  isStatic : Bool

/-! ## Hashes -/

/-- A value that `hash_combine` is called with. -/
inductive Value where
  | num (v : ℕ)
  | text (v : String)
  deriving DecidableEq

/-- The numbers of a hash: those that are not zero. -/
def nonZero (arr : List ℕ) : List Value := (arr.filter fun v => 0 < v).map .num

/-- The `arr` of `BasicItem::hash`. -/
def BasicItem.arr (item : BasicItem) : List ℕ :=
  [item.id.toNat, item.charges.toNat, item.actionId.toNat, item.uniqueId.toNat, item.destX.toNat,
    item.destY.toNat, item.destZ.toNat, item.doorOrDepotId.toNat]

/-- The `arr` of `BasicTile::hash`. -/
def BasicTile.arr (tile : BasicTile) : List ℕ :=
  [tile.flags.toNat, tile.houseId.toNat, tile.type.toNat, tile.isStatic.toNat]

/-- The text of a hash, unless it is empty. -/
def nonEmptyText (text : String) : List Value := if text = "" then [] else [.text text]

mutual

/-- The values that `BasicItem::hash` combines. -/
def BasicItem.hashed : BasicItem → List Value
  | ⟨text, id, charges, actionId, uniqueId, destX, destY, doorOrDepotId, destZ, items⟩ =>
    nonZero (BasicItem.arr
        ⟨text, id, charges, actionId, uniqueId, destX, destY, doorOrDepotId, destZ, items⟩) ++
      (nonEmptyText text ++
        ((if items.isEmpty then [] else [.num items.length]) ++ hashedItems items))

/-- The values of nested items, one item after the other. -/
def hashedItems : List BasicItem → List Value
  | [] => []
  | item :: items => item.hashed ++ hashedItems items

end

/-- The values that `BasicTile::hash` combines. -/
def BasicTile.hashed (tile : BasicTile) : List Value :=
  nonZero tile.arr ++
    ((tile.ground.elim [] BasicItem.hashed) ++
      ((if tile.items.isEmpty then [] else [.num tile.items.length]) ++ hashedItems tile.items))

/-! ## Shapes -/

/-- Which fields of an item, and of its nested items, are not zero and not empty. -/
inductive Shape where
  | mk (numbers : List Bool) (text : Bool) (items : List Shape)

/-- Which of some numbers are not zero. -/
def nonZeros (arr : List ℕ) : List Bool := arr.map fun v => decide (0 < v)

mutual

/-- Which fields of an item are not zero. -/
def BasicItem.shape : BasicItem → Shape
  | ⟨text, id, charges, actionId, uniqueId, destX, destY, doorOrDepotId, destZ, items⟩ =>
    .mk (nonZeros (BasicItem.arr
      ⟨text, id, charges, actionId, uniqueId, destX, destY, doorOrDepotId, destZ, items⟩))
      (decide (text ≠ "")) (shapes items)

/-- The shapes of nested items. -/
def shapes : List BasicItem → List Shape
  | [] => []
  | item :: items => item.shape :: shapes items

end

/-- Which fields of a tile are not zero, and the shapes of its items. -/
def BasicTile.shape (tile : BasicTile) : List Bool × Option Shape × List Shape :=
  (nonZeros tile.arr, tile.ground.map BasicItem.shape, shapes tile.items)

/-- The same numbers are zero, and those that are not are the same. -/
theorem nonZero_cancel {l l' : List ℕ} {r r' : List Value} (hshape : nonZeros l = nonZeros l')
    (h : nonZero l ++ r = nonZero l' ++ r') : l = l' ∧ r = r' := by
  induction l generalizing l' with
  | nil =>
    cases l' with
    | nil => exact ⟨rfl, h⟩
    | cons v' l' => exact nomatch hshape
  | cons v l ih =>
    cases l' with
    | nil => exact nomatch hshape
    | cons v' l' =>
      rw [nonZeros, nonZeros, List.map_cons, List.map_cons, List.cons.injEq] at hshape
      obtain ⟨hsign, hrest⟩ := hshape
      have hsign' : 0 < v ↔ 0 < v' := decide_eq_decide.1 hsign
      by_cases hv : 0 < v
      · have hv' := hsign'.1 hv
        simp only [nonZero, List.filter_cons, hv, hv', decide_true, if_true, List.map_cons,
          List.cons_append, List.cons.injEq, Value.num.injEq] at h
        obtain ⟨rfl, rfl⟩ := ih hrest h.2
        exact ⟨by rw [h.1], rfl⟩
      · have hv' : ¬ 0 < v' := fun h' => hv (hsign'.2 h')
        simp only [nonZero, List.filter_cons, hv, hv', decide_false, Bool.false_eq_true,
          if_false] at h
        obtain ⟨rfl, rfl⟩ := ih hrest h
        exact ⟨by rw [show v = v' by omega], rfl⟩

theorem nonEmptyText_cancel {text text' : String} {r r' : List Value}
    (hshape : decide (text ≠ "") = decide (text' ≠ ""))
    (h : nonEmptyText text ++ r = nonEmptyText text' ++ r') : text = text' ∧ r = r' := by
  have hempty : text ≠ "" ↔ text' ≠ "" := decide_eq_decide.1 hshape
  rw [nonEmptyText, nonEmptyText] at h
  by_cases htext : text = ""
  · have htext' : text' = "" := by
      by_contra hne
      exact hempty.2 hne htext
    rw [if_pos htext, if_pos htext'] at h
    exact ⟨htext.trans htext'.symm, h⟩
  · rw [if_neg htext, if_neg (hempty.1 htext), List.singleton_append, List.singleton_append,
      List.cons.injEq, Value.text.injEq] at h
    exact h

/-- The numbers of an item are its fields. -/
theorem BasicItem.ext_of_arr {x y : BasicItem} (harr : x.arr = y.arr) (htext : x.text = y.text)
    (hitems : x.items = y.items) : x = y := by
  cases x
  cases y
  simp only [BasicItem.arr, List.cons.injEq, UInt16.toNat_inj, UInt8.toNat_inj, and_true] at harr
  simp only at htext hitems
  obtain ⟨rfl, rfl, rfl, rfl, rfl, rfl, rfl, rfl⟩ := harr
  subst htext hitems
  rfl

theorem BasicTile.ext_of_arr {x y : BasicTile} (harr : x.arr = y.arr) (hground : x.ground = y.ground)
    (hitems : x.items = y.items) : x = y := by
  cases x
  cases y
  simp only [BasicTile.arr, List.cons.injEq, UInt32.toNat_inj, UInt8.toNat_inj, and_true] at harr
  simp only at hground hitems
  obtain ⟨rfl, rfl, rfl, hstatic⟩ := harr
  subst hground hitems
  have hbool : ∀ a b : Bool, a.toNat = b.toNat → a = b := by decide
  rw [hbool _ _ hstatic]

theorem length_shapes (items : List BasicItem) : (shapes items).length = items.length := by
  induction items with
  | nil => rfl
  | cons item items ih => rw [shapes, List.length_cons, ih, List.length_cons]

/-- As many nested items are announced by the same number. -/
theorem length_cancel {items items' : List BasicItem} {r r' : List Value}
    (hshape : shapes items = shapes items')
    (h : ((if items.isEmpty then [] else [.num items.length]) ++ r : List Value) =
      (if items'.isEmpty then [] else [.num items'.length]) ++ r') : r = r' := by
  have hlength : items.length = items'.length := by
    rw [← length_shapes, hshape, length_shapes]
  have hempty : items.isEmpty = items'.isEmpty := by
    rw [Bool.eq_iff_iff, List.isEmpty_iff_length_eq_zero, List.isEmpty_iff_length_eq_zero, hlength]
  rw [hempty, hlength] at h
  exact List.append_cancel_left h

mutual

/-- **Values of the same shape** in front of other values determine the item and what follows. -/
theorem BasicItem.hashed_cancel : ∀ (x y : BasicItem) (r r' : List Value), x.shape = y.shape →
    x.hashed ++ r = y.hashed ++ r' → x = y ∧ r = r'
  | ⟨text, id, charges, actionId, uniqueId, destX, destY, doorOrDepotId, destZ, items⟩,
    ⟨text', id', charges', actionId', uniqueId', destX', destY', doorOrDepotId', destZ', items'⟩,
    r, r', hshape, h => by
    simp only [BasicItem.shape, Shape.mk.injEq] at hshape
    obtain ⟨hnumbers, hempty, hitems⟩ := hshape
    simp only [BasicItem.hashed, List.append_assoc] at h
    obtain ⟨harr, h⟩ := nonZero_cancel hnumbers h
    obtain ⟨htext, h⟩ := nonEmptyText_cancel hempty h
    obtain ⟨hitems', hrest⟩ := hashedItems_cancel items items' r r' hitems (length_cancel hitems h)
    exact ⟨BasicItem.ext_of_arr harr htext hitems', hrest⟩

theorem hashedItems_cancel : ∀ (xs ys : List BasicItem) (r r' : List Value), shapes xs = shapes ys →
    hashedItems xs ++ r = hashedItems ys ++ r' → xs = ys ∧ r = r'
  | [], [], _, _, _, h => ⟨rfl, h⟩
  | [], _ :: _, _, _, hshape, _ => nomatch hshape
  | _ :: _, [], _, _, hshape, _ => nomatch hshape
  | x :: xs, y :: ys, r, r', hshape, h => by
    simp only [shapes, List.cons.injEq] at hshape
    simp only [hashedItems, List.append_assoc] at h
    obtain ⟨rfl, hitems⟩ := BasicItem.hashed_cancel x y _ _ hshape.1 h
    obtain ⟨rfl, hrest⟩ := hashedItems_cancel xs ys r r' hshape.2 hitems
    exact ⟨rfl, hrest⟩

end

/-- **Items of the same shape** with the same values are equal. -/
theorem BasicItem.eq_of_hashed_eq {x y : BasicItem} (hshape : x.shape = y.shape)
    (h : x.hashed = y.hashed) : x = y :=
  (BasicItem.hashed_cancel x y [] [] hshape (by rw [h])).1

theorem BasicTile.eq_of_hashed_eq {x y : BasicTile} (hshape : x.shape = y.shape)
    (h : x.hashed = y.hashed) : x = y := by
  simp only [BasicTile.shape, Prod.mk.injEq] at hshape
  obtain ⟨hnumbers, hground, hitems⟩ := hshape
  rw [BasicTile.hashed, BasicTile.hashed] at h
  obtain ⟨harr, h⟩ := nonZero_cancel hnumbers h
  have hrest : x.ground = y.ground ∧ hashedItems x.items = hashedItems y.items := by
    cases hx : x.ground with
    | none =>
      rw [hx, Option.map_none] at hground
      have hy := Option.map_eq_none_iff.1 hground.symm
      rw [hx, hy] at h
      exact ⟨hy.symm, length_cancel hitems h⟩
    | some a =>
      rw [hx, Option.map_some] at hground
      obtain ⟨b, hy, hb⟩ := Option.map_eq_some_iff.1 hground.symm
      rw [hx, hy] at h
      obtain ⟨rfl, hrest⟩ := BasicItem.hashed_cancel a b _ _ hb.symm h
      exact ⟨hy.symm, length_cancel hitems hrest⟩
  exact BasicTile.ext_of_arr harr hrest.1
    (hashedItems_cancel x.items y.items [] [] hitems (by rw [hrest.2])).1

/-! ## The caches -/

section Caches

variable {κ : Type*} [DecidableEq κ] (combine : List Value → κ)

/-- The static `items` and `tiles`. -/
structure Caches (κ : Type*) where
  items : κ → Option BasicItem
  tiles : κ → Option BasicTile

/-- The caches after `flush`. -/
def Caches.flush : Caches κ := ⟨fun _ => none, fun _ => none⟩

/-- `BasicItem::hash`. -/
def BasicItem.hash (item : BasicItem) : κ := combine item.hashed

/-- `BasicTile::hash`. -/
def BasicTile.hash (tile : BasicTile) : κ := combine tile.hashed

/-- `static_tryGetItemFromCache`, for a reference that is not null. -/
def static_tryGetItemFromCache (caches : Caches κ) (ref : BasicItem) : BasicItem × Caches κ :=
  let (object, items) := Interning.tryEmplace caches.items (ref.hash combine) ref
  (object, { caches with items := items })

/-- `static_tryGetTileFromCache`, for a reference that is not null. -/
def static_tryGetTileFromCache (caches : Caches κ) (ref : BasicTile) : BasicTile × Caches κ :=
  let (object, tiles) := Interning.tryEmplace caches.tiles (ref.hash combine) ref
  (object, { caches with tiles := tiles })

/-- A call of one of the caches. -/
inductive Call where
  | item (ref : BasicItem)
  | tile (ref : BasicTile)

/-- What a call returns, and the caches after it. -/
def call (caches : Caches κ) : Call → Call × Caches κ
  | .item ref =>
    let (object, caches) := static_tryGetItemFromCache combine caches ref
    (.item object, caches)
  | .tile ref =>
    let (object, caches) := static_tryGetTileFromCache combine caches ref
    (.tile object, caches)

/-- What a run of calls returns, and the caches after it. -/
def run (caches : Caches κ) : List Call → List Call × Caches κ
  | [] => ([], caches)
  | c :: calls =>
    let (object, caches) := call combine caches c
    let (objects, caches) := run caches calls
    (object :: objects, caches)

/-- Two calls of one cache whose objects differ in which fields are zero have different values that
are not zero. -/
def Apart : Call → Call → Prop
  | .item x, .item y => x.hashed = y.hashed → x.shape = y.shape
  | .tile x, .tile y => x.hashed = y.hashed → x.shape = y.shape
  | _, _ => True

/-- Caches that keep what other caches have. -/
structure Caches.Extends (caches caches' : Caches κ) : Prop where
  items : Interning.Extends caches.items caches'.items
  tiles : Interning.Extends caches.tiles caches'.tiles

/-- Caches that have been filled by calls. -/
structure Caches.Filled (calls : List Call) (caches : Caches κ) : Prop where
  items : Interning.Filled (BasicItem.hash combine) {x | .item x ∈ calls} caches.items
  tiles : Interning.Filled (BasicTile.hash combine) {x | .tile x ∈ calls} caches.tiles

/-- What the caches have for the object of a call. -/
def Caches.lookup (caches : Caches κ) : Call → Option Call
  | .item x => (caches.items (x.hash combine)).map .item
  | .tile x => (caches.tiles (x.hash combine)).map .tile

variable {combine}

variable (combine) in
theorem extends_call (caches : Caches κ) (c : Call) : caches.Extends (call combine caches c).2 := by
  cases c with
  | item ref => exact ⟨Interning.extends_tryEmplace _ _ _, Interning.extends_refl _⟩
  | tile ref => exact ⟨Interning.extends_refl _, Interning.extends_tryEmplace _ _ _⟩

omit [DecidableEq κ] in
theorem Caches.Extends.lookup {caches caches' : Caches κ} (h : caches.Extends caches') {c d : Call}
    (hd : caches.lookup combine c = some d) : caches'.lookup combine c = some d := by
  cases c with
  | item x =>
    obtain ⟨y, hy, rfl⟩ := Option.map_eq_some_iff.1 hd
    exact Option.map_eq_some_iff.2 ⟨y, h.items _ _ hy, rfl⟩
  | tile x =>
    obtain ⟨y, hy, rfl⟩ := Option.map_eq_some_iff.1 hd
    exact Option.map_eq_some_iff.2 ⟨y, h.tiles _ _ hy, rfl⟩

/-- What a call returns is what the caches have for it from then on. -/
theorem lookup_call (caches : Caches κ) (c : Call) :
    (call combine caches c).2.lookup combine c = some (call combine caches c).1 := by
  cases c with
  | item ref => exact Option.map_eq_some_iff.2 ⟨_, Interning.tryEmplace_lookup _ _ _, rfl⟩
  | tile ref => exact Option.map_eq_some_iff.2 ⟨_, Interning.tryEmplace_lookup _ _ _, rfl⟩

variable (combine) in
theorem extends_run (caches : Caches κ) (calls : List Call) : caches.Extends (run combine caches calls).2 := by
  induction calls generalizing caches with
  | nil => exact ⟨Interning.extends_refl _, Interning.extends_refl _⟩
  | cons c calls ih =>
    have hstep := extends_call combine caches c
    have hrest := ih (call combine caches c).2
    exact ⟨hstep.items.trans hrest.items, hstep.tiles.trans hrest.tiles⟩

variable (combine) in
/-- **What a run returns** is what the caches have at its end. -/
theorem run_eq_lookup (caches : Caches κ) (calls : List Call) : (run combine caches calls).1.map some =
      calls.map ((run combine caches calls).2.lookup combine) := by
  induction calls generalizing caches with
  | nil => rfl
  | cons c calls ih =>
    have hlookup := (extends_run combine (call combine caches c).2 calls).lookup
      (lookup_call caches c)
    rw [List.map_cons, run, List.map_cons]
    exact congrArg₂ List.cons hlookup.symm (ih _)

theorem Caches.Filled.call {all : List Call} {caches : Caches κ} (h : caches.Filled combine all)
    {c : Call} (hc : c ∈ all) : (MapCache.call combine caches c).2.Filled combine all := by
  cases c with
  | item ref => exact ⟨h.items.tryEmplace hc, h.tiles⟩
  | tile ref => exact ⟨h.items, h.tiles.tryEmplace hc⟩

theorem Caches.Filled.run {all calls : List Call} {caches : Caches κ} (h : caches.Filled combine all)
    (hcalls : ∀ c ∈ calls, c ∈ all) : (MapCache.run combine caches calls).2.Filled combine all := by
  induction calls generalizing caches with
  | nil => exact h
  | cons c calls ih =>
    exact ih (h.call (hcalls c List.mem_cons_self)) fun d hd => hcalls d (List.mem_cons_of_mem c hd)

omit [DecidableEq κ] in
/-- What caches have for the object of a call, if it is apart from all calls, is the object. -/
theorem Caches.Filled.lookup_eq {all : List Call} {caches : Caches κ}
    (h : caches.Filled combine all) (hcombine : Function.Injective combine) {c d : Call}
    (hapart : ∀ c' ∈ all, Apart c c') (hd : caches.lookup combine c = some d) : d = c := by
  cases c with
  | item x =>
    obtain ⟨y, hy, rfl⟩ := Option.map_eq_some_iff.1 hd
    have hvalues := hcombine (h.items.key_eq _ _ hy)
    have hshape := hapart (.item y) (h.items.mem_seen _ _ hy) hvalues.symm
    rw [BasicItem.eq_of_hashed_eq hshape.symm hvalues]
  | tile x =>
    obtain ⟨y, hy, rfl⟩ := Option.map_eq_some_iff.1 hd
    have hvalues := hcombine (h.tiles.key_eq _ _ hy)
    have hshape := hapart (.tile y) (h.tiles.mem_seen _ _ hy) hvalues.symm
    rw [BasicTile.eq_of_hashed_eq hshape.symm hvalues]

omit [DecidableEq κ] in
/-- Objects that caches have for themselves are apart. -/
theorem apart_of_lookup {caches : Caches κ} {c d : Call} (hc : caches.lookup combine c = some c)
    (hd : caches.lookup combine d = some d) : Apart c d := by
  cases c with
  | item x =>
    cases d with
    | item y =>
      intro hvalues
      rw [Caches.lookup, BasicItem.hash] at hc hd
      rw [hvalues] at hc
      rw [Call.item.inj (Option.some.inj (hc.symm.trans hd))]
    | tile y => trivial
  | tile x =>
    cases d with
    | item y => trivial
    | tile y =>
      intro hvalues
      rw [Caches.lookup, BasicTile.hash] at hc hd
      rw [hvalues] at hc
      rw [Call.tile.inj (Option.some.inj (hc.symm.trans hd))]

/-- **Runs of the caches.** If `hash_combine` has no collisions, a run returns every object as it
was passed exactly if no two objects with the same values that are not zero differ in which fields
are zero. -/
theorem run_faithful_iff (hcombine : Function.Injective combine) (calls : List Call) :
    (run combine Caches.flush calls).1 = calls ↔ ∀ c ∈ calls, ∀ d ∈ calls, Apart c d := by
  have hreturned := run_eq_lookup combine Caches.flush calls
  have hfilled : (run combine Caches.flush calls).2.Filled combine calls :=
    Caches.Filled.run ⟨Interning.filled_empty, Interning.filled_empty⟩ fun _ hc => hc
  generalize run combine Caches.flush calls = result at hreturned hfilled ⊢
  constructor
  · intro hfaithful c hc d hd
    rw [hfaithful, List.map_inj_left] at hreturned
    exact apart_of_lookup (hreturned c hc).symm (hreturned d hd).symm
  · intro hapart
    have hall : ∀ c ∈ calls, result.2.lookup combine c = some c := by
      intro c hc
      have hmem : result.2.lookup combine c ∈ result.1.map some := by
        rw [hreturned]
        exact List.mem_map_of_mem hc
      obtain ⟨d, -, hd⟩ := List.mem_map.1 hmem
      rw [← hd, hfilled.lookup_eq hcombine (hapart c hc) hd.symm]
    rw [List.map_congr_left hall] at hreturned
    exact List.map_injective_iff.2 (Option.some_injective _) hreturned

end Caches

end TiabloServer.MapCache
