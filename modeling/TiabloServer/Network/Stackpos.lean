import TiabloServer.Map.Position

/-!
# Positions in the stack of a tile

A client is told of the things of a tile by `ProtocolGame::GetTileDescription`
(`server/network/protocol/protocolgame.cpp`), of ten at most, and later of changes by their position
in the stack, which `Tile::getStackposOfItem`, `Tile::getStackposOfCreature` and
`Tile::getClientIndexOfCreature` (`items/tile.cpp`) count. On the tile of the viewer, the
description makes room for the viewer.

## Main definitions

* `Stackpos.Agrees` — the positions are those in the description.
* `Stackpos.InReach` — the viewer is among the first ten things of the own tile.

## Main results

* `Stackpos.description_eq_take` — the description has the first ten things, with the viewer in
  reach.
* `Stackpos.mem_description_player` — a viewer is in the description of the own tile.
* `Stackpos.agrees_iff` — when the positions are those in the description.
-/

namespace TiabloServer.Stackpos

/-- Things that are written at most. -/
def MAX_THINGS : ℕ := 10

/-- What is written of a tile. -/
inductive Thing (ι κ : Type) where
  | item (item : ι)
  | creature (creature : κ)
deriving DecidableEq

/-- A tile with items `ι` and creatures `κ`. Items that are always on top are the first of its
items. -/
structure Tile (ι κ : Type) where
  position : Position
  ground : Option ι
  topItems : List ι
  downItems : List ι
  creatures : List κ
  isAlwaysOnTop : ι → Bool
  isAlwaysOnTop_top : ∀ i ∈ topItems, isAlwaysOnTop i = true
  isAlwaysOnTop_down : ∀ i ∈ downItems, isAlwaysOnTop i = false
  nodup_items : (ground.toList ++ topItems ++ downItems).Nodup
  nodup_creatures : creatures.Nodup

/-- A tile and a player who looks at it: a player is on the tile of its position, and sees
itself. -/
structure View (ι κ : Type) where
  tile : Tile ι κ
  player : κ
  position : Position
  canSeeCreature : κ → Bool
  canSee_player : canSeeCreature player = true
  mem_iff : player ∈ tile.creatures ↔ tile.position = position

section Functions

variable {ι κ : Type} [DecidableEq ι] [DecidableEq κ] (v : View ι κ)

/-- The tile is the one of the viewer. -/
def View.own : Bool := v.tile.position = v.position

/-- The items on top, with the count of things so far. There is no count behind them if ten are
written. -/
def writeTop : ℕ → List ι → List (Thing ι κ) × Option ℕ
  | count, [] => ([], some count)
  | count, i :: l =>
    if count + 1 = 9 ∧ v.own then ([.item i], some (count + 1))
    else if count + 1 = MAX_THINGS then ([.item i], none)
    else
      let rest := writeTop (count + 1) l
      (.item i :: rest.1, rest.2)

/-- The creatures. In the last place of the own tile stands the viewer, if it has not been written
before. -/
def writeCreatures : ℕ → Bool → List κ → List (Thing ι κ) × Option ℕ
  | count, _, [] => ([], some count)
  | count, playerAdded, c :: l =>
    if v.canSeeCreature c then
      let creature := if v.own ∧ count = 9 ∧ playerAdded = false then v.player else c
      if count + 1 = MAX_THINGS then ([.creature creature], none)
      else
        let rest := writeCreatures (count + 1) (playerAdded || creature == v.player) l
        (.creature creature :: rest.1, rest.2)
    else writeCreatures count playerAdded l

/-- The other items. -/
def writeDown : ℕ → List ι → List (Thing ι κ)
  | _, [] => []
  | count, i :: l => if count + 1 = MAX_THINGS then [.item i] else .item i :: writeDown (count + 1) l

/-- The things that `GetTileDescription` writes. -/
def getTileDescription : List (Thing ι κ) :=
  let top := writeTop v v.tile.ground.toList.length v.tile.topItems
  let ground := v.tile.ground.toList.map Thing.item ++ top.1
  match top.2 with
  | none => ground
  | some count =>
    let creatures := writeCreatures v count false v.tile.creatures.reverse
    match creatures.2 with
    | none => ground ++ creatures.1
    | some count => ground ++ creatures.1 ++ writeDown count v.tile.downItems

/-- A loop over items: the position of `item`, -1 if ten things come before, or the count of things
so far. -/
def findItem (item : ι) : ℕ → List ι → ℤ ⊕ ℕ
  | n, [] => .inr n
  | n, i :: l =>
    if i = item then .inl n else if n + 1 ≥ MAX_THINGS then .inl (-1) else findItem item (n + 1) l

/-- The loop over the creatures below an item. -/
def countCreatures : ℕ → List κ → Option ℕ
  | n, [] => some n
  | n, c :: l =>
    if v.canSeeCreature c then if n + 1 ≥ MAX_THINGS then none else countCreatures (n + 1) l
    else countCreatures n l

/-- The items on top, for `getStackposOfItem`: only those that are always on top are looked for. -/
def findTop (item : ι) (n : ℕ) : ℤ ⊕ ℕ :=
  if v.tile.isAlwaysOnTop item then findItem item n v.tile.topItems
  else if n + v.tile.topItems.length ≥ MAX_THINGS then .inl (-1)
  else .inr (n + v.tile.topItems.length)

/-- The other items, for `getStackposOfItem`. -/
def findDown (item : ι) (n : ℕ) : ℤ :=
  if v.tile.isAlwaysOnTop item then -1
  else
    match findItem item n v.tile.downItems with
    | .inl n => n
    | .inr _ => -1

def getStackposOfItem (item : ι) : ℤ :=
  if v.tile.ground = some item then 0
  else
    match findTop v item v.tile.ground.toList.length with
    | .inl n => n
    | .inr n =>
      match countCreatures v n v.tile.creatures with
      | none => -1
      | some n => findDown v item n

/-- The loop over creatures of `getStackposOfCreature`. -/
def findCreature (creature : κ) : ℕ → List κ → ℤ
  | _, [] => -1
  | n, c :: l =>
    if c = creature then n
    else if v.canSeeCreature c then if n + 1 ≥ MAX_THINGS then -1 else findCreature creature (n + 1) l
    else findCreature creature n l

def getStackposOfCreature (creature : κ) : ℤ :=
  let n := v.tile.ground.toList.length + v.tile.topItems.length
  if n ≥ MAX_THINGS then -1 else findCreature v creature n v.tile.creatures.reverse

/-- The loop over creatures of `getClientIndexOfCreature`. -/
def clientIndex (creature : κ) : ℕ → List κ → ℤ
  | _, [] => -1
  | n, c :: l =>
    if c = creature then n
    else if v.canSeeCreature c then clientIndex creature (n + 1) l
    else clientIndex creature n l

def getClientIndexOfCreature (creature : κ) : ℤ :=
  clientIndex v creature (v.tile.ground.toList.length + v.tile.topItems.length) v.tile.creatures.reverse

/-! ## What the positions should be -/

/-- The creatures that the viewer sees, in the order in which they are written. -/
def View.visible : List κ := v.tile.creatures.reverse.filter fun c => v.canSeeCreature c

/-- All things that the viewer would see if there were no limit, in the order in which they are
written. -/
def View.things : List (Thing ι κ) :=
  (v.tile.ground.toList ++ v.tile.topItems).map .item ++ v.visible.map .creature ++
    v.tile.downItems.map .item

/-- A position is the one of a thing in the description: it is counted if the thing is written
there, and it is -1 if the thing is not written. -/
def IsPosition (description : List (Thing ι κ)) (thing : Thing ι κ) (position : ℤ) : Prop :=
  (∀ k : ℕ, position = k ↔ description[k]? = some thing) ∧ (position = -1 ↔ thing ∉ description)

/-- The same for a position without a limit, which is ten at least if the thing is not written. -/
def IsIndex (description : List (Thing ι κ)) (thing : Thing ι κ) (position : ℤ) : Prop :=
  (∀ k : ℕ, k < MAX_THINGS → (position = k ↔ description[k]? = some thing)) ∧
    (position ≥ MAX_THINGS ↔ thing ∉ description)

/-- **The positions are those in the description**, which has ten things at most and, on the own
tile, the viewer. -/
structure Agrees : Prop where
  item : ∀ i ∈ v.tile.ground.toList ++ v.tile.topItems ++ v.tile.downItems,
    IsPosition (getTileDescription v) (.item i) (getStackposOfItem v i)
  creature : ∀ c ∈ v.tile.creatures, v.canSeeCreature c = true →
    IsPosition (getTileDescription v) (.creature c) (getStackposOfCreature v c)
  client : ∀ c ∈ v.tile.creatures, v.canSeeCreature c = true →
    IsIndex (getTileDescription v) (.creature c) (getClientIndexOfCreature v c)
  length_le : (getTileDescription v).length ≤ MAX_THINGS
  player_mem : v.tile.position = v.position → .creature v.player ∈ getTileDescription v

/-- On the own tile the viewer is among the first ten things. -/
def InReach : Prop :=
  v.tile.position = v.position → v.things.idxOf (.creature v.player) < MAX_THINGS

end Functions

/-! ## Lists -/

section Lists

variable {α β : Type} [DecidableEq α] [DecidableEq β]

theorem idxOf_map {f : α → β} (hf : Function.Injective f) (a : α) (l : List α) :
    (l.map f).idxOf (f a) = l.idxOf a := by
  induction l with
  | nil => rfl
  | cons b l ih =>
    rw [List.map_cons, List.idxOf_cons, List.idxOf_cons, ih]
    by_cases h : b = a
    · rw [h, beq_self_eq_true, beq_self_eq_true]
    · rw [beq_false_of_ne h, beq_false_of_ne (hf.ne h)]

/-- Where an element stands in the first elements of a list. -/
theorem getElem?_take_eq_some_iff {l : List α} (hl : l.Nodup) {a : α} (ha : a ∈ l) (n k : ℕ) :
    (l.take n)[k]? = some a ↔ l.idxOf a = k ∧ k < n := by
  rw [List.getElem?_take]
  split_ifs with hk
  · constructor
    · intro h
      obtain ⟨hlt, rfl⟩ := List.getElem?_eq_some_iff.1 h
      exact ⟨hl.idxOf_getElem k hlt, hk⟩
    · rintro ⟨rfl, -⟩
      exact List.getElem?_idxOf ha
  · exact iff_of_false (by simp) fun h => hk h.2

theorem mem_take_iff {l : List α} (hl : l.Nodup) {a : α} (ha : a ∈ l) (n : ℕ) : a ∈ l.take n ↔ l.idxOf a < n := by
  rw [List.mem_iff_getElem?]
  constructor
  · rintro ⟨k, hk⟩
    obtain ⟨rfl, hlt⟩ := (getElem?_take_eq_some_iff hl ha n k).1 hk
    exact hlt
  · intro hlt
    exact ⟨l.idxOf a, (getElem?_take_eq_some_iff hl ha n _).2 ⟨rfl, hlt⟩⟩

end Lists

section Positions

variable {ι κ : Type} [DecidableEq ι] [DecidableEq κ] {v : View ι κ}

/-- A position up to the limit. -/
def limited (n : ℕ) : ℤ := if n < MAX_THINGS then n else -1

theorem isPosition_limited {l : List (Thing ι κ)} (hl : l.Nodup) {thing : Thing ι κ} (h : thing ∈ l) :
    IsPosition (l.take MAX_THINGS) thing (limited (l.idxOf thing)) := by
  rw [limited, IsPosition, mem_take_iff hl h]
  simp only [getElem?_take_eq_some_iff hl h]
  by_cases hlt : l.idxOf thing < MAX_THINGS
  · rw [if_pos hlt]
    refine ⟨fun k => ?_, iff_of_false (by omega) (not_not_intro hlt)⟩
    rw [Int.natCast_inj]
    exact ⟨fun heq => ⟨heq, heq ▸ hlt⟩, fun h => h.1⟩
  · rw [if_neg hlt]
    refine ⟨fun k => iff_of_false (by omega) ?_, iff_of_true rfl hlt⟩
    rintro ⟨rfl, hk⟩
    exact hlt hk

theorem isIndex_idxOf {l : List (Thing ι κ)} (hl : l.Nodup) {thing : Thing ι κ} (h : thing ∈ l) :
    IsIndex (l.take MAX_THINGS) thing (l.idxOf thing) := by
  rw [IsIndex, mem_take_iff hl h]
  simp only [getElem?_take_eq_some_iff hl h]
  constructor
  · intro k hk
    omega
  · omega

end Positions

/-! ## The loops -/

section Loops

variable {ι κ : Type} {v : View ι κ}

theorem length_ground_le (v : View ι κ) : v.tile.ground.toList.length ≤ 1 := by
  cases v.tile.ground with
  | none => exact Nat.zero_le _
  | some i => exact le_refl _

theorem own_iff : v.own = true ↔ v.tile.position = v.position := decide_eq_true_iff

theorem nodup_things (v : View ι κ) : v.things.Nodup := by
  have hitems := v.tile.nodup_items
  have hvisible : v.visible.Nodup := (List.nodup_reverse.2 v.tile.nodup_creatures).filter _
  have hitem : Function.Injective (Thing.item : ι → Thing ι κ) := fun _ _ h => Thing.item.inj h
  have hcreature : Function.Injective (Thing.creature : κ → Thing ι κ) := fun _ _ h => Thing.creature.inj h
  rw [List.nodup_append] at hitems
  obtain ⟨htop, hdown, hdisjoint⟩ := hitems
  refine List.Nodup.append (List.Nodup.append (htop.map hitem) (hvisible.map hcreature) ?_)
    (hdown.map hitem) ?_
  · intro thing h h'
    obtain ⟨i, -, rfl⟩ := List.mem_map.1 h
    obtain ⟨c, -, heq⟩ := List.mem_map.1 h'
    cases heq
  · intro thing h h'
    obtain ⟨i, hi, rfl⟩ := List.mem_map.1 h'
    rcases List.mem_append.1 h with h | h
    · obtain ⟨i', hi', heq⟩ := List.mem_map.1 h
      exact hdisjoint i' hi' i hi (hitem heq)
    · obtain ⟨c, -, heq⟩ := List.mem_map.1 h
      cases heq

theorem countCreatures_eq (l : List κ) {n : ℕ} (hn : n < MAX_THINGS) :
    countCreatures v n l =
      if n + (l.filter fun c => v.canSeeCreature c).length < MAX_THINGS then
        some (n + (l.filter fun c => v.canSeeCreature c).length)
      else none := by
  induction l generalizing n with
  | nil => rw [countCreatures, List.filter_nil, List.length_nil, Nat.add_zero, if_pos hn]
  | cons c l ih =>
    rw [countCreatures, List.filter_cons]
    by_cases hsee : v.canSeeCreature c = true
    · rw [if_pos hsee, if_pos hsee, List.length_cons]
      split_ifs with hfull hlt hlt
      · omega
      · rfl
      · rw [ih (Nat.lt_of_not_le hfull), if_pos (by omega)]
        congr 1
        omega
      · rw [ih (Nat.lt_of_not_le hfull), if_neg (by omega)]
    · rw [if_neg hsee, if_neg hsee, ih hn]

theorem writeTop_eq (l : List ι) {n : ℕ} (hn : n < MAX_THINGS)
    (hown : v.own = true → n + l.length < MAX_THINGS) :
    writeTop v n l = ((l.take (MAX_THINGS - n)).map .item,
      if n + l.length < MAX_THINGS then some (n + l.length) else none) := by
  induction l generalizing n with
  | nil => rw [writeTop, List.take_nil, List.map_nil, List.length_nil, Nat.add_zero, if_pos hn]
  | cons i l ih =>
    rw [List.length_cons] at hown ⊢
    obtain ⟨m, hm⟩ : ∃ m, MAX_THINGS - n = m + 1 := ⟨MAX_THINGS - n - 1, by omega⟩
    have hm' : MAX_THINGS - (n + 1) = m := by omega
    rw [writeTop, hm, List.take_succ_cons, List.map_cons]
    by_cases hlast : n + 1 = 9 ∧ v.own = true
    · have hlimit := hown hlast.2
      obtain rfl : l = [] := List.eq_nil_of_length_eq_zero (by rw [MAX_THINGS] at hlimit; omega)
      rw [if_pos hlast, if_pos hlimit, List.take_nil]
      rfl
    · rw [if_neg hlast]
      by_cases hfull : n + 1 = MAX_THINGS
      · obtain rfl : m = 0 := by omega
        rw [if_pos hfull, if_neg (by omega)]
        rfl
      · have hnext := ih (n := n + 1) (by omega) fun h => by have := hown h; omega
        rw [if_neg hfull, hnext, hm']
        dsimp only
        rw [Nat.add_assoc, Nat.add_comm 1 l.length]

/-- On the own tile the items on top leave a place. -/
theorem writeTop_own (hown : v.own = true) (l : List ι) {n : ℕ} (hn : n + 1 < MAX_THINGS) :
    ∃ count, (writeTop v n l).2 = some count ∧ count < MAX_THINGS := by
  induction l generalizing n with
  | nil => exact ⟨n, rfl, by omega⟩
  | cons i l ih =>
    rw [writeTop]
    split_ifs with hlast hfull
    · exact ⟨n + 1, rfl, hn⟩
    · omega
    · have hne : n + 1 ≠ 9 := fun h => hlast ⟨h, hown⟩
      rw [MAX_THINGS] at hn
      exact ih (by rw [MAX_THINGS]; omega)

theorem writeDown_eq (l : List ι) {n : ℕ} (hn : n < MAX_THINGS) :
    writeDown (κ := κ) n l = (l.take (MAX_THINGS - n)).map .item := by
  induction l generalizing n with
  | nil => rw [writeDown, List.take_nil, List.map_nil]
  | cons i l ih =>
    obtain ⟨m, hm⟩ : ∃ m, MAX_THINGS - n = m + 1 := ⟨MAX_THINGS - n - 1, by omega⟩
    rw [writeDown, hm, List.take_succ_cons, List.map_cons]
    split_ifs with hfull
    · obtain rfl : m = 0 := by omega
      rfl
    · rw [ih (by omega), show MAX_THINGS - (n + 1) = m by omega]

theorem player_mem_visible (hown : v.own = true) : v.player ∈ v.visible := by
  rw [View.visible, List.mem_filter, List.mem_reverse]
  exact ⟨v.mem_iff.2 (own_iff.1 hown), v.canSee_player⟩

theorem length_visible (v : View ι κ) :
    v.visible.length = (v.tile.creatures.filter fun c => v.canSeeCreature c).length := by
  rw [View.visible, List.filter_reverse, List.length_reverse]

theorem mem_things_item {i : ι} (h : i ∈ v.tile.ground.toList ++ v.tile.topItems ++ v.tile.downItems) :
    .item i ∈ v.things := by
  rw [View.things]
  rcases List.mem_append.1 h with htop | hdown
  · exact List.mem_append_left _ (List.mem_append_left _ (List.mem_map_of_mem htop))
  · exact List.mem_append_right _ (List.mem_map_of_mem hdown)

theorem mem_things_creature {c : κ} (h : c ∈ v.tile.creatures) (hsee : v.canSeeCreature c = true) :
    .creature c ∈ v.things := by
  have hvisible : c ∈ v.visible := List.mem_filter.2 ⟨List.mem_reverse.2 h, hsee⟩
  rw [View.things]
  exact List.mem_append_left _ (List.mem_append_right _ (List.mem_map_of_mem hvisible))

variable [DecidableEq κ]

theorem findCreature_eq {creature : κ} (hsee : v.canSeeCreature creature = true) {l : List κ}
    (h : creature ∈ l) {n : ℕ} (hn : n < MAX_THINGS) : findCreature v creature n l =
      limited (n + (l.filter fun c => v.canSeeCreature c).idxOf creature) := by
  induction l generalizing n with
  | nil => cases h
  | cons c l ih =>
    rw [findCreature, List.filter_cons]
    by_cases hc : c = creature
    · rw [if_pos hc, hc, if_pos hsee, List.idxOf_cons_self, Nat.add_zero, limited, if_pos hn]
    · have hmem : creature ∈ l := (List.mem_cons.1 h).resolve_left (Ne.symm hc)
      rw [if_neg hc]
      by_cases hsees : v.canSeeCreature c = true
      · rw [if_pos hsees, if_pos hsees, List.idxOf_cons_ne _ hc]
        split_ifs with hfull
        · rw [limited, if_neg (by omega)]
        · rw [ih hmem (Nat.lt_of_not_le hfull), Nat.succ_eq_add_one]
          congr 1
          omega
      · rw [if_neg hsees, if_neg hsees, ih hmem hn]

theorem clientIndex_eq {creature : κ} (hsee : v.canSeeCreature creature = true) {l : List κ}
    (h : creature ∈ l) (n : ℕ) : clientIndex v creature n l =
      (n + (l.filter fun c => v.canSeeCreature c).idxOf creature : ℕ) := by
  induction l generalizing n with
  | nil => cases h
  | cons c l ih =>
    rw [clientIndex, List.filter_cons]
    by_cases hc : c = creature
    · rw [if_pos hc, hc, if_pos hsee, List.idxOf_cons_self, Nat.add_zero]
    · have hmem : creature ∈ l := (List.mem_cons.1 h).resolve_left (Ne.symm hc)
      rw [if_neg hc]
      by_cases hsees : v.canSeeCreature c = true
      · rw [if_pos hsees, if_pos hsees, List.idxOf_cons_ne _ hc, ih hmem]
        congr 1
        omega
      · rw [if_neg hsees, if_neg hsees, ih hmem]

/-- Where the viewer need not take the place of another creature. -/
def NoExchange (v : View ι κ) (n : ℕ) (playerAdded : Bool) (l : List κ) : Prop :=
  v.own = true → playerAdded = false →
    n + (l.filter fun c => v.canSeeCreature c).idxOf v.player < MAX_THINGS

theorem NoExchange.next {n : ℕ} {playerAdded : Bool} {c : κ} {l : List κ}
    (h : v.own = true → playerAdded = false →
      n + (c :: l.filter fun c => v.canSeeCreature c).idxOf v.player < MAX_THINGS) :
    NoExchange v (n + 1) (playerAdded || c == v.player) l := by
  intro hown hadded
  rw [Bool.or_eq_false_iff, beq_eq_false_iff_ne] at hadded
  have hlimit := h hown hadded.1
  rw [List.idxOf_cons_ne _ hadded.2] at hlimit
  omega

theorem writeCreatures_eq {playerAdded : Bool} {l : List κ} {n : ℕ} (hn : n < MAX_THINGS)
    (h : NoExchange v n playerAdded l) :
    writeCreatures v n playerAdded l =
      (((l.filter fun c => v.canSeeCreature c).take (MAX_THINGS - n)).map .creature,
        if n + (l.filter fun c => v.canSeeCreature c).length < MAX_THINGS then
          some (n + (l.filter fun c => v.canSeeCreature c).length)
        else none) := by
  induction l generalizing n playerAdded with
  | nil =>
    rw [writeCreatures, List.filter_nil, List.take_nil, List.map_nil, List.length_nil, Nat.add_zero,
      if_pos hn]
  | cons c l ih =>
    rw [NoExchange, List.filter_cons] at h
    rw [writeCreatures, List.filter_cons]
    by_cases hsee : v.canSeeCreature c = true
    · rw [if_pos hsee] at h
      rw [if_pos hsee, if_pos hsee]
      have hsame : (if v.own = true ∧ n = 9 ∧ playerAdded = false then v.player else c) = c := by
        split_ifs with hlast
        · have hlimit := h hlast.1 hlast.2.2
          by_contra hne
          rw [List.idxOf_cons_ne _ (Ne.symm hne), hlast.2.1, MAX_THINGS] at hlimit
          omega
        · rfl
      obtain ⟨m, hm⟩ : ∃ m, MAX_THINGS - n = m + 1 := ⟨MAX_THINGS - n - 1, by omega⟩
      have hm' : MAX_THINGS - (n + 1) = m := by omega
      rw [hm, List.take_succ_cons, List.map_cons, List.length_cons]
      dsimp only
      rw [hsame]
      split_ifs with hfull hlt hlt
      · omega
      · obtain rfl : m = 0 := by omega
        rfl
      · rw [ih (by omega) (NoExchange.next h), hm']
        dsimp only
        rw [if_pos (by omega)]
        congr 2
        omega
      · rw [ih (by omega) (NoExchange.next h), hm']
        dsimp only
        rw [if_neg (by omega)]
    · rw [if_neg hsee] at h
      rw [if_neg hsee, if_neg hsee, ih hn h]

/-- On the own tile the viewer is written. -/
theorem writeCreatures_own (hown : v.own = true) {l : List κ} (h : v.player ∈ l) {n : ℕ}
    (hn : n < MAX_THINGS) : .creature v.player ∈ (writeCreatures v n false l).1 := by
  induction l generalizing n with
  | nil => cases h
  | cons c l ih =>
    rw [writeCreatures]
    by_cases hc : c = v.player
    · rw [hc, if_pos v.canSee_player, ite_self]
      dsimp only
      split_ifs
      · exact List.mem_singleton.2 rfl
      · exact List.mem_cons_self
    · have hmem : v.player ∈ l := (List.mem_cons.1 h).resolve_left (Ne.symm hc)
      by_cases hsee : v.canSeeCreature c = true
      · rw [if_pos hsee]
        dsimp only
        by_cases hlast : n = 9
        · have hplayer : (if v.own = true ∧ n = 9 ∧ false = false then v.player else c) = v.player :=
            if_pos ⟨hown, hlast, rfl⟩
          have hfull : n + 1 = MAX_THINGS := by rw [hlast, MAX_THINGS]
          rw [hplayer, if_pos hfull]
          exact List.mem_singleton.2 rfl
        · have hsame : (if v.own = true ∧ n = 9 ∧ false = false then v.player else c) = c :=
            if_neg fun h => hlast h.2.1
          have hroom : n + 1 ≠ MAX_THINGS := by rw [MAX_THINGS]; omega
          rw [hsame, if_neg hroom, beq_false_of_ne hc, Bool.false_or]
          exact List.mem_cons_of_mem _ (ih hmem (by omega))
      · rw [if_neg hsee]
        exact ih hmem hn

/-- **A viewer** is in the description of the own tile. -/
theorem mem_description_player (hown : v.own = true) : .creature v.player ∈ getTileDescription v := by
  have hground := length_ground_le v
  obtain ⟨count, htop, hcount⟩ := writeTop_own hown v.tile.topItems
    (n := v.tile.ground.toList.length) (by rw [MAX_THINGS]; omega)
  have hmem := writeCreatures_own hown (List.mem_reverse.2 (v.mem_iff.2 (own_iff.1 hown))) hcount
  rw [getTileDescription]
  dsimp only
  rw [htop]
  dsimp only
  cases (writeCreatures v count false v.tile.creatures.reverse).2 with
  | none => exact List.mem_append_right _ hmem
  | some count' => exact List.mem_append_left _ (List.mem_append_right _ hmem)

variable [DecidableEq ι]

theorem findItem_of_mem {item : ι} {l : List ι} (h : item ∈ l) {n : ℕ} (hn : n < MAX_THINGS) :
    findItem item n l = .inl (limited (n + l.idxOf item)) := by
  induction l generalizing n with
  | nil => cases h
  | cons i l ih =>
    rw [findItem]
    by_cases hi : i = item
    · rw [if_pos hi, hi, List.idxOf_cons_self, Nat.add_zero, limited, if_pos hn]
    · have hmem : item ∈ l := (List.mem_cons.1 h).resolve_left (Ne.symm hi)
      rw [if_neg hi, List.idxOf_cons_ne _ hi]
      split_ifs with hfull
      · rw [limited, if_neg (by omega)]
      · rw [ih hmem (Nat.lt_of_not_le hfull), Nat.succ_eq_add_one]
        congr 2
        omega

end Loops

/-! ## The description -/

section Description

variable {ι κ : Type} [DecidableEq ι] [DecidableEq κ] {v : View ι κ}

/-- Where a creature that is seen stands among the things. -/
theorem idxOf_creature {c : κ} (h : c ∈ v.visible) : v.things.idxOf (.creature c) =
      v.tile.ground.toList.length + v.tile.topItems.length + v.visible.idxOf c := by
  have hcreature : Function.Injective (Thing.creature : κ → Thing ι κ) := fun _ _ h => Thing.creature.inj h
  have hmem : Thing.creature (ι := ι) c ∈ v.visible.map .creature := List.mem_map_of_mem h
  rw [View.things, List.idxOf_append_of_mem (List.mem_append_right _ hmem),
    List.idxOf_append_of_notMem (by simp), idxOf_map hcreature, List.length_map, List.length_append]

/-- Where an item on top stands among the things. -/
theorem idxOf_top {i : ι} (h : i ∈ v.tile.ground.toList ++ v.tile.topItems) :
    v.things.idxOf (.item i) = (v.tile.ground.toList ++ v.tile.topItems).idxOf i := by
  have hitem : Function.Injective (Thing.item : ι → Thing ι κ) := fun _ _ h => Thing.item.inj h
  have hmem : Thing.item (κ := κ) i ∈ (v.tile.ground.toList ++ v.tile.topItems).map .item :=
    List.mem_map_of_mem h
  rw [View.things, List.idxOf_append_of_mem (List.mem_append_left _ hmem),
    List.idxOf_append_of_mem hmem, idxOf_map hitem]

/-- Where another item stands among the things. -/
theorem idxOf_down {i : ι} (h : i ∈ v.tile.downItems) : v.things.idxOf (.item i) =
      v.tile.ground.toList.length + v.tile.topItems.length + v.visible.length + v.tile.downItems.idxOf i := by
  have hitem : Function.Injective (Thing.item : ι → Thing ι κ) := fun _ _ h => Thing.item.inj h
  have htop : i ∉ v.tile.ground.toList ++ v.tile.topItems := fun htop =>
    (List.nodup_append.1 v.tile.nodup_items).2.2 i htop i h rfl
  rw [View.things, List.idxOf_append_of_notMem, idxOf_map hitem, List.length_append, List.length_map,
    List.length_map, List.length_append]
  rw [List.mem_append, not_or]
  refine ⟨fun hmem => htop ?_, by simp⟩
  obtain ⟨i', hi', heq⟩ := List.mem_map.1 hmem
  exact hitem heq ▸ hi'

/-- **The description** has the first ten things, if the viewer is in reach. -/
theorem description_eq_take (h : InReach v) : getTileDescription v = v.things.take MAX_THINGS := by
  have hground := length_ground_le v
  have hg : v.tile.ground.toList.length < MAX_THINGS := by rw [MAX_THINGS]; omega
  have hreach : v.own = true → v.tile.ground.toList.length + v.tile.topItems.length +
      v.visible.idxOf v.player < MAX_THINGS := by
    intro hown
    rw [← idxOf_creature (player_mem_visible hown)]
    exact h (own_iff.1 hown)
  have htop := writeTop_eq v.tile.topItems hg fun hown =>
    lt_of_le_of_lt (Nat.le_add_right _ _) (hreach hown)
  have hfirst : v.tile.ground.toList.take MAX_THINGS = v.tile.ground.toList := List.take_of_length_le hg.le
  have hthings : v.things.take MAX_THINGS = v.tile.ground.toList.map .item ++
      ((v.tile.topItems.take (MAX_THINGS - v.tile.ground.toList.length)).map .item ++
        ((v.visible.take (MAX_THINGS - (v.tile.ground.toList.length + v.tile.topItems.length))).map
            .creature ++
          (v.tile.downItems.take (MAX_THINGS - (v.tile.ground.toList.length + v.tile.topItems.length +
            v.visible.length))).map .item)) := by
    rw [View.things, List.map_append, List.append_assoc, List.append_assoc, List.take_append,
      List.take_append, List.take_append]
    simp only [List.length_map, ← List.map_take, hfirst, Nat.sub_sub]
  rw [hthings, getTileDescription]
  dsimp only
  rw [htop]
  dsimp only
  split_ifs with hlt
  · have hcreatures := writeCreatures_eq (l := v.tile.creatures.reverse) hlt fun hown (_ : false = false) =>
      hreach hown
    dsimp only
    rw [hcreatures]
    dsimp only
    rw [← View.visible]
    split_ifs with hmore
    · dsimp only
      rw [writeDown_eq _ hmore, List.append_assoc, List.append_assoc]
    · dsimp only
      rw [Nat.sub_eq_zero_of_le (Nat.le_of_not_lt hmore), List.take_zero, List.map_nil, List.append_nil,
        List.append_assoc]
  · dsimp only
    rw [Nat.sub_eq_zero_of_le (Nat.le_of_not_lt hlt), List.take_zero, List.map_nil, List.nil_append,
      Nat.sub_eq_zero_of_le ((Nat.le_of_not_lt hlt).trans (Nat.le_add_right _ _)), List.take_zero,
      List.map_nil, List.append_nil]

/-! ## The positions -/

theorem getStackposOfCreature_eq {c : κ} (h : c ∈ v.tile.creatures) (hsee : v.canSeeCreature c = true) :
    getStackposOfCreature v c = limited (v.things.idxOf (.creature c)) := by
  have hvisible : c ∈ v.visible := List.mem_filter.2 ⟨List.mem_reverse.2 h, hsee⟩
  rw [idxOf_creature hvisible, getStackposOfCreature]
  split_ifs with hfull
  · rw [limited, if_neg (by omega)]
  · rw [findCreature_eq hsee (List.mem_reverse.2 h) (Nat.lt_of_not_le hfull), View.visible]

theorem getClientIndexOfCreature_eq {c : κ} (h : c ∈ v.tile.creatures) (hsee : v.canSeeCreature c = true) :
    getClientIndexOfCreature v c = (v.things.idxOf (.creature c) : ℕ) := by
  have hvisible : c ∈ v.visible := List.mem_filter.2 ⟨List.mem_reverse.2 h, hsee⟩
  rw [idxOf_creature hvisible, getClientIndexOfCreature, clientIndex_eq hsee (List.mem_reverse.2 h),
    View.visible]

theorem getStackposOfItem_eq {i : ι} (h : i ∈ v.tile.ground.toList ++ v.tile.topItems ++ v.tile.downItems) :
    getStackposOfItem v i = limited (v.things.idxOf (.item i)) := by
  have hground := length_ground_le v
  have hg : v.tile.ground.toList.length < MAX_THINGS := by rw [MAX_THINGS]; omega
  rw [getStackposOfItem]
  rcases List.mem_append.1 h with htop | hdown
  · rw [idxOf_top htop]
    by_cases hi : v.tile.ground = some i
    · rw [if_pos hi, hi]
      rw [Option.toList_some, List.singleton_append, List.idxOf_cons_self]
      rfl
    · have hnot : i ∉ v.tile.ground.toList := fun hmem => hi (Option.mem_toList.1 hmem)
      have hmem : i ∈ v.tile.topItems := (List.mem_append.1 htop).resolve_left hnot
      rw [if_neg hi, findTop, if_pos (v.tile.isAlwaysOnTop_top i hmem), findItem_of_mem hmem hg,
        List.idxOf_append_of_notMem hnot]
  · have hnottop : i ∉ v.tile.ground.toList ++ v.tile.topItems := fun htop =>
      (List.nodup_append.1 v.tile.nodup_items).2.2 i htop i hdown rfl
    have hi : v.tile.ground ≠ some i := fun hi =>
      hnottop (List.mem_append_left _ (Option.mem_toList.2 hi))
    have hover : v.tile.isAlwaysOnTop i = false := v.tile.isAlwaysOnTop_down i hdown
    rw [if_neg hi, findTop, if_neg (by rw [hover]; simp), idxOf_down hdown]
    split_ifs with hfull
    · dsimp only
      rw [limited, if_neg (by omega)]
    · dsimp only
      rw [countCreatures_eq _ (Nat.lt_of_not_le hfull), ← length_visible]
      split_ifs with hlt
      · dsimp only
        rw [findDown, if_neg (by rw [hover]; simp), findItem_of_mem hdown hlt]
      · dsimp only
        rw [limited, if_neg (by omega)]

/-- **Positions and description** agree exactly if the viewer is in reach on the own tile. -/
theorem agrees_iff (v : View ι κ) : Agrees v ↔ InReach v := by
  constructor
  · intro h hown
    by_contra hfar
    have hmem : v.player ∈ v.tile.creatures := v.mem_iff.2 hown
    have hposition := (h.creature v.player hmem v.canSee_player).2.1
    rw [getStackposOfCreature_eq hmem v.canSee_player, limited, if_neg hfar] at hposition
    exact hposition rfl (mem_description_player (own_iff.2 hown))
  · intro h
    have htake := description_eq_take h
    constructor
    · intro i hi
      rw [htake, getStackposOfItem_eq hi]
      exact isPosition_limited (nodup_things v) (mem_things_item hi)
    · intro c hc hsee
      rw [htake, getStackposOfCreature_eq hc hsee]
      exact isPosition_limited (nodup_things v) (mem_things_creature hc hsee)
    · intro c hc hsee
      rw [htake, getClientIndexOfCreature_eq hc hsee]
      exact isIndex_idxOf (nodup_things v) (mem_things_creature hc hsee)
    · rw [htake]
      exact List.length_take_le _ _
    · exact fun hown => mem_description_player (own_iff.2 hown)

/-- A player below ten others on the own tile. -/
def crowded : View ℕ ℕ where
  tile := {
    position := ⟨100, 100, 7⟩
    ground := some 0
    topItems := []
    downItems := []
    creatures := List.range 11
    isAlwaysOnTop := fun _ => false
    isAlwaysOnTop_top := by simp
    isAlwaysOnTop_down := by simp
    nodup_items := by simp
    nodup_creatures := List.nodup_range }
  player := 0
  position := ⟨100, 100, 7⟩
  canSeeCreature := fun _ => true
  canSee_player := rfl
  mem_iff := by decide

/-- The viewer is written in the last place, where the position of another creature is counted. -/
theorem not_agrees_crowded : ¬ Agrees crowded := by
  intro h
  have hposition := (h.creature 0 (by decide) rfl).2.1
  revert hposition
  decide

end Description

end TiabloServer.Stackpos
