import TiabloServer.Lib.Runs
import TiabloServer.Map.SpectatorSearch

/-!
# The cache of spectators

`Spectators::find` keeps, for each centre, up to four lists of creatures and one set of ranges. A
query that is inside the ranges is answered from a list, as it is or tested again by a test that
looks at the distance from the creature to the centre and not at its floor. A query that is not
inside the ranges widens them, for all four lists, and searches for one.

## Main definitions

* `Spectators.fill` — the windows that the lists of the cache have been searched with.
* `Spectators.Served` — a query that the cache serves from a list with the right creatures.

## Main results

* `Spectators.Filled.find` — one query.
* `Spectators.finds_exact` — runs of queries that are served.
-/

namespace TiabloServer.Spectators

/-! ## The cache -/

/-- `SpectatorsCache::FloorData`. -/
structure FloorData (α : Type*) where
  floor : Option α
  multiFloor : Option α

structure SpectatorsCache (α : Type*) where
  range : Range
  creatures : FloorData α
  players : FloorData α

/-- A range that is inside another one. -/
def Range.Within (r r' : Range) : Prop :=
  r'.minRangeX ≤ r.minRangeX ∧ r.maxRangeX ≤ r'.maxRangeX ∧
    r'.minRangeY ≤ r.minRangeY ∧ r.maxRangeY ≤ r'.maxRangeY

instance (r r' : Range) : Decidable (r.Within r') := by
  unfold Range.Within
  infer_instance

/-- The ranges after a query that is not inside them. -/
def Range.widen (r r' : Range) : Range where
  minRangeX := min r.minRangeX r'.minRangeX
  maxRangeX := max r.maxRangeX r'.maxRangeX
  minRangeY := min r.minRangeY r'.minRangeY
  maxRangeY := max r.maxRangeY r'.maxRangeY

section Data

variable {α : Type*}

/-- The list that `checkCache` takes. -/
def FloorData.list (specData : FloorData α) (multifloor : Bool) : Option α :=
  if multifloor || specData.floor.isNone then specData.multiFloor else specData.floor

/-- The list of a query is replaced. -/
def FloorData.store (specData : FloorData α) (multifloor : Bool) (creatureList : α) : FloorData α :=
  if multifloor then { specData with multiFloor := some creatureList }
  else { specData with floor := some creatureList }

/-- The list of a query is replaced. -/
def SpectatorsCache.store (cache : SpectatorsCache α) (q : Query) (creatureList : α) :
    SpectatorsCache α :=
  if q.onlyPlayers then { cache with players := cache.players.store q.multifloor creatureList }
  else { cache with creatures := cache.creatures.store q.multifloor creatureList }

/-- A cache without lists. -/
def SpectatorsCache.new (range : Range) : SpectatorsCache α := ⟨range, ⟨none, none⟩, ⟨none, none⟩⟩

end Data

section Find

variable {γ : Type*} (isPlayer : γ → Bool) (w : CreatureMap γ)

/-- The test of `checkCache` for a position. -/
def near (centerPos : Position) (multifloor : Bool) (range : Range) (specPos : Position) : Bool :=
  decide ((centerPos.x.toNat : ℤ) - specPos.x.toNat ≥ range.minRangeX) &&
    decide ((centerPos.y.toNat : ℤ) - specPos.y.toNat ≥ range.minRangeY) &&
    decide ((centerPos.x.toNat : ℤ) - specPos.x.toNat ≤ range.maxRangeX) &&
    decide ((centerPos.y.toNat : ℤ) - specPos.y.toNat ≤ range.maxRangeY) &&
    (multifloor || decide (specPos.z = centerPos.z))

/-- `checkCache`: the spectators that are inserted, if there are any lists. -/
def checkCache (specData : FloorData (List γ)) (onlyPlayers : Bool) (centerPos : Position)
    (checkDistance multifloor : Bool) (range : Range) : Option (List γ) :=
  match specData.list multifloor with
  | none => none
  | some list =>
    let checkDistance := if !multifloor && specData.floor.isNone then true else checkDistance
    if checkDistance then
      some (list.filter fun creature => (w.creatures creature).any fun specPos =>
        near centerPos multifloor range specPos && (!onlyPlayers || isPlayer creature))
    else some list

/-- The answer of a cache to a query that is inside its ranges. -/
def checkCaches (cache : SpectatorsCache (List γ)) (q : Query) : Option (List γ) :=
  let checkDistance := decide (q.range ≠ cache.range)
  if q.onlyPlayers then
    match checkCache isPlayer w cache.players true q.centerPos checkDistance q.multifloor q.range with
    | some spectators => some spectators
    | none => checkCache isPlayer w cache.creatures true q.centerPos true q.multifloor q.range
  else checkCache isPlayer w cache.creatures false q.centerPos checkDistance q.multifloor q.range

/-- The `spectatorsCache`. -/
abbrev Caches (γ : Type*) := Position → Option (SpectatorsCache (List γ))

/-- `Spectators::find`: the spectators that are inserted, and the cache after it. -/
def find (caches : Caches γ) (q : Query) : List γ × Caches γ :=
  match caches q.centerPos with
  | some cache =>
    if q.range.Within cache.range then
      match checkCaches isPlayer w cache q with
      | some spectators => (spectators, caches)
      | none =>
        let spectators := search w q q.range
        (spectators, Function.update caches q.centerPos (some (cache.store q spectators)))
    else
      -- recache with new range
      let range := q.range.widen cache.range
      let spectators := search w q range
      (spectators, Function.update caches q.centerPos
        (some ({ cache with range := range }.store q spectators)))
  | none =>
    let spectators := search w q q.range
    (spectators, Function.update caches q.centerPos
      (some ((SpectatorsCache.new q.range).store q spectators)))

/-- What a run of queries finds. -/
def finds (caches : Caches γ) : List Query → List (List γ)
  | [] => []
  | q :: queries =>
    let (spectators, caches) := find isPlayer w caches q
    spectators :: finds caches queries

end Find

/-! ## The windows of the lists -/

section Windows

variable {α : Type*}

/-- The list that `checkCache` takes, and whether it tests its creatures. -/
def FloorData.answer (specData : FloorData α) (checkDistance multifloor : Bool) :
    Option (α × Bool) :=
  (specData.list multifloor).map fun list =>
    (list, if !multifloor && specData.floor.isNone then true else checkDistance)

/-- The list that answers a query inside the ranges, and whether its creatures are tested. -/
def SpectatorsCache.answer (cache : SpectatorsCache α) (q : Query) : Option (α × Bool) :=
  let checkDistance := decide (q.range ≠ cache.range)
  if q.onlyPlayers then
    match cache.players.answer checkDistance q.multifloor with
    | some answer => some answer
    | none => cache.creatures.answer true q.multifloor
  else cache.creatures.answer checkDistance q.multifloor

/-- The windows that the lists have been searched with. -/
abbrev Windows := Position → Option (SpectatorsCache Range)

/-- The windows of the lists after a query. -/
def fill (windows : Windows) (q : Query) : Windows :=
  match windows q.centerPos with
  | some cache =>
    if q.range.Within cache.range then
      match cache.answer q with
      | some _ => windows
      | none => Function.update windows q.centerPos (some (cache.store q q.range))
    else
      let range := q.range.widen cache.range
      Function.update windows q.centerPos (some ({ cache with range := range }.store q range))
  | none =>
    Function.update windows q.centerPos (some ((SpectatorsCache.new q.range).store q q.range))

/-- A range that looks as far in one direction as in the opposite one. -/
def Range.Symmetric (r : Range) : Prop :=
  r.minRangeX = -r.maxRangeX ∧ r.minRangeY = -r.maxRangeY

/-- A list that serves a query has been searched with its range and is not tested again, or it is
tested, for a symmetric range on a single floor, and has been searched with a window around the
range. -/
def ServedBy (q : Query) : Range × Bool → Prop
  | (window, false) => window = q.range
  | (window, true) => q.multifloor = false ∧ q.range.Symmetric ∧ q.range.Within window

/-- A query inside the ranges of its centre is served by the list that answers it, if there is one.
A query that is not inside the ranges contains them. -/
def Served (windows : Windows) (q : Query) : Prop :=
  match windows q.centerPos with
  | some cache =>
    if q.range.Within cache.range then ∀ window, cache.answer q = some window → ServedBy q window
    else cache.range.Within q.range
  | none => True

end Windows

/-! ## Tests -/

/-- The floor of a centre on the map is one of those that it sees. -/
theorem floors_centerPos {centerPos : Position} (hz : centerPos.z.toNat < MAP_MAX_LAYERS) (multifloor : Bool) :
    (floors centerPos multifloor).1.toNat ≤ centerPos.z.toNat ∧
      centerPos.z.toNat ≤ (floors centerPos multifloor).2.toNat := by
  have hall : ∀ n < 16, ∀ b, (floors ⟨0, 0, UInt8.ofNat n⟩ b).1.toNat ≤ n ∧
      n ≤ (floors ⟨0, 0, UInt8.ofNat n⟩ b).2.toNat := by
    decide
  have hcentre := hall centerPos.z.toNat hz multifloor
  rw [UInt8.ofNat_toNat] at hcentre
  exact hcentre

theorem near_iff {centerPos specPos : Position} {multifloor : Bool} {range : Range} :
    near centerPos multifloor range specPos = true ↔ ((centerPos.x.toNat : ℤ) - specPos.x.toNat ≥ range.minRangeX ∧
        (centerPos.x.toNat : ℤ) - specPos.x.toNat ≤ range.maxRangeX) ∧
      ((centerPos.y.toNat : ℤ) - specPos.y.toNat ≥ range.minRangeY ∧
        (centerPos.y.toNat : ℤ) - specPos.y.toNat ≤ range.maxRangeY) ∧
      (multifloor = true ∨ specPos.z = centerPos.z) := by
  simp only [near, Bool.and_eq_true, decide_eq_true_eq, Bool.or_eq_true]
  tauto

/-- On a single floor, with a symmetric range, the test of the cache is that of the search. -/
theorem near_visible {centerPos specPos : Position} (multifloor : Bool) {range window : Range}
    (hz : specPos.z.toNat < MAP_MAX_LAYERS) (hsymmetric : range.Symmetric) (hwithin : range.Within window) :
    visible centerPos multifloor window specPos = true ∧ near centerPos false range specPos = true ↔
      visible centerPos false range specPos = true := by
  obtain ⟨hsymX, hsymY⟩ := hsymmetric
  obtain ⟨hminX, hmaxX, hminY, hmaxY⟩ := hwithin
  rw [visible_iff, near_iff, visible_iff]
  simp only [floors, Bool.false_eq_true, if_false, false_or, getOffsetZ]
  constructor
  · rintro ⟨-, ⟨hx, hx'⟩, ⟨hy, hy'⟩, hfloor⟩
    rw [hfloor]
    omega
  · rintro ⟨⟨hfloor, hfloor'⟩, ⟨hx, hx'⟩, hy, hy'⟩
    have heq : specPos.z = centerPos.z := UInt8.toNat_inj.1 (le_antisymm hfloor' hfloor)
    have hvisible := floors_centerPos (heq ▸ hz : centerPos.z.toNat < MAP_MAX_LAYERS) multifloor
    simp only [floors] at hvisible
    rw [heq] at hx hx' hy hy' ⊢
    refine ⟨⟨hvisible, ?_, ?_⟩, ?_, ?_, rfl⟩ <;> omega

/-! ## Lists and their windows -/

section Filled

variable {γ : Type*} (isPlayer : γ → Bool) (w : CreatureMap γ)

/-- A list of what a search with a window finds. -/
def Holds (centerPos : Position) (multifloor onlyPlayers : Bool) (window : Range)
    (list : List γ) : Prop :=
  ∀ c, c ∈ list ↔ Sees isPlayer w centerPos multifloor onlyPlayers window c

/-- Lists that have been searched with some windows. -/
structure FilledData (centerPos : Position) (onlyPlayers : Bool) (windows : FloorData Range)
    (specData : FloorData (List γ)) : Prop where
  floor : Option.Rel (Holds isPlayer w centerPos false onlyPlayers) windows.floor specData.floor
  multiFloor : Option.Rel (Holds isPlayer w centerPos true onlyPlayers) windows.multiFloor
    specData.multiFloor

/-- The lists of a centre. -/
structure FilledCache (centerPos : Position) (windows : SpectatorsCache Range)
    (cache : SpectatorsCache (List γ)) : Prop where
  range : windows.range = cache.range
  creatures : FilledData isPlayer w centerPos false windows.creatures cache.creatures
  players : FilledData isPlayer w centerPos true windows.players cache.players

/-- The lists of the cache. -/
def Filled (windows : Windows) (caches : Caches γ) : Prop :=
  ∀ centerPos, Option.Rel (FilledCache isPlayer w centerPos) (windows centerPos) (caches centerPos)

variable {isPlayer w}

theorem filled_empty : Filled isPlayer w (fun _ => none) (fun _ => none) := fun _ => .none

theorem FilledData.store {centerPos : Position} {onlyPlayers multifloor : Bool}
    {windows : FloorData Range} {specData : FloorData (List γ)} {window : Range} {list : List γ}
    (h : FilledData isPlayer w centerPos onlyPlayers windows specData)
    (hlist : Holds isPlayer w centerPos multifloor onlyPlayers window list) :
    FilledData isPlayer w centerPos onlyPlayers (windows.store multifloor window)
      (specData.store multifloor list) := by
  cases multifloor with
  | false => exact ⟨.some hlist, h.multiFloor⟩
  | true => exact ⟨h.floor, .some hlist⟩

theorem FilledCache.store {q : Query} {windows : SpectatorsCache Range}
    {cache : SpectatorsCache (List γ)} {window : Range} {list : List γ}
    (h : FilledCache isPlayer w q.centerPos windows cache)
    (hlist : Holds isPlayer w q.centerPos q.multifloor q.onlyPlayers window list) :
    FilledCache isPlayer w q.centerPos (windows.store q window) (cache.store q list) := by
  rw [SpectatorsCache.store, SpectatorsCache.store]
  cases hplayers : q.onlyPlayers with
  | false =>
    rw [hplayers] at hlist
    exact ⟨h.range, h.creatures.store hlist, h.players⟩
  | true =>
    rw [hplayers] at hlist
    exact ⟨h.range, h.creatures, h.players.store hlist⟩

theorem Filled.update {windows : Windows} {caches : Caches γ} (h : Filled isPlayer w windows caches)
    {centerPos : Position} {window : SpectatorsCache Range} {cache : SpectatorsCache (List γ)}
    (hcache : FilledCache isPlayer w centerPos window cache) :
    Filled isPlayer w (Function.update windows centerPos (some window))
      (Function.update caches centerPos (some cache)) := by
  intro position
  rcases eq_or_ne position centerPos with rfl | hne
  · rw [Function.update_self, Function.update_self]
    exact .some hcache
  · rw [Function.update_of_ne hne, Function.update_of_ne hne]
    exact h position

/-! ## Answers -/

/-- What is inserted for the answer of a list. -/
def insertion (isPlayer : γ → Bool) (w : CreatureMap γ) (onlyPlayers : Bool) (centerPos : Position)
    (multifloor : Bool) (range : Range) : List γ × Bool → List γ
  | (list, true) => list.filter fun creature => (w.creatures creature).any fun specPos =>
      near centerPos multifloor range specPos && (!onlyPlayers || isPlayer creature)
  | (list, false) => list

theorem checkCache_eq (specData : FloorData (List γ)) (onlyPlayers : Bool) (centerPos : Position)
    (checkDistance multifloor : Bool) (range : Range) :
    checkCache isPlayer w specData onlyPlayers centerPos checkDistance multifloor range =
      (specData.answer checkDistance multifloor).map
        (insertion isPlayer w onlyPlayers centerPos multifloor range) := by
  rw [checkCache, FloorData.answer]
  cases specData.list multifloor with
  | none => rfl
  | some list =>
    simp only [Option.map_some]
    generalize (if !multifloor && specData.floor.isNone then true else checkDistance) = tested
    cases tested <;> rfl

/-- A query is answered by the lists exactly if it is answered by their windows. -/
theorem checkCaches_eq (cache : SpectatorsCache (List γ)) (q : Query) :
    checkCaches isPlayer w cache q = (cache.answer q).map
      (insertion isPlayer w q.onlyPlayers q.centerPos q.multifloor q.range) := by
  rw [checkCaches, SpectatorsCache.answer]
  cases hplayers : q.onlyPlayers with
  | false => exact checkCache_eq _ _ _ _ _ _
  | true =>
    simp only [if_true, checkCache_eq]
    cases cache.players.answer (decide (q.range ≠ cache.range)) q.multifloor <;> rfl

/-- A list that answers a query, and what it has been searched for. -/
structure Answers (w : CreatureMap γ) (isPlayer : γ → Bool) (centerPos : Position)
    (multifloor onlyPlayers : Bool) (window : Range × Bool) (list : List γ × Bool) : Prop where
  tested_eq : window.2 = list.2
  holds : ∃ multifloor' onlyPlayers',
    Holds isPlayer w centerPos multifloor' onlyPlayers' window.1 list.1 ∧
    (onlyPlayers' = true → onlyPlayers = true) ∧
    (list.2 = false → multifloor' = multifloor ∧ onlyPlayers' = onlyPlayers)

theorem FilledData.answer {centerPos : Position} {onlyPlayers multifloor checkDistance : Bool}
    {listPlayers : Bool} {windows : FloorData Range} {specData : FloorData (List γ)}
    (h : FilledData isPlayer w centerPos listPlayers windows specData)
    (hplayers : listPlayers = true → onlyPlayers = true)
    (htested : checkDistance = false → listPlayers = onlyPlayers) :
    Option.Rel (Answers w isPlayer centerPos multifloor onlyPlayers)
      (windows.answer checkDistance multifloor) (specData.answer checkDistance multifloor) := by
  obtain ⟨floor, multi⟩ := windows
  obtain ⟨floor', multi'⟩ := specData
  obtain ⟨hfloor, hmulti⟩ := h
  simp only at hfloor hmulti
  cases multifloor with
  | true =>
    cases hmulti with
    | none => exact .none
    | some hlist =>
      exact .some ⟨rfl, true, listPlayers, hlist, hplayers, fun hfalse => ⟨rfl, htested hfalse⟩⟩
  | false =>
    cases hfloor with
    | some hlist =>
      exact .some ⟨rfl, false, listPlayers, hlist, hplayers, fun hfalse => ⟨rfl, htested hfalse⟩⟩
    | none =>
      cases hmulti with
      | none => exact .none
      | some hlist =>
        exact .some ⟨rfl, true, listPlayers, hlist, hplayers, fun hfalse => (nomatch hfalse)⟩

theorem FilledCache.answer {q : Query} {windows : SpectatorsCache Range}
    {cache : SpectatorsCache (List γ)} (h : FilledCache isPlayer w q.centerPos windows cache) :
    Option.Rel (Answers w isPlayer q.centerPos q.multifloor q.onlyPlayers) (windows.answer q) (cache.answer q) := by
  rw [SpectatorsCache.answer, SpectatorsCache.answer, h.range]
  cases hplayers : q.onlyPlayers with
  | false => exact h.creatures.answer (fun hfalse => (nomatch hfalse)) fun _ => rfl
  | true =>
    have hanswer : Option.Rel (Answers w isPlayer q.centerPos q.multifloor true)
        (windows.players.answer (decide (q.range ≠ cache.range)) q.multifloor)
        (cache.players.answer (decide (q.range ≠ cache.range)) q.multifloor) :=
      h.players.answer (fun _ => rfl) fun _ => rfl
    simp only [if_true]
    revert hanswer
    cases windows.players.answer (decide (q.range ≠ cache.range)) q.multifloor with
    | none =>
      cases cache.players.answer (decide (q.range ≠ cache.range)) q.multifloor with
      | none =>
        intro _
        exact h.creatures.answer (fun hfalse => (nomatch hfalse)) fun hfalse => (nomatch hfalse)
      | some answer => exact fun hanswer => (nomatch hanswer)
    | some window =>
      cases cache.players.answer (decide (q.range ≠ cache.range)) q.multifloor with
      | none => exact fun hanswer => (nomatch hanswer)
      | some answer => exact fun hanswer => hanswer

/-- **A list that serves a query** has the creatures that the query asks for. -/
theorem Answers.holds_insertion (h : CreatureMap.WellFormed isPlayer w) {q : Query}
    {window : Range × Bool} {list : List γ × Bool}
    (hanswer : Answers w isPlayer q.centerPos q.multifloor q.onlyPlayers window list)
    (hserved : ServedBy q window) : Holds isPlayer w q.centerPos q.multifloor q.onlyPlayers q.range
      (insertion isPlayer w q.onlyPlayers q.centerPos q.multifloor q.range list) := by
  obtain ⟨window, tested⟩ := window
  obtain ⟨list, tested'⟩ := list
  obtain ⟨htested, multifloor', onlyPlayers', hlist, hplayers, hsame⟩ := hanswer
  simp only at htested hlist hsame
  subst htested
  cases tested with
  | false =>
    obtain ⟨rfl, rfl⟩ := hsame rfl
    rw [ServedBy] at hserved
    rw [← hserved]
    exact hlist
  | true =>
    obtain ⟨hsingle, hsymmetric, hwithin⟩ := hserved
    intro c
    rw [insertion, List.mem_filter, hlist c, Option.any_eq_true, hsingle]
    have hlayer : ∀ p, w.creatures c = some p → p.z.toNat < MAP_MAX_LAYERS := fun p hp =>
      h.layer_lt p (h.tile_of_creature c p hp)
    constructor
    · rintro ⟨⟨p, hp, -, hvisible⟩, p', hp', hnear⟩
      obtain rfl := Option.some.inj (hp.symm.trans hp')
      rw [Bool.and_eq_true, Bool.or_eq_true, Bool.not_eq_true'] at hnear
      refine ⟨p, hp, fun hq => ?_, (near_visible _ (hlayer p hp) hsymmetric hwithin).1
        ⟨hvisible, hnear.1⟩⟩
      exact hnear.2.resolve_left (by rw [hq]; exact Bool.noConfusion)
    · rintro ⟨p, hp, hplayer, hvisible⟩
      obtain ⟨hvisible', hnear⟩ := (near_visible multifloor' (hlayer p hp) hsymmetric
        hwithin).2 hvisible
      refine ⟨⟨p, hp, fun hp' => hplayer (hplayers hp'), hvisible'⟩, p, hp, ?_⟩
      rw [Bool.and_eq_true, Bool.or_eq_true, Bool.not_eq_true']
      refine ⟨hnear, ?_⟩
      cases hq : q.onlyPlayers with
      | false => exact Or.inl rfl
      | true => exact Or.inr (hplayer hq)

theorem Range.widen_eq {r r' : Range} (h : r'.Within r) : r.widen r' = r := by
  obtain ⟨hminX, hmaxX, hminY, hmaxY⟩ := h
  rw [Range.widen, min_eq_left hminX, max_eq_left hmaxX, min_eq_left hminY, max_eq_left hmaxY]

/-! ## Runs -/

theorem holds_search (h : CreatureMap.WellFormed isPlayer w) (q : Query) (range : Range) :
    Holds isPlayer w q.centerPos q.multifloor q.onlyPlayers range (search w q range) := fun _ =>
  mem_search h q range

/-- **One query** that is served finds what it asks for, and the windows of the lists stay known. -/
theorem Filled.find (h : CreatureMap.WellFormed isPlayer w) {windows : Windows} {caches : Caches γ}
    (hfilled : Filled isPlayer w windows caches) {q : Query} (hserved : Served windows q) :
    Holds isPlayer w q.centerPos q.multifloor q.onlyPlayers q.range (Spectators.find isPlayer w caches q).1 ∧
      Filled isPlayer w (fill windows q) (Spectators.find isPlayer w caches q).2 := by
  have hcentre := hfilled q.centerPos
  have hsearch := holds_search h q
  rw [Served] at hserved
  rw [fill, Spectators.find]
  generalize hwindow : windows q.centerPos = window at hcentre hserved
  generalize hentry : caches q.centerPos = entry at hcentre
  cases hcentre with
  | none =>
    have hnew : FilledCache isPlayer w q.centerPos (SpectatorsCache.new q.range)
        (SpectatorsCache.new q.range) := ⟨rfl, ⟨.none, .none⟩, ⟨.none, .none⟩⟩
    exact ⟨hsearch _, hfilled.update (hnew.store (hsearch _))⟩
  | @some window cache hcache =>
    simp only [hcache.range] at hserved ⊢
    by_cases hwithin : q.range.Within cache.range
    · rw [if_pos hwithin] at hserved
      rw [if_pos hwithin, if_pos hwithin, checkCaches_eq]
      have hanswer := hcache.answer
      generalize window.answer q = answer at hanswer hserved
      generalize cache.answer q = answer' at hanswer
      cases hanswer with
      | none => exact ⟨hsearch _, hfilled.update (hcache.store (hsearch _))⟩
      | some hlist => exact ⟨hlist.holds_insertion h (hserved _ rfl), hfilled⟩
    · rw [if_neg hwithin] at hserved
      rw [if_neg hwithin, if_neg hwithin, Range.widen_eq hserved]
      have hwider : FilledCache isPlayer w q.centerPos { window with range := q.range }
          { cache with range := q.range } := ⟨rfl, hcache.creatures, hcache.players⟩
      exact ⟨hsearch _, hfilled.update (hwider.store (hsearch _))⟩

/-- What is said of the creatures that a query finds: they are those that it asks for, and those
that it finds with an empty cache. -/
def Exact (isPlayer : γ → Bool) (w : CreatureMap γ) (q : Query) (spectators : List γ) : Prop :=
  ∀ c, (c ∈ spectators ↔ c ∈ (Spectators.find isPlayer w (fun _ => none) q).1) ∧
    (c ∈ spectators ↔ Sees isPlayer w q.centerPos q.multifloor q.onlyPlayers q.range c)

theorem Holds.exact (h : CreatureMap.WellFormed isPlayer w) {q : Query} {spectators : List γ}
    (hspectators : Holds isPlayer w q.centerPos q.multifloor q.onlyPlayers q.range spectators) :
    Exact isPlayer w q spectators := fun c =>
  ⟨(hspectators c).trans (mem_search h q q.range).symm, hspectators c⟩

theorem Filled.finds (h : CreatureMap.WellFormed isPlayer w) {windows : Windows} {caches : Caches γ}
    (hfilled : Filled isPlayer w windows caches) {queries : List Query}
    (hserved : Runs.Meets fill Served windows queries) :
    List.Forall₂ (Exact isPlayer w) queries (Spectators.finds isPlayer w caches queries) := by
  induction queries generalizing windows caches with
  | nil => exact .nil
  | cons q queries ih =>
    rw [Runs.meets_cons] at hserved
    obtain ⟨hlist, hfilled'⟩ := hfilled.find h hserved.1
    exact .cons (hlist.exact h) (ih hfilled' hserved.2)

end Filled

/-- **Runs of queries** on a map: if each query is served by a list with the right creatures, then
each finds the creatures that it asks for, which are those that it finds with an empty cache. -/
theorem finds_exact {γ : Type*} [DecidableEq γ] (isPlayer : γ → Bool) (steps : List (CreatureMap.Step γ))
    (queries : List Query) (hserved : Runs.Meets fill Served (fun _ => none) queries) :
    List.Forall₂ (Exact isPlayer (CreatureMap.run isPlayer steps)) queries
      (finds isPlayer (CreatureMap.run isPlayer steps) (fun _ => none) queries) :=
  filled_empty.finds (CreatureMap.wellFormed_run isPlayer steps) hserved

/-- A query for all creatures of the view port. -/
def allCreatures : Query := ⟨⟨100, 100, 7⟩, true, false, 0, 0, 0, 0⟩

/-- A query for all players of the view port. -/
def allPlayers : Query := ⟨⟨100, 100, 7⟩, true, true, 0, 0, 0, 0⟩

/-- A query for the creatures of a floor, and one for the players in a part of its window. -/
def floorThenPlayers : List Query :=
  [⟨⟨100, 100, 7⟩, false, false, 0, 0, 0, 0⟩, ⟨⟨100, 100, 7⟩, false, true, 3, 3, 3, 3⟩]

/-- A player at the border of the window of the floor above. -/
def playerAbove : List (CreatureMap.Step ℕ) :=
  [.setTile ⟨112, 100, 6⟩, .placeCreature 0 ⟨112, 100, 6⟩]

theorem finds_exact_floorThenPlayers :
    Runs.Meets fill Served (fun _ => none) floorThenPlayers ∧
      List.Forall₂ (Exact (fun _ => true) (CreatureMap.run (fun _ => true) playerAbove)) floorThenPlayers
        (finds (fun _ => true) (CreatureMap.run (fun _ => true) playerAbove) (fun _ => none)
          floorThenPlayers) := by
  have hserved : Runs.Meets fill Served (fun _ => none) floorThenPlayers := by
    refine ⟨trivial, ?_, trivial⟩
    simp only [Served, fill, Function.update_self]
    rw [if_pos (by decide)]
    intro window hwindow
    obtain rfl : (⟨-11, 11, -11, 11⟩, true) = window := Option.some.inj hwindow
    exact ⟨rfl, ⟨by decide, by decide⟩, by decide⟩
  exact ⟨hserved, finds_exact _ _ _ hserved⟩

/-- After a query for all creatures, players are found by the test without the floor offset. -/
theorem find_allPlayers (w : CreatureMap ℕ) (caches : Caches ℕ)
    (hcaches : caches allCreatures.centerPos = none) {c : ℕ}
    (hc : c ∈ (find (fun _ => true) w (find (fun _ => true) w caches allCreatures).2 allPlayers).1) :
    ∃ p, w.creatures c = some p ∧ near allPlayers.centerPos true allPlayers.range p = true := by
  have hcentre : allPlayers.centerPos = allCreatures.centerPos := rfl
  have hwithin : ∀ list : List ℕ, allPlayers.range.Within
      ((SpectatorsCache.new allCreatures.range).store allCreatures list).range := by
    intro _
    exact (by decide : allPlayers.range.Within allCreatures.range)
  rw [find, find, hcaches, hcentre] at hc
  simp only [Function.update_self, if_pos (hwithin _)] at hc
  obtain ⟨-, hkept⟩ := List.mem_filter.1 hc
  obtain ⟨p, hp, hnear⟩ := (Option.any_eq_true _ _).1 hkept
  exact ⟨p, hp, (Bool.and_eq_true _ _ ▸ hnear).1⟩

/-- A player on the floor above, at the border of the window of that floor, is asked for, and is not
found after a query for all creatures. -/
theorem not_finds_exact :
    ¬ ∀ (isPlayer : ℕ → Bool) (steps : List (CreatureMap.Step ℕ)) (queries : List Query),
      List.Forall₂ (Exact isPlayer (CreatureMap.run isPlayer steps)) queries
        (finds isPlayer (CreatureMap.run isPlayer steps) (fun _ => none) queries) := by
  intro h
  have hcreature : (CreatureMap.run (fun _ => true) playerAbove).creatures 0 = some ⟨112, 100, 6⟩ := by
    decide
  have hfinds := h (fun _ => true) playerAbove [allCreatures, allPlayers]
  obtain ⟨-, hrest⟩ := List.forall₂_cons.1 hfinds
  obtain ⟨hexact, -⟩ := List.forall₂_cons.1 hrest
  have hmem := (hexact 0).2.2 ⟨_, hcreature, fun _ => rfl, by decide⟩
  obtain ⟨p, hp, hnear⟩ := find_allPlayers (CreatureMap.run (fun _ => true) playerAbove)
    (fun _ => none) rfl hmem
  obtain rfl := Option.some.inj (hcreature.symm.trans hp)
  exact absurd hnear (by decide)

end TiabloServer.Spectators
