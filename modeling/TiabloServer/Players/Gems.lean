import TiabloServer.Lib.Assoc
import TiabloServer.Lib.Runs

/-!
# Gems of the wheel

The gems of a player (`creatures/players/wheel/player_wheel.cpp`) are kept in two scopes of the
key-value store: the revealed gems by their uuid, and for each affinity the uuid of the active gem.
Six operations edit them, four of which take the index of a gem from the client.

## Main definitions

* `Gems.Sound` — the two scopes refer to each other as they should.
* `Gems.Careful` — the operations that keep them so.

## Main results

* `Gems.stoull_generateUUID` — the uuid of a gem is read as the time at which it was revealed.
* `Gems.sound_step_iff` — an operation keeps the gems sound exactly when it is careful.
* `Gems.run_sound_iff` — the same for whole runs.

## Design

`getGem` gives a default gem for an index that is out of range, with an empty uuid. The coins and
the balance of the player are one sum of gold.
-/

namespace TiabloServer.Gems

/-! ## Uuids -/

abbrev Uuid := List Char

/-- `std::isspace`. -/
def isSpace (c : Char) : Bool := c.toNat == 32 || 9 ≤ c.toNat && c.toNat ≤ 13

/-- The number that digits are, if there are any and it fits 64 bits. -/
def number (digits : List Char) : Option ℕ :=
  if digits = [] then none
  else if Nat.ofDigitChars 10 digits 0 < 2 ^ 64 then some (Nat.ofDigitChars 10 digits 0)
  else none

/-- `std::stoull`, or none where it throws. What follows the digits is not read. -/
def stoull (text : List Char) : Option ℕ :=
  let text := text.dropWhile isSpace
  if text.head? = some '-' then
    (number (text.tail.takeWhile Char.isDigit)).map fun n => (2 ^ 64 - n) % 2 ^ 64
  else if text.head? = some '+' then number (text.tail.takeWhile Char.isDigit)
  else number (text.takeWhile Char.isDigit)

/-- A number after `std::setw` and `std::setfill('0')`. -/
def padded (width n : ℕ) : List Char :=
  List.replicate (width - (Nat.toDigits 10 n).length) '0' ++ Nat.toDigits 10 n

/-- Milliseconds since the epoch, as the clock counts them. -/
abbrev Milliseconds := Fin (2 ^ 63)

/-- The static fields of `KV`. -/
structure Generator where
  lastTimestamp : ℕ
  counter : UInt64
  deriving DecidableEq

/-- `KV::generateUUID`. -/
def generateUUID (generator : Generator) (now : Milliseconds) : Uuid × Generator :=
  let generator :=
    if now ≠ generator.lastTimestamp then ⟨now, 0⟩
    else { generator with counter := generator.counter + 1 }
  (padded 20 now ++ '-' :: padded 12 generator.counter.toNat, generator)

theorem isDigit_padded {width n : ℕ} {c : Char} (h : c ∈ padded width n) : c.isDigit = true := by
  rcases List.mem_append.1 h with hzero | hdigit
  · rw [List.eq_of_mem_replicate hzero]
    decide
  · exact Nat.isDigit_of_mem_toDigits (by omega) (by omega) hdigit

theorem ofDigitChars_padded (width n : ℕ) : Nat.ofDigitChars 10 (padded width n) 0 = n := by
  rw [padded, Nat.ofDigitChars_append, Nat.ofDigitChars_replicate_zero, mul_zero,
    Nat.ofDigitChars_ten_toDigits]

theorem padded_ne_nil (width n : ℕ) : padded width n ≠ [] := by
  simp [padded]

/-- A digit is no space and no sign. -/
theorem isSpace_of_isDigit {c : Char} (h : c.isDigit = true) : isSpace c = false ∧ c ≠ '-' ∧ c ≠ '+' := by
  simp only [Char.isDigit, Bool.and_eq_true, decide_eq_true_eq, UInt32.le_iff_toNat_le] at h
  refine ⟨?_, ?_, ?_⟩
  · have hlow : 48 ≤ c.toNat := h.1
    simp only [isSpace, Bool.or_eq_false_iff, Bool.and_eq_false_iff, beq_eq_false_iff_ne,
      decide_eq_false_iff_not]
    omega
  · rintro rfl
    exact absurd h.1 (by decide)
  · rintro rfl
    exact absurd h.1 (by decide)

/-- Digits are read up to the first character that is none. -/
theorem stoull_digits {digits rest : List Char} (hne : digits ≠ [])
    (hdigits : ∀ c ∈ digits, c.isDigit = true) (hrest : ∀ c, rest.head? = some c → c.isDigit = false) :
    stoull (digits ++ rest) = number digits := by
  obtain ⟨c, tail, rfl⟩ := List.exists_cons_of_ne_nil hne
  obtain ⟨hspace, hminus, hplus⟩ := isSpace_of_isDigit (hdigits c List.mem_cons_self)
  have htake : ((c :: tail) ++ rest).takeWhile Char.isDigit = c :: tail := by
    rw [List.takeWhile_append_of_pos hdigits]
    cases rest with
    | nil => simp
    | cons d rest => rw [List.takeWhile_cons_of_neg (by simp [hrest d rfl]), List.append_nil]
  have hdrop : ((c :: tail) ++ rest).dropWhile isSpace = (c :: tail) ++ rest := by
    rw [List.cons_append, List.dropWhile_cons_of_neg (by simp [hspace])]
  rw [stoull, hdrop, List.cons_append, List.head?_cons, if_neg (by simpa using hminus),
    if_neg (by simpa using hplus), ← List.cons_append, htake]

/-- **Uuids are numeric**: the uuid of a gem is read as the time at which it was revealed. -/
theorem stoull_generateUUID (generator : Generator) (now : Milliseconds) :
    stoull (generateUUID generator now).1 = some now.val := by
  have hnow := now.isLt
  rw [generateUUID, stoull_digits (padded_ne_nil _ _) (fun c hc => isDigit_padded hc), number,
    if_neg (padded_ne_nil _ _), ofDigitChars_padded, if_pos (by omega)]
  intro c hc
  obtain rfl := Option.some.inj hc
  decide

theorem generateUUID_ne_nil (generator : Generator) (now : Milliseconds) : (generateUUID generator now).1 ≠ [] := by
  simp [generateUUID]

/-! ## Gems -/

/-- `WheelGemAffinity_t`. -/
inductive WheelGemAffinity where
  | green
  | red
  | blue
  | purple
  deriving DecidableEq, Inhabited

/-- `PlayerWheelGem`. The quality is a byte of the client. -/
structure PlayerWheelGem where
  uuid : Uuid
  locked : Bool
  affinity : WheelGemAffinity
  quality : UInt8
  basicModifier1 : UInt8
  basicModifier2 : UInt8
  supremeModifier : UInt8
  deriving DecidableEq

/-- The gem `{}`. -/
instance : Inhabited PlayerWheelGem := ⟨⟨[], false, .green, 0, 0, 0, 0⟩⟩

def convertWheelGemAffinityToDomain : WheelGemAffinity → WheelGemAffinity
  | .green => .red
  | .red => .purple
  | .blue => .green
  | .purple => .blue

theorem convertWheelGemAffinityToDomain_ne (affinity : WheelGemAffinity) :
    convertWheelGemAffinityToDomain affinity ≠ affinity := by
  cases affinity <;> decide

/-- The scope `revealed` of the store: a map from uuids to gems. -/
structure Revealed where
  entries : List (Uuid × PlayerWheelGem)
  distinct : Assoc.Distinct entries

namespace Revealed

variable (revealed : Revealed)

def keys : List Uuid := revealed.entries.map Prod.fst

def get (uuid : Uuid) : Option PlayerWheelGem := Assoc.get revealed.entries uuid

/-- `PlayerWheelGem::save`. -/
def save (gem : PlayerWheelGem) : Revealed :=
  ⟨Assoc.put revealed.entries gem.uuid gem, revealed.distinct.put _ _⟩

/-- `PlayerWheelGem::remove`. -/
def remove (gem : PlayerWheelGem) : Revealed :=
  ⟨Assoc.erase revealed.entries gem.uuid, revealed.distinct.erase _⟩

/-- `PlayerWheelGem::load`. The uuid of a gem that is read is its key. -/
def load (uuid : Uuid) : PlayerWheelGem :=
  match revealed.get uuid with
  | none => default
  | some gem => { gem with uuid := uuid }

variable {revealed}

theorem get_save (gem : PlayerWheelGem) (uuid : Uuid) :
    (revealed.save gem).get uuid = if uuid = gem.uuid then some gem else revealed.get uuid :=
  Assoc.get_put _ _ _ _

theorem get_remove (gem : PlayerWheelGem) (uuid : Uuid) :
    (revealed.remove gem).get uuid = if uuid = gem.uuid then none else revealed.get uuid :=
  Assoc.get_erase _ _ _

theorem mem_keys {uuid : Uuid} : uuid ∈ revealed.keys ↔ ∃ gem, revealed.get uuid = some gem := by
  constructor
  · intro h
    obtain ⟨p, hp, rfl⟩ := List.mem_map.1 h
    exact ⟨p.2, (Assoc.get_eq_some_iff revealed.distinct).2 hp⟩
  · rintro ⟨gem, h⟩
    exact List.mem_map.2 ⟨_, Assoc.mem_of_get h, rfl⟩

theorem load_of_get {uuid : Uuid} {gem : PlayerWheelGem} (h : revealed.get uuid = some gem) :
    revealed.load uuid = { gem with uuid := uuid } := by
  rw [load, h]

end Revealed

/-- An order in which the store gives its keys: any. -/
structure KeysOrder where
  arrange : List Uuid → List Uuid
  perm : ∀ l, (arrange l).Perm l

/-- The comparison of the sort in `getRevealedGems`. -/
def notLater (a b : Uuid) : Bool := (stoull a).getD 0 ≤ (stoull b).getD 0

/-- `PlayerWheel::getRevealedGems`, or none where it throws: of two keys or more each is compared,
and a single one is not. -/
def getRevealedGems (order : KeysOrder) (revealed : Revealed) : Option (List PlayerWheelGem) :=
  let unlockedGemUUIDs := order.arrange revealed.keys
  if 2 ≤ unlockedGemUUIDs.length ∧ ∃ uuid ∈ unlockedGemUUIDs, stoull uuid = none then none
  else
    some (((unlockedGemUUIDs.mergeSort notLater).map revealed.load).filter fun gem => gem.uuid ≠ [])

/-- `PlayerWheel::getGem`. -/
def getGem (order : KeysOrder) (revealed : Revealed) (index : UInt8) : Option PlayerWheelGem :=
  (getRevealedGems order revealed).map fun gems => gems.getD index.toNat default

/-! ## Operations -/

/-- What the vocation and the configuration say about gems. -/
structure Rules where
  getWheelGemId : UInt8 → UInt16
  supremeGemModifiers : List UInt8
  revealLesserCost : ℕ
  revealRegularCost : ℕ
  revealGreaterCost : ℕ
  rotateLesserCost : ℕ
  rotateRegularCost : ℕ
  rotateGreaterCost : ℕ

/-- `PlayerWheel::getGemRevealCost`. -/
def getGemRevealCost (rules : Rules) (quality : UInt8) : ℕ :=
  if quality = 0 then rules.revealLesserCost
  else if quality = 1 then rules.revealRegularCost
  else if quality = 2 then rules.revealGreaterCost
  else 0

/-- `PlayerWheel::getGemRotateCost`. -/
def getGemRotateCost (rules : Rules) (quality : UInt8) : ℕ :=
  if quality = 0 then rules.rotateLesserCost
  else if quality = 1 then rules.rotateRegularCost
  else if quality = 2 then rules.rotateGreaterCost
  else 0

/-- What the random numbers of a new gem come to. -/
structure Draw where
  affinity : WheelGemAffinity
  basicModifier1 : UInt8
  basicModifier2 : UInt8
  supremeModifier : UInt8

/-- The gem that `revealGem` makes. -/
def newGem (rules : Rules) (uuid : Uuid) (quality : UInt8) (draw : Draw) : PlayerWheelGem where
  uuid := uuid
  locked := false
  affinity := draw.affinity
  quality := quality
  basicModifier1 := draw.basicModifier1
  basicModifier2 := if quality ≥ 1 then draw.basicModifier2 else 0
  supremeModifier :=
    if quality ≥ 2 ∧ rules.supremeGemModifiers ≠ [] then draw.supremeModifier else 0

/-- The two scopes of the store, and the uuids that `revealGem` has stored. -/
structure Store where
  revealed : Revealed
  active : WheelGemAffinity → Option Uuid
  made : List Uuid

/-- A player: the gems, the gold, the items that gems are revealed from, and the generator of
uuids. -/
structure State where
  store : Store
  gold : ℕ
  items : UInt16 → ℕ
  generator : Generator

/-- `Game::removeMoney`, with the balance. -/
def removeMoney (gold money : ℕ) : Option ℕ := if gold < money then none else some (gold - money)

/-- `Player::removeItemCountById` of one item. -/
def removeItemCountById (items : UInt16 → ℕ) (itemId : UInt16) : Option (UInt16 → ℕ) :=
  if items itemId = 0 then none else some (Function.update items itemId (items itemId - 1))

section Operations

variable (rules : Rules) (order : KeysOrder) (s : State)

/-- `PlayerWheel::revealGem`. -/
def revealGem (quality : UInt8) (now : Milliseconds) (draw : Draw) : State :=
  let gemId := rules.getWheelGemId quality
  if gemId = 0 then s
  else if s.items gemId = 0 then s
  else
    match removeMoney s.gold (getGemRevealCost rules quality) with
    | none => s
    | some gold =>
      match removeItemCountById s.items gemId with
      | none => { s with gold := gold }
      | some items =>
        let (uuid, generator) := generateUUID s.generator now
        ⟨⟨s.store.revealed.save (newGem rules uuid quality draw), s.store.active,
          uuid :: s.store.made⟩, gold, items, generator⟩

/-- The gems are saved by one of the other operations. -/
def State.setRevealed (revealed : Revealed) : State :=
  { s with store := { s.store with revealed := revealed } }

/-- `PlayerWheel::destroyGem`, of the gem that `getGem` gives. -/
def destroyGem (gem : PlayerWheelGem) : State :=
  if gem.locked then s else s.setRevealed (s.store.revealed.remove gem)

/-- `PlayerWheel::switchGemDomain`. -/
def switchGemDomain (gem : PlayerWheelGem) : State :=
  if gem.locked then s
  else
    match removeMoney s.gold (getGemRotateCost rules gem.quality) with
    | none => s
    | some gold =>
      { s.setRevealed (s.store.revealed.save
          { gem with affinity := convertWheelGemAffinityToDomain gem.affinity }) with gold := gold }

/-- `PlayerWheel::toggleGemLock`. -/
def toggleGemLock (gem : PlayerWheelGem) : State :=
  s.setRevealed (s.store.revealed.save { gem with locked := !gem.locked })

/-- `PlayerWheel::setActiveGem`. -/
def setActiveGem (affinity : WheelGemAffinity) (gem : PlayerWheelGem) : State :=
  if gem.uuid = [] then s
  else if gem.affinity ≠ affinity then s
  else { s with store.active := Function.update s.store.active affinity (some gem.uuid) }

/-- `PlayerWheel::removeActiveGem`. -/
def removeActiveGem (affinity : WheelGemAffinity) : State :=
  { s with store.active := Function.update s.store.active affinity none }

/-- An operation. -/
inductive Step where
  | revealGem (quality : UInt8) (now : Milliseconds) (draw : Draw)
  | destroyGem (index : UInt8)
  | switchGemDomain (index : UInt8)
  | toggleGemLock (index : UInt8)
  | setActiveGem (affinity : WheelGemAffinity) (index : UInt8)
  | removeActiveGem (affinity : WheelGemAffinity)

/-- What is done with the gem of an index; where `getGem` throws, nothing is. -/
def withGem (index : UInt8) (f : PlayerWheelGem → State) : State :=
  match getGem order s.store.revealed index with
  | none => s
  | some gem => f gem

/-- The state after an operation. -/
def step : Step → State
  | .revealGem quality now draw => revealGem rules s quality now draw
  | .destroyGem index => withGem order s index (destroyGem s)
  | .switchGemDomain index => withGem order s index (switchGemDomain rules s)
  | .toggleGemLock index => withGem order s index (toggleGemLock s)
  | .setActiveGem affinity index => withGem order s index (setActiveGem s affinity)
  | .removeActiveGem affinity => removeActiveGem s affinity

end Operations

/-! ## Sound gems -/

/-- The gems of a player are sound: those that are stored are numbered and were revealed, those that
are active are stored, with the affinity for which they are active, and the gems can be read. -/
structure Sound (order : KeysOrder) (store : Store) : Prop where
  keys : ∀ uuid ∈ store.revealed.keys, uuid ≠ [] ∧ stoull uuid ≠ none ∧ uuid ∈ store.made
  active : ∀ affinity uuid, store.active affinity = some uuid →
    ∃ gem, store.revealed.get uuid = some gem ∧ gem.affinity = affinity
  single : ∀ affinity affinity' uuid, store.active affinity = some uuid →
    store.active affinity' = some uuid → affinity = affinity'
  readable : getRevealedGems order store.revealed ≠ none

/-- Gold that a step takes is for a gem that it changes. -/
def Paid (s s' : State) : Prop :=
  s'.gold < s.gold → ∃ uuid, uuid ≠ [] ∧ s'.store.revealed.get uuid ≠ s.store.revealed.get uuid

/-- The gem is the active one of no affinity. -/
def Idle (store : Store) (gem : PlayerWheelGem) : Prop :=
  ∀ affinity, store.active affinity ≠ some gem.uuid

/-- A new gem that takes the place of none, as far as it can be seen: an active gem of its uuid has
its affinity, and a gem of its uuid differs unless it is free. -/
def Fresh (store : Store) (cost : ℕ) (gem : PlayerWheelGem) : Prop :=
  (∀ affinity, store.active affinity = some gem.uuid → gem.affinity = affinity) ∧
    (cost = 0 ∨ store.revealed.get gem.uuid ≠ some gem)

/-- An operation that is careful: a gem that is revealed is fresh, one that is destroyed or switched
is idle, and the index of one that is switched or of which the lock is toggled is in range. -/
def Careful (rules : Rules) (order : KeysOrder) (s : State) : Step → Prop
  | .revealGem quality now draw =>
    rules.getWheelGemId quality ≠ 0 → s.items (rules.getWheelGemId quality) ≠ 0 →
      getGemRevealCost rules quality ≤ s.gold →
        Fresh s.store (getGemRevealCost rules quality)
          (newGem rules (generateUUID s.generator now).1 quality draw)
  | .destroyGem index =>
    ∀ gem, getGem order s.store.revealed index = some gem → gem.locked = false → Idle s.store gem
  | .switchGemDomain index =>
    ∀ gem, getGem order s.store.revealed index = some gem → gem.locked = false →
      getGemRotateCost rules gem.quality ≤ s.gold → gem.uuid ≠ [] ∧ Idle s.store gem
  | .toggleGemLock index => ∀ gem, getGem order s.store.revealed index = some gem → gem.uuid ≠ []
  | .setActiveGem _ _ => True
  | .removeActiveGem _ => True

section Steps

variable {rules : Rules} {order : KeysOrder} {store : Store}

/-- Gems with numbered uuids can be read. -/
theorem getRevealedGems_of_keys {revealed : Revealed} (h : ∀ uuid ∈ revealed.keys, stoull uuid ≠ none) :
    getRevealedGems order revealed =
      some ((((order.arrange revealed.keys).mergeSort notLater).map revealed.load).filter
        fun gem => gem.uuid ≠ []) := by
  rw [getRevealedGems, if_neg]
  rintro ⟨-, uuid, hmem, hnone⟩
  exact h uuid ((order.perm _).mem_iff.1 hmem) hnone

/-- Gems are sound when those that are stored are numbered and were revealed and those that are
active are stored with their affinity. -/
theorem Sound.of_keys (keys : ∀ uuid ∈ store.revealed.keys, uuid ≠ [] ∧ stoull uuid ≠ none ∧ uuid ∈ store.made)
    (active : ∀ affinity uuid, store.active affinity = some uuid →
      ∃ gem, store.revealed.get uuid = some gem ∧ gem.affinity = affinity) : Sound order store where
  keys := keys
  active := active
  single affinity affinity' uuid h h' := by
    obtain ⟨gem, hget, rfl⟩ := active affinity uuid h
    obtain ⟨gem', hget', rfl⟩ := active affinity' uuid h'
    rw [hget] at hget'
    rw [Option.some.inj hget']
  readable := by
    rw [getRevealedGems_of_keys fun uuid hmem => (keys uuid hmem).2.1]
    exact Option.some_ne_none _

/-- A gem of sound ones is read, and is the default gem or one that is stored. -/
theorem Sound.getGem (h : Sound order store) (index : UInt8) :
    ∃ gem, getGem order store.revealed index = some gem ∧
      (gem = default ∨ ∃ stored, store.revealed.get gem.uuid = some stored ∧
        gem = { stored with uuid := gem.uuid }) := by
  refine ⟨_, by rw [Gems.getGem, getRevealedGems_of_keys fun uuid hmem => (h.keys uuid hmem).2.1,
    Option.map_some], ?_⟩
  set gems := (((order.arrange store.revealed.keys).mergeSort notLater).map store.revealed.load).filter
    fun gem => gem.uuid ≠ [] with hgems
  rcases lt_or_ge index.toNat gems.length with hlt | hge
  · right
    rw [List.getD_eq_getElem _ _ hlt]
    have hmem : gems[index.toNat] ∈ gems := List.getElem_mem hlt
    generalize gems[index.toNat] = gem at hmem
    obtain ⟨uuid, huuid, rfl⟩ := List.mem_map.1 (List.mem_filter.1 hmem).1
    have hkey : uuid ∈ store.revealed.keys :=
      (order.perm _).mem_iff.1 ((List.mergeSort_perm _ _).mem_iff.1 huuid)
    obtain ⟨stored, hget⟩ := Revealed.mem_keys.1 hkey
    rw [Revealed.load_of_get hget]
    exact ⟨stored, hget, rfl⟩
  · left
    rw [List.getD_eq_default _ _ hge]

/-- Saving a gem under a numbered uuid keeps gems sound exactly when the gem is of the affinity for
which it is active. -/
theorem Sound.save_iff (h : Sound order store) {gem : PlayerWheelGem} {made : List Uuid}
    (hgem : gem.uuid ≠ [] ∧ stoull gem.uuid ≠ none ∧ gem.uuid ∈ made) (hmade : store.made ⊆ made) :
    Sound order ⟨store.revealed.save gem, store.active, made⟩ ↔
      ∀ affinity, store.active affinity = some gem.uuid → gem.affinity = affinity := by
  constructor
  · intro hsound affinity hactive
    obtain ⟨gem', hget, haffinity⟩ := hsound.active affinity _ hactive
    rw [Revealed.get_save, if_pos rfl] at hget
    rwa [Option.some.inj hget]
  · intro haffinity
    refine Sound.of_keys (fun uuid hmem => ?_) fun affinity uuid hactive => ?_
    · obtain ⟨stored, hget⟩ := Revealed.mem_keys.1 hmem
      rw [Revealed.get_save] at hget
      split_ifs at hget with heq
      · rw [heq]
        exact hgem
      · obtain ⟨hne, hnumber, hold⟩ := h.keys uuid (Revealed.mem_keys.2 ⟨stored, hget⟩)
        exact ⟨hne, hnumber, hmade hold⟩
    · simp only [Revealed.get_save]
      split_ifs with heq
      · exact ⟨gem, rfl, haffinity affinity (heq ▸ hactive)⟩
      · exact h.active affinity uuid hactive

/-- Gems with an empty uuid among them are not sound. -/
theorem not_sound_save {gem : PlayerWheelGem} {active : WheelGemAffinity → Option Uuid}
    {made : List Uuid} (hgem : gem.uuid = []) : ¬ Sound order ⟨store.revealed.save gem, active, made⟩ := by
  intro h
  refine (h.keys gem.uuid (Revealed.mem_keys.2 ⟨gem, ?_⟩)).1 hgem
  rw [Revealed.get_save, if_pos rfl]

/-- Removing a gem keeps gems sound exactly when it is idle. -/
theorem Sound.remove_iff (h : Sound order store) (gem : PlayerWheelGem) :
    Sound order { store with revealed := store.revealed.remove gem } ↔ Idle store gem := by
  constructor
  · intro hsound affinity hactive
    obtain ⟨stored, hget, -⟩ := hsound.active affinity _ hactive
    rw [Revealed.get_remove, if_pos rfl] at hget
    cases hget
  · intro hidle
    refine Sound.of_keys (fun uuid hmem => ?_) fun affinity uuid hactive => ?_
    · obtain ⟨stored, hget⟩ := Revealed.mem_keys.1 hmem
      rw [Revealed.get_remove] at hget
      split_ifs at hget
      exact h.keys uuid (Revealed.mem_keys.2 ⟨stored, hget⟩)
    · have hne : uuid ≠ gem.uuid := by
        rintro rfl
        exact hidle affinity hactive
      simp only [Revealed.get_remove, if_neg hne]
      exact h.active affinity uuid hactive

/-- A gem that is stored is made the active one of its affinity. -/
theorem Sound.activate (h : Sound order store) {affinity : WheelGemAffinity} {gem : PlayerWheelGem}
    {uuid : Uuid} (hget : store.revealed.get uuid = some gem) (haffinity : gem.affinity = affinity) :
    Sound order { store with active := Function.update store.active affinity (some uuid) } := by
  refine Sound.of_keys h.keys fun affinity' uuid' hactive => ?_
  change Function.update store.active affinity (some uuid) affinity' = some uuid' at hactive
  by_cases heq : affinity' = affinity
  · rw [heq, Function.update_self] at hactive
    obtain rfl := Option.some.inj hactive
    exact ⟨gem, hget, haffinity.trans heq.symm⟩
  · rw [Function.update_of_ne heq] at hactive
    exact h.active affinity' uuid' hactive

/-- No gem is active for an affinity any more. -/
theorem Sound.deactivate (h : Sound order store) (affinity : WheelGemAffinity) :
    Sound order { store with active := Function.update store.active affinity none } := by
  refine Sound.of_keys h.keys fun affinity' uuid hactive => ?_
  change Function.update store.active affinity none affinity' = some uuid at hactive
  by_cases heq : affinity' = affinity
  · rw [heq, Function.update_self] at hactive
    cases hactive
  · rw [Function.update_of_ne heq] at hactive
    exact h.active affinity' uuid hactive

/-! ### The operations -/

variable {s : State}

/-- A step that takes no gold is paid. -/
theorem Paid.of_gold {s' : State} (h : s'.gold = s.gold) : Paid s s' :=
  fun hlt => absurd hlt (by omega)

/-- A step that saves another gem than the one that is stored is paid. -/
theorem Paid.of_save {s' : State} {gem : PlayerWheelGem} (hne : gem.uuid ≠ [])
    (hsave : s'.store.revealed = s.store.revealed.save gem)
    (hget : s.store.revealed.get gem.uuid ≠ some gem) : Paid s s' := by
  refine fun _ => ⟨gem.uuid, hne, ?_⟩
  rw [hsave, Revealed.get_save, if_pos rfl]
  exact hget.symm

/-- `revealGem` keeps gems sound and is paid exactly when the new gem is fresh. -/
theorem revealGem_iff (h : Sound order s.store) (quality : UInt8) (now : Milliseconds) (draw : Draw) :
    Sound order (revealGem rules s quality now draw).store ∧ Paid s (revealGem rules s quality now draw) ↔
      Careful rules order s (.revealGem quality now draw) := by
  have hsame : Sound order s.store ∧ Paid s s := ⟨h, Paid.of_gold rfl⟩
  rw [revealGem, Careful]
  by_cases hid : rules.getWheelGemId quality = 0
  · rw [if_pos hid]
    exact iff_of_true hsame fun hne => absurd hid hne
  · by_cases hitems : s.items (rules.getWheelGemId quality) = 0
    · rw [if_neg hid, if_pos hitems]
      exact iff_of_true hsame fun _ hne => absurd hitems hne
    · rw [if_neg hid, if_neg hitems]
      by_cases hgold : s.gold < getGemRevealCost rules quality
      · rw [removeMoney, if_pos hgold]
        exact iff_of_true hsame fun _ _ hle => absurd hgold (by omega)
      · rw [removeMoney, if_neg hgold, removeItemCountById, if_neg hitems]
        set gem := newGem rules (generateUUID s.generator now).1 quality draw with hgem
        have hne : gem.uuid ≠ [] := generateUUID_ne_nil _ _
        have hnumber : stoull gem.uuid ≠ none := by
          rw [hgem, newGem, stoull_generateUUID]
          exact Option.some_ne_none _
        have hproper : gem.uuid ≠ [] ∧ stoull gem.uuid ≠ none ∧ gem.uuid ∈ gem.uuid :: s.store.made :=
          ⟨hne, hnumber, List.mem_cons_self⟩
        have hsound := h.save_iff hproper (List.subset_cons_self _ _)
        constructor
        · rintro ⟨hsaved, hpaid⟩ - - -
          refine ⟨hsound.1 hsaved, or_iff_not_imp_left.2 fun hcost => ?_⟩
          obtain ⟨uuid, -, hchanged⟩ := hpaid (show s.gold - _ < s.gold by omega)
          intro hget
          refine hchanged ?_
          change (s.store.revealed.save gem).get uuid = _
          rw [Revealed.get_save]
          split_ifs with heq
          · rw [heq, hget]
          · rfl
        · intro hfresh
          obtain ⟨hactive, hget⟩ := hfresh hid hitems (by omega)
          refine ⟨hsound.2 hactive, ?_⟩
          rcases hget with hcost | hget
          · exact Paid.of_gold (by simp [hcost])
          · exact Paid.of_save hne rfl hget

/-- `destroyGem` keeps gems sound exactly when the gem is locked or idle. -/
theorem destroyGem_iff (h : Sound order s.store) (gem : PlayerWheelGem) :
    Sound order (destroyGem s gem).store ∧ Paid s (destroyGem s gem) ↔ (gem.locked = false → Idle s.store gem) := by
  rw [destroyGem]
  by_cases hlocked : gem.locked = true
  · rw [if_pos hlocked]
    exact iff_of_true ⟨h, Paid.of_gold rfl⟩ fun hfalse => by simp [hlocked] at hfalse
  · rw [if_neg hlocked]
    constructor
    · exact fun hsound _ => (h.remove_iff gem).1 hsound.1
    · exact fun hidle => ⟨(h.remove_iff gem).2 (hidle (by simpa using hlocked)), Paid.of_gold rfl⟩

/-- `switchGemDomain` keeps gems sound and is paid exactly when the gem is locked, too expensive, or
one that is stored and idle. -/
theorem switchGemDomain_iff (h : Sound order s.store) {gem : PlayerWheelGem}
    (hgem : gem = default ∨ ∃ stored, s.store.revealed.get gem.uuid = some stored ∧
      gem = { stored with uuid := gem.uuid }) :
    Sound order (switchGemDomain rules s gem).store ∧ Paid s (switchGemDomain rules s gem) ↔
      (gem.locked = false → getGemRotateCost rules gem.quality ≤ s.gold →
        gem.uuid ≠ [] ∧ Idle s.store gem) := by
  rw [switchGemDomain]
  by_cases hlocked : gem.locked = true
  · rw [if_pos hlocked]
    exact iff_of_true ⟨h, Paid.of_gold rfl⟩ fun hfalse => by simp [hlocked] at hfalse
  · rw [if_neg hlocked]
    by_cases hgold : s.gold < getGemRotateCost rules gem.quality
    · rw [removeMoney, if_pos hgold]
      exact iff_of_true ⟨h, Paid.of_gold rfl⟩ fun _ hle => absurd hgold (by omega)
    · rw [removeMoney, if_neg hgold]
      rcases hgem with rfl | ⟨stored, hget, hstored⟩
      · refine iff_of_false (fun hsound => not_sound_save rfl hsound.1) fun hsafe => ?_
        exact (hsafe rfl (by omega)).1 rfl
      · obtain ⟨hne, hnumber, hmade⟩ := h.keys _ (Revealed.mem_keys.2 ⟨stored, hget⟩)
        set switched : PlayerWheelGem :=
          { gem with affinity := convertWheelGemAffinityToDomain gem.affinity } with hswitched
        have haffinity : stored.affinity = gem.affinity := by rw [hstored]
        have hproper : switched.uuid ≠ [] ∧ stoull switched.uuid ≠ none ∧ switched.uuid ∈ s.store.made :=
          ⟨hne, hnumber, hmade⟩
        have hsound := h.save_iff hproper (List.Subset.refl _)
        -- an active gem has its affinity, which is not the one that it is switched to
        have hidle : (∀ affinity, s.store.active affinity = some gem.uuid →
            switched.affinity = affinity) ↔ Idle s.store gem := by
          constructor
          · intro hactive affinity hsome
            obtain ⟨stored', hget', rfl⟩ := h.active affinity _ hsome
            rw [hget] at hget'
            obtain rfl := Option.some.inj hget'
            have hsame := hactive _ hsome
            rw [haffinity] at hsame
            exact convertWheelGemAffinityToDomain_ne _ hsame
          · exact fun hidle affinity hsome => absurd hsome (hidle affinity)
        constructor
        · exact fun hsaved _ _ => ⟨hne, hidle.1 (hsound.1 hsaved.1)⟩
        · intro hsafe
          have hready := hsafe (by simpa using hlocked) (by omega)
          have hother : s.store.revealed.get switched.uuid ≠ some switched := by
            change s.store.revealed.get gem.uuid ≠ some switched
            rw [hget]
            intro heq
            have hsame := congrArg PlayerWheelGem.affinity (Option.some.inj heq)
            rw [haffinity] at hsame
            exact convertWheelGemAffinityToDomain_ne _ hsame.symm
          exact ⟨hsound.2 (hidle.2 hready.2), Paid.of_save hproper.1 rfl hother⟩

/-- `toggleGemLock` keeps gems sound exactly when the gem is one that is stored. -/
theorem toggleGemLock_iff (h : Sound order s.store) {gem : PlayerWheelGem}
    (hgem : gem = default ∨ ∃ stored, s.store.revealed.get gem.uuid = some stored ∧
      gem = { stored with uuid := gem.uuid }) :
    Sound order (toggleGemLock s gem).store ∧ Paid s (toggleGemLock s gem) ↔ gem.uuid ≠ [] := by
  rcases hgem with rfl | ⟨stored, hget, hstored⟩
  · exact iff_of_false (fun hsound => not_sound_save rfl hsound.1) fun hne => hne rfl
  · have hkey := h.keys _ (Revealed.mem_keys.2 ⟨stored, hget⟩)
    refine iff_of_true ⟨?_, Paid.of_gold rfl⟩ hkey.1
    set toggled : PlayerWheelGem := { gem with locked := !gem.locked } with htoggled
    have hproper : toggled.uuid ≠ [] ∧ stoull toggled.uuid ≠ none ∧ toggled.uuid ∈ s.store.made := hkey
    refine (h.save_iff hproper (List.Subset.refl _)).2 fun affinity hactive => ?_
    obtain ⟨stored', hget', rfl⟩ := h.active affinity _ hactive
    rw [hget] at hget'
    rw [htoggled, ← Option.some.inj hget', hstored]

/-- `setActiveGem` keeps gems sound. -/
theorem sound_setActiveGem (h : Sound order s.store) {gem : PlayerWheelGem}
    (hgem : gem = default ∨ ∃ stored, s.store.revealed.get gem.uuid = some stored ∧
      gem = { stored with uuid := gem.uuid }) (affinity : WheelGemAffinity) :
    Sound order (setActiveGem s affinity gem).store ∧ Paid s (setActiveGem s affinity gem) := by
  rw [setActiveGem]
  split_ifs with hempty haffinity
  · exact ⟨h, Paid.of_gold rfl⟩
  · exact ⟨h, Paid.of_gold rfl⟩
  · rcases hgem with rfl | ⟨stored, hget, hstored⟩
    · exact absurd rfl hempty
    · refine ⟨h.activate hget ?_, Paid.of_gold rfl⟩
      rw [← not_not.1 haffinity, hstored]

/-- **An operation keeps the gems sound** and takes gold for a gem exactly when it is careful. -/
theorem sound_step_iff (h : Sound order s.store) (a : Step) :
    Sound order (step rules order s a).store ∧ Paid s (step rules order s a) ↔ Careful rules order s a := by
  cases a with
  | revealGem quality now draw => exact revealGem_iff h quality now draw
  | destroyGem index =>
    obtain ⟨gem, hget, -⟩ := h.getGem index
    simp only [step, withGem, Careful, hget, Option.some.injEq, forall_eq']
    exact destroyGem_iff h gem
  | switchGemDomain index =>
    obtain ⟨gem, hget, hgem⟩ := h.getGem index
    simp only [step, withGem, Careful, hget, Option.some.injEq, forall_eq']
    exact switchGemDomain_iff h hgem
  | toggleGemLock index =>
    obtain ⟨gem, hget, hgem⟩ := h.getGem index
    simp only [step, withGem, Careful, hget, Option.some.injEq, forall_eq']
    exact toggleGemLock_iff h hgem
  | setActiveGem affinity index =>
    obtain ⟨gem, hget, hgem⟩ := h.getGem index
    simp only [step, withGem, hget]
    exact iff_of_true (sound_setActiveGem h hgem affinity) trivial
  | removeActiveGem affinity =>
    exact iff_of_true ⟨h.deactivate affinity, Paid.of_gold rfl⟩ trivial

end Steps

/-! ## Runs -/

section Runs

/-- A player without gems. -/
def newcomer (gold : ℕ) (items : UInt16 → ℕ) (generator : Generator) : State :=
  ⟨⟨⟨[], List.nodup_nil⟩, fun _ => none, []⟩, gold, items, generator⟩

/-- **Sound gems.** All states of a run from a player without gems have sound gems, and all its
steps take gold only for a gem that they change, if and only if all operations of the run are
careful.

**Proof sketch.** In a state with sound gems each operation finds the default gem or one that is
stored. A gem that is saved is then numbered unless it is the default one, and the active gems keep
what they refer to unless one of them is removed or gets another affinity. -/
theorem run_sound_iff (rules : Rules) (order : KeysOrder) (gold : ℕ) (items : UInt16 → ℕ)
    (generator : Generator) (l : List Step) :
    ((∀ m, m <+: l →
        Sound order (Runs.run (step rules order) (newcomer gold items generator) m).store) ∧
      ∀ m a, m ++ [a] <+: l →
        Paid (Runs.run (step rules order) (newcomer gold items generator) m)
          (Runs.run (step rules order) (newcomer gold items generator) (m ++ [a]))) ↔
      Runs.Meets (step rules order) (Careful rules order) (newcomer gold items generator) l := by
  have hstart : Sound order (newcomer gold items generator).store := by
    refine Sound.of_keys (fun uuid hmem => ?_) fun affinity uuid hactive => ?_
    · cases hmem
    · cases hactive
  simp only [Runs.run_append, Runs.run_cons, Runs.run_nil]
  exact Runs.forall_steps_iff (step rules order) (P := fun s => Sound order s.store)
    (Q := fun s a => Paid s (step rules order s a)) (fun _ a h => sound_step_iff h a) hstart

/-- Gems can be revealed from the item 44602 for 100 gold, and are switched for 50. -/
def atelier : Rules := ⟨fun quality => if quality = 0 then 44602 else 0, [], 100, 0, 0, 50, 0, 0⟩

/-- The keys as they are stored. -/
def stored : KeysOrder := ⟨id, fun _ => List.Perm.refl _⟩

/-- A player with 1000 gold and two items to reveal gems from. -/
def collector : State := newcomer 1000 (fun id => if id = 44602 then 2 else 0) ⟨0, 0⟩

/-- What the random numbers of a green gem come to. -/
def green : Draw := ⟨.green, 0, 0, 0⟩

/-- An index that is out of range stores a gem without a uuid, with which a later gem makes the
reader throw; to switch such a gem is paid for; and a gem that is destroyed stays active. -/
theorem not_run_sound :
    ¬ (∀ l, Sound stored (Runs.run (step atelier stored) collector l).store) ∧
      getRevealedGems stored (Runs.run (step atelier stored) collector
        [.toggleGemLock 0, .revealGem 0 1700000000000 green]).store.revealed = none ∧
      ¬ Paid collector (step atelier stored collector (.switchGemDomain 7)) ∧
      ¬ Sound stored (Runs.run (step atelier stored) collector
        [.revealGem 0 1700000000000 green, .setActiveGem .green 0, .destroyGem 0]).store := by
  refine ⟨fun h => ?_, by decide +kernel, fun h => ?_, fun h => ?_⟩
  · exact ((h [.toggleGemLock 0]).keys [] (by decide +kernel)).1 rfl
  · obtain ⟨uuid, hne, hchanged⟩ := h (by decide +kernel)
    have hentries : (step atelier stored collector (.switchGemDomain 7)).store.revealed.entries =
        [([], { (default : PlayerWheelGem) with affinity := .red })] := by decide +kernel
    refine hchanged ?_
    rw [Revealed.get, hentries, Assoc.get, if_neg hne.symm]
    rfl
  · obtain ⟨gem, hget, -⟩ := h.active .green (generateUUID ⟨0, 0⟩ 1700000000000).1 (by decide +kernel)
    have hnone : (Runs.run (step atelier stored) collector [.revealGem 0 1700000000000 green,
        .setActiveGem .green 0, .destroyGem 0]).store.revealed.get
          (generateUUID ⟨0, 0⟩ 1700000000000).1 = none := by decide +kernel
    rw [hnone] at hget
    cases hget

end Runs

end TiabloServer.Gems
