import TiabloServer.Items.TileStack
import TiabloServer.Map.Position
import TiabloServer.Lib.Runs

/-!
# Zones

A zone (`game/zones/zone.cpp`) has positions, and caches of the things on its tiles; a tile
(`items/tile.cpp`) has the zones that it is in, and tells them of the things that come and go.
`Zone::refresh` brings the tiles of the zone and its caches up to date again.

Zones of the map, which have an id, are left out, and so is the order of the items of a tile.

## Main definitions

* `Zones.Synced` — tiles know their zones, and zones the things on their tiles.
* `Zones.Fair` — the steps that keep it so.

## Main results

* `Zones.cached_refreshZones` — what a zone has cached after one of its tiles has been refreshed.
* `Zones.synced_addArea` — an area that is added leaves everything up to date.
* `Zones.run_synced` — so is everything in every state of a run of fair steps.
-/

namespace TiabloServer.Zones

open TiabloServer.TileStack (Thing)

/-! ## Areas -/

structure Area where
  fromPos : Position
  toPos : Position

namespace Area

variable (area : Area)

/-- `PositionIterator::operator++`. -/
def next (pos : Position) : Position :=
  let pos := { pos with x := pos.x + 1 }
  if pos.x > area.toPos.x then
    let pos := { pos with x := area.fromPos.x, y := pos.y + 1 }
    if pos.y > area.toPos.y then { pos with y := area.fromPos.y, z := pos.z + 1 } else pos
  else pos

/-- `Area::end`. -/
def endPos : Position := { area.fromPos with z := area.toPos.z + 1 }

def walk : ℕ → Position → List Position
  | 0, _ => []
  | n + 1, pos => if pos = area.endPos then [] else pos :: walk n (area.next pos)

/-- The positions of the loops over an area. There are `2 ^ 40` positions: a loop that has not come
to its end by then comes to the same ones for ever. -/
def visited : List Position := area.walk (2 ^ 40) area.fromPos

end Area

/-! ## Tiles and zones -/

inductive CreatureKind where
  | player
  | monster
  | npc
deriving DecidableEq

/-- The caches of a zone. -/
inductive Cache where
  | creaturesCache
  | playersCache
  | monstersCache
  | npcsCache
  | itemsCache
deriving DecidableEq

structure Tile where
  ground : Option ℕ
  items : List ℕ
  creatures : List ℕ
  zones : Finset ℕ

/-- The item list and the creatures of a tile. -/
def Tile.listed (tile : Tile) : List Thing := tile.items.map .item ++ tile.creatures.map .creature

/-- The things of a tile. -/
def Tile.things (tile : Tile) : List Thing := tile.ground.toList.map .item ++ tile.listed

structure Zone where
  positions : List Position
  cache : Cache → Finset Thing

/-- The loaded tiles, all zones, and those that `Zone::zones` has. -/
structure World where
  tiles : Position → Option Tile
  zones : ℕ → Zone
  registered : Finset ℕ

/-- What creatures are, and which items are grounds. -/
structure Rules where
  kind : ℕ → CreatureKind
  isGroundTile : ℕ → Bool

section Operations

variable (rules : Rules)

/-- In which caches a thing is. -/
def files : Thing → Cache → Bool
  | .item _, .itemsCache => true
  | .creature _, .creaturesCache => true
  | .creature c, .playersCache => rules.kind c = .player
  | .creature c, .monstersCache => rules.kind c = .monster
  | .creature c, .npcsCache => rules.kind c = .npc
  | _, _ => false

namespace Zone

variable (zone : Zone)

def addPosition (pos : Position) : Zone := { zone with positions := zone.positions.insert pos }

def removePosition (pos : Position) : Zone := { zone with positions := zone.positions.filter (· ≠ pos) }

/-- `thingAdded`: `itemAdded` or `creatureAdded`. -/
def thingAdded (thing : Thing) : Zone :=
  { zone with
    cache := fun n => if files rules thing n then insert thing (zone.cache n) else zone.cache n }

/-- `itemRemoved` or `creatureRemoved`. -/
def thingRemoved (thing : Thing) : Zone :=
  { zone with
    cache := fun n => if files rules thing n then (zone.cache n).erase thing else zone.cache n }

def clearCaches : Zone := { zone with cache := fun _ => ∅ }

end Zone

variable (w : World)

def World.setTile (pos : Position) (tile : Tile) : World :=
  { w with tiles := Function.update w.tiles pos (some tile) }

/-- Some zones are told something. -/
def World.notify (ids : Finset ℕ) (tell : Zone → Zone) : World :=
  { w with zones := fun z => if z ∈ ids then tell (w.zones z) else w.zones z }

/-- `Zone::getZones` of a position. -/
def getZones (pos : Position) : Finset ℕ := w.registered.filter fun z => pos ∈ (w.zones z).positions

/-- `Tile::clearZones`. -/
def clearZones (pos : Position) (tile : Tile) : World :=
  (w.notify tile.zones fun zone => tile.listed.foldl (Zone.thingRemoved rules) zone).setTile pos
    { tile with zones := ∅ }

/-- `Tile::addZone`, of several zones. -/
def addZones (pos : Position) (tile : Tile) (ids : Finset ℕ) : World :=
  (w.notify ids fun zone => tile.listed.foldl (Zone.thingAdded rules) zone).setTile pos
    { tile with zones := tile.zones ∪ ids }

/-- `Map::refreshZones`. -/
def refreshZones (pos : Position) : World :=
  match w.tiles pos with
  | none => w
  | some tile =>
    let w := clearZones rules w pos tile
    addZones rules w pos { tile with zones := ∅ } (getZones w pos)

/-- `Zone::refresh`. -/
def refresh (z : ℕ) : World :=
  let w := w.notify {z} Zone.clearCaches
  (w.zones z).positions.foldl (refreshZones rules) w

/-- `Zone::addArea`. -/
def addArea (z : ℕ) (area : Area) : World :=
  refresh rules (w.notify {z} fun zone => area.visited.foldl Zone.addPosition zone) z

/-- `Zone::subtractArea`. -/
def subtractArea (z : ℕ) (area : Area) : World :=
  refresh rules (w.notify {z} fun zone => area.visited.foldl Zone.removePosition zone) z

/-! ## Things -/

/-- `Tile::internalAddThing`: the zones are told before it is clear where the thing goes. -/
def internalAddThing (pos : Position) (thing : Thing) : World :=
  match w.tiles pos with
  | none => w
  | some tile =>
    let w := w.notify tile.zones fun zone => zone.thingAdded rules thing
    match thing with
    | .creature c => w.setTile pos { tile with creatures := c :: tile.creatures }
    | .item x =>
      if rules.isGroundTile x then
        if tile.ground = none then w.setTile pos { tile with ground := some x } else w
      else if tile.items.length ≥ 0xFFFF then w
      else w.setTile pos { tile with items := x :: tile.items }

/-- `Tile::removeThing`, of a whole item, with `onRemoveTileItem`. -/
def removeThing (pos : Position) (x : ℕ) : World :=
  match w.tiles pos with
  | none => w
  | some tile =>
    let told := w.notify tile.zones fun zone => zone.thingRemoved rules (.item x)
    if tile.ground = some x then told.setTile pos { tile with ground := none }
    else if x ∈ tile.items then told.setTile pos { tile with items := tile.items.erase x }
    else w

/-- The item list of a tile gets an item. -/
def World.listItem (pos : Position) (x : ℕ) : World :=
  match w.tiles pos with
  | none => w
  | some tile => w.setTile pos { tile with items := x :: tile.items }

/-- `Tile::addThing`, of an item; `old` is the splash or field that goes for it. -/
def addThing (pos : Position) (x : ℕ) (old : Option ℕ) : World :=
  match w.tiles pos with
  | none => w
  | some tile =>
    if tile.items.length ≥ 0xFFFF then w
    else if rules.isGroundTile x then w.setTile pos { tile with ground := some x }
    else
      match old with
      | none => w.listItem pos x
      | some old => (removeThing rules w pos old).listItem pos x

/-- `Tile::replaceThing`, of the item `old`. -/
def replaceThing (pos : Position) (old x : ℕ) : World :=
  match w.tiles pos with
  | none => w
  | some tile =>
    if tile.ground = some old then w.setTile pos { tile with ground := some x }
    else if old ∈ tile.items then w.setTile pos { tile with items := x :: tile.items.erase old }
    else w

/-- `Tile::removeThing`, of a creature. -/
def World.takeCreature (pos : Position) (c : ℕ) : World :=
  match w.tiles pos with
  | none => w
  | some tile => w.setTile pos { tile with creatures := tile.creatures.erase c }

/-- `Tile::addThing`, of a creature. -/
def World.putCreature (pos : Position) (c : ℕ) : World :=
  match w.tiles pos with
  | none => w
  | some tile => w.setTile pos { tile with creatures := c :: tile.creatures }

/-- `Game::afterCreatureZoneChange`. -/
def afterCreatureZoneChange (c : ℕ) (fromZones toZones : Finset ℕ) : World :=
  (w.notify (fromZones \ toZones) fun zone => zone.thingRemoved rules (.creature c)).notify
    (toZones \ fromZones) fun zone => zone.thingAdded rules (.creature c)

/-- `Map::moveCreature`; `allowed` is what `Game::beforeCreatureZoneChange` says. -/
def moveCreature (c : ℕ) (oldPos newPos : Position) (allowed : Bool) : World :=
  match w.tiles oldPos, w.tiles newPos with
  | some oldTile, some newTile =>
    if !allowed then w
    else
      afterCreatureZoneChange rules ((w.takeCreature oldPos c).putCreature newPos c) c oldTile.zones
        newTile.zones
  | _, _ => w

/-- `Game::removeCreature`, of a creature on a tile. -/
def removeCreature (c : ℕ) (pos : Position) : World :=
  match w.tiles pos with
  | none => w
  | some tile => afterCreatureZoneChange rules (w.takeCreature pos c) c tile.zones ∅

inductive Action where
  | addArea (z : ℕ) (area : Area)
  | subtractArea (z : ℕ) (area : Area)
  | refreshZones (pos : Position)
  | internalAddThing (pos : Position) (thing : Thing)
  | addThing (pos : Position) (x : ℕ) (old : Option ℕ)
  | removeThing (pos : Position) (x : ℕ)
  | replaceThing (pos : Position) (old x : ℕ)
  | moveCreature (c : ℕ) (oldPos newPos : Position) (allowed : Bool)
  | removeCreature (c : ℕ) (pos : Position)

def step : Action → World
  | .addArea z area => addArea rules w z area
  | .subtractArea z area => subtractArea rules w z area
  | .refreshZones pos => refreshZones rules w pos
  | .internalAddThing pos thing => internalAddThing rules w pos thing
  | .addThing pos x old => addThing rules w pos x old
  | .removeThing pos x => removeThing rules w pos x
  | .replaceThing pos old x => replaceThing w pos old x
  | .moveCreature c oldPos newPos allowed => moveCreature rules w c oldPos newPos allowed
  | .removeCreature c pos => removeCreature rules w c pos

end Operations

/-! ## The invariant -/

section Invariant

variable (rules : Rules) (w : World)

/-- A thing is in the item list or the creatures of a loaded tile at one of some positions. -/
def Listed (at_ : Position → Prop) (thing : Thing) : Prop :=
  ∃ pos tile, w.tiles pos = some tile ∧ at_ pos ∧ thing ∈ tile.listed

/-- The caches of a zone have the things at some positions. -/
def Cached (z : ℕ) (at_ : Position → Prop) : Prop :=
  ∀ n thing, thing ∈ (w.zones z).cache n ↔ files rules thing n = true ∧ Listed w at_ thing

/-- **Up to date**: a loaded tile has the zones that have its position, and the caches of a zone
have the things that are listed on its loaded tiles. -/
structure Synced : Prop where
  zones : ∀ pos tile, w.tiles pos = some tile → ∀ z ∈ w.registered,
    (z ∈ tile.zones ↔ pos ∈ (w.zones z).positions)
  caches : ∀ z ∈ w.registered, Cached rules w z (· ∈ (w.zones z).positions)

/-- Nothing is on two tiles, or twice on one. -/
structure Placed : Prop where
  nodup : ∀ pos tile, w.tiles pos = some tile → tile.things.Nodup
  unique : ∀ p q tile tile' thing, w.tiles p = some tile → w.tiles q = some tile' → thing ∈ tile.things →
    thing ∈ tile'.things → p = q

/-- A thing is on no tile. -/
def Fresh (thing : Thing) : Prop := ∀ pos tile, w.tiles pos = some tile → thing ∉ tile.things

/-- A tile is in no zone. -/
def Zoneless (tile : Tile) : Prop := ∀ z ∈ w.registered, z ∉ tile.zones

/-- **Fair steps**: what is subtracted from a zone has no loaded tiles; items get into the lists of
the tiles of zones by `internalAddThing` alone, which gets no grounds there and nothing that finds
no place; and what comes is new, and the creatures that go are there. -/
def Fair : Action → Prop
  | .addArea _ _ => True
  | .subtractArea z area => ∀ pos ∈ area.visited, pos ∈ (w.zones z).positions → w.tiles pos = none
  | .refreshZones _ => True
  | .internalAddThing pos thing => Fresh w thing ∧ ∀ tile x, w.tiles pos = some tile → thing = .item x →
      rules.isGroundTile x = true ∨ tile.items.length ≥ 0xFFFF → Zoneless w tile
  | .addThing pos x _ => Fresh w (.item x) ∧ ∀ tile, w.tiles pos = some tile →
      rules.isGroundTile x = false → tile.items.length < 0xFFFF → Zoneless w tile
  | .removeThing _ _ => True
  | .replaceThing pos old x => Fresh w (.item x) ∧ ∀ tile, w.tiles pos = some tile →
      tile.ground ≠ some old → old ∈ tile.items → Zoneless w tile
  | .moveCreature c oldPos _ _ => ∀ tile, w.tiles oldPos = some tile → c ∈ tile.creatures
  | .removeCreature c pos => ∀ tile, w.tiles pos = some tile → c ∈ tile.creatures

end Invariant

/-! ## Caches -/

section Caches

variable {rules : Rules} {w w' : World} {n : Cache} {thing : Thing}

theorem mem_thingAdded {zone : Zone} {a : Thing} : thing ∈ (zone.thingAdded rules a).cache n ↔
    thing = a ∧ files rules a n = true ∨ thing ∈ zone.cache n := by
  rw [Zone.thingAdded]
  dsimp only
  split_ifs with hfile <;> simp [hfile]

theorem mem_thingRemoved {zone : Zone} {a : Thing} : thing ∈ (zone.thingRemoved rules a).cache n ↔
    thing ∈ zone.cache n ∧ ¬ (thing = a ∧ files rules a n = true) := by
  rw [Zone.thingRemoved]
  dsimp only
  split_ifs with hfile
  · rw [Finset.mem_erase, and_comm, and_iff_left hfile]
  · rw [and_iff_left fun h => hfile h.2]

theorem mem_foldl_thingAdded {zone : Zone} {l : List Thing} :
    thing ∈ (l.foldl (Zone.thingAdded rules) zone).cache n ↔
      thing ∈ l ∧ files rules thing n = true ∨ thing ∈ zone.cache n := by
  induction l generalizing zone with
  | nil => simp
  | cons a l ih =>
    rw [List.foldl_cons, ih, mem_thingAdded, List.mem_cons]
    constructor
    · rintro (⟨hmem, hfile⟩ | ⟨rfl, hfile⟩ | hmem)
      · exact Or.inl ⟨Or.inr hmem, hfile⟩
      · exact Or.inl ⟨Or.inl rfl, hfile⟩
      · exact Or.inr hmem
    · rintro (⟨rfl | hmem, hfile⟩ | hmem)
      · exact Or.inr (Or.inl ⟨rfl, hfile⟩)
      · exact Or.inl ⟨hmem, hfile⟩
      · exact Or.inr (Or.inr hmem)

theorem mem_foldl_thingRemoved {zone : Zone} {l : List Thing} :
    thing ∈ (l.foldl (Zone.thingRemoved rules) zone).cache n ↔
      thing ∈ zone.cache n ∧ ¬ (thing ∈ l ∧ files rules thing n = true) := by
  induction l generalizing zone with
  | nil => simp
  | cons a l ih =>
    rw [List.foldl_cons, ih, mem_thingRemoved, List.mem_cons]
    constructor
    · rintro ⟨⟨hmem, hne⟩, hnot⟩
      refine ⟨hmem, ?_⟩
      rintro ⟨rfl | hl, hfile⟩
      · exact hne ⟨rfl, hfile⟩
      · exact hnot ⟨hl, hfile⟩
    · rintro ⟨hmem, hnot⟩
      refine ⟨⟨hmem, ?_⟩, fun h => hnot ⟨Or.inr h.1, h.2⟩⟩
      rintro ⟨rfl, hfile⟩
      exact hnot ⟨Or.inl rfl, hfile⟩

/-- What is told of things does not matter to the positions. -/
theorem positions_foldl {tell : Zone → Thing → Zone} (htell : ∀ zone a, (tell zone a).positions = zone.positions)
    (l : List Thing) (zone : Zone) : (l.foldl tell zone).positions = zone.positions := by
  induction l generalizing zone with
  | nil => rfl
  | cons a l ih => rw [List.foldl_cons, ih, htell]

theorem positions_foldl_thingAdded (rules : Rules) (l : List Thing) (zone : Zone) :
    (l.foldl (Zone.thingAdded rules) zone).positions = zone.positions := by
  have htell : ∀ zone a, (Zone.thingAdded rules zone a).positions = zone.positions := fun _ _ => rfl
  exact positions_foldl htell l zone

theorem positions_foldl_thingRemoved (rules : Rules) (l : List Thing) (zone : Zone) :
    (l.foldl (Zone.thingRemoved rules) zone).positions = zone.positions := by
  have htell : ∀ zone a, (Zone.thingRemoved rules zone a).positions = zone.positions := fun _ _ => rfl
  exact positions_foldl htell l zone

/-- The things are where they were. -/
def SameThings (w w' : World) : Prop :=
  ∀ pos, (w'.tiles pos).map (fun tile => { tile with zones := ∅ }) =
    (w.tiles pos).map fun tile => { tile with zones := ∅ }

theorem SameThings.symm (h : SameThings w w') : SameThings w' w := fun pos => (h pos).symm

theorem SameThings.tile (h : SameThings w w') {pos : Position} {tile' : Tile} (htile : w'.tiles pos = some tile') :
    ∃ tile, w.tiles pos = some tile ∧ tile'.listed = tile.listed ∧ tile'.things = tile.things := by
  have heq := h pos
  rw [htile] at heq
  cases hold : w.tiles pos with
  | none =>
    rw [hold] at heq
    cases heq
  | some tile =>
    rw [hold, Option.map_some, Option.map_some, Option.some.injEq] at heq
    have hground := congrArg Tile.ground heq
    have hitems := congrArg Tile.items heq
    have hcreatures := congrArg Tile.creatures heq
    dsimp only at hground hitems hcreatures
    refine ⟨tile, rfl, ?_, ?_⟩
    · rw [Tile.listed, hitems, hcreatures, Tile.listed]
    · rw [Tile.things, Tile.listed, hground, hitems, hcreatures, Tile.things, Tile.listed]

theorem SameThings.listed (h : SameThings w w') {at_ : Position → Prop} (hlisted : Listed w' at_ thing) :
    Listed w at_ thing := by
  obtain ⟨pos, tile', htile, hat, hmem⟩ := hlisted
  obtain ⟨tile, hold, heq, -⟩ := h.tile htile
  exact ⟨pos, tile, hold, hat, heq ▸ hmem⟩

theorem SameThings.listed_iff (h : SameThings w w') {at_ : Position → Prop} :
    Listed w' at_ thing ↔ Listed w at_ thing := ⟨h.listed, h.symm.listed⟩

theorem Placed.of_sameThings (h : Placed w) (hsame : SameThings w w') : Placed w' where
  nodup pos tile' htile := by
    obtain ⟨tile, hold, -, hthings⟩ := hsame.tile htile
    rw [hthings]
    exact h.nodup pos tile hold
  unique p q tile tile' thing hp hq hmem hmem' := by
    obtain ⟨old, hold, -, hthings⟩ := hsame.tile hp
    obtain ⟨old', hold', -, hthings'⟩ := hsame.tile hq
    exact h.unique p q old old' thing hold hold' (hthings ▸ hmem) (hthings' ▸ hmem')

theorem mem_things_of_listed {tile : Tile} (h : thing ∈ tile.listed) : thing ∈ tile.things :=
  List.mem_append_right _ h

theorem Cached.congr {z : ℕ} {at_ at' : Position → Prop} (h : Cached rules w z at_)
    (hat : ∀ pos, at_ pos ↔ at' pos) : Cached rules w z at' := by
  have heq : at_ = at' := funext fun pos => propext (hat pos)
  rwa [heq] at h

end Caches

/-! ## Refreshing -/

section Refresh

variable {rules : Rules} {w : World} {pos : Position} {tile : Tile}

theorem mem_getZones {z : ℕ} : z ∈ getZones w pos ↔ z ∈ w.registered ∧ pos ∈ (w.zones z).positions :=
  Finset.mem_filter

theorem getZones_clearZones (pos' : Position) : getZones (clearZones rules w pos tile) pos' = getZones w pos' := by
  refine Finset.filter_congr fun z _ => ?_
  rw [clearZones, World.setTile, World.notify]
  dsimp only
  split_ifs
  · rw [positions_foldl_thingRemoved]
  · exact Iff.rfl

theorem refreshZones_none (h : w.tiles pos = none) : refreshZones rules w pos = w := by
  rw [refreshZones, h]

theorem tiles_refreshZones (h : w.tiles pos = some tile) : (refreshZones rules w pos).tiles =
    Function.update w.tiles pos (some { tile with zones := getZones w pos }) := by
  rw [refreshZones, h]
  dsimp only
  rw [getZones_clearZones, addZones, World.setTile, Finset.empty_union]
  exact Function.update_idem _ _ _

theorem registered_refreshZones (rules : Rules) (w : World) (pos : Position) :
    (refreshZones rules w pos).registered = w.registered := by
  rw [refreshZones]
  cases w.tiles pos <;> rfl

theorem positions_refreshZones (rules : Rules) (w : World) (pos : Position) (z : ℕ) :
    ((refreshZones rules w pos).zones z).positions = (w.zones z).positions := by
  rw [refreshZones]
  cases w.tiles pos with
  | none => rfl
  | some tile =>
    dsimp only [addZones, clearZones, World.setTile, World.notify]
    split_ifs <;> simp only [positions_foldl_thingAdded, positions_foldl_thingRemoved]

theorem mem_cache_refreshZones (h : w.tiles pos = some tile) {z : ℕ} {n : Cache} {thing : Thing} :
    thing ∈ ((refreshZones rules w pos).zones z).cache n ↔ thing ∈ (w.zones z).cache n ∧
          ¬ (z ∈ tile.zones ∧ thing ∈ tile.listed ∧ files rules thing n = true) ∨
        z ∈ getZones w pos ∧ thing ∈ tile.listed ∧ files rules thing n = true := by
  have hclear : thing ∈ ((clearZones rules w pos tile).zones z).cache n ↔ thing ∈ (w.zones z).cache n ∧
      ¬ (z ∈ tile.zones ∧ thing ∈ tile.listed ∧ files rules thing n = true) := by
    rw [clearZones, World.setTile, World.notify]
    dsimp only
    split_ifs with hz
    · rw [mem_foldl_thingRemoved, and_iff_right hz]
    · rw [and_iff_left fun h => hz h.1]
  rw [refreshZones, h]
  dsimp only
  rw [getZones_clearZones, addZones, World.setTile, World.notify]
  dsimp only
  split_ifs with hz
  · rw [mem_foldl_thingAdded, hclear, and_iff_right hz, or_comm]
    exact Iff.rfl
  · rw [hclear]
    exact (or_iff_left fun h => hz h.1).symm

theorem sameThings_refreshZones (rules : Rules) (w : World) (pos : Position) :
    SameThings w (refreshZones rules w pos) := by
  intro q
  cases htile : w.tiles pos with
  | none => rw [refreshZones_none htile]
  | some tile =>
    rw [tiles_refreshZones htile]
    by_cases hq : q = pos
    · rw [hq, Function.update_self, htile]
      rfl
    · rw [Function.update_of_ne hq]

/-- **A tile is refreshed**: the caches of a zone get its things, if it is at a position of the
zone. -/
theorem cached_refreshZones (hplaced : Placed w) {z : ℕ} (hz : z ∈ w.registered) {at_ : Position → Prop}
    (hat : ∀ q, at_ q → q ∈ (w.zones z).positions) (hcached : Cached rules w z at_) (pos : Position) :
    Cached rules (refreshZones rules w pos) z fun q => at_ q ∨ q = pos ∧ pos ∈ (w.zones z).positions := by
  intro n thing
  rw [(sameThings_refreshZones rules w pos).listed_iff]
  cases htile : w.tiles pos with
  | none =>
    rw [refreshZones_none htile, hcached n thing]
    refine and_congr_right fun _ => ⟨?_, ?_⟩
    · rintro ⟨q, tile, hq, hatq, hmem⟩
      exact ⟨q, tile, hq, Or.inl hatq, hmem⟩
    · rintro ⟨q, tile, hq, hatq | ⟨rfl, -⟩, hmem⟩
      · exact ⟨q, tile, hq, hatq, hmem⟩
      · rw [htile] at hq
        cases hq
  | some tile =>
    rw [mem_cache_refreshZones htile, mem_getZones, and_iff_right hz, hcached n thing]
    have hlisted : Listed w (fun q => at_ q ∨ q = pos ∧ pos ∈ (w.zones z).positions) thing ↔
        Listed w at_ thing ∨ pos ∈ (w.zones z).positions ∧ thing ∈ tile.listed := by
      constructor
      · rintro ⟨q, tile', hq, hatq | ⟨rfl, hpos⟩, hmem⟩
        · exact Or.inl ⟨q, tile', hq, hatq, hmem⟩
        · obtain rfl := Option.some.inj (htile.symm.trans hq)
          exact Or.inr ⟨hpos, hmem⟩
      · rintro (⟨q, tile', hq, hatq, hmem⟩ | ⟨hpos, hmem⟩)
        · exact ⟨q, tile', hq, Or.inl hatq, hmem⟩
        · exact ⟨pos, tile, htile, Or.inr ⟨rfl, hpos⟩, hmem⟩
    rw [hlisted]
    by_cases hpos : pos ∈ (w.zones z).positions
    · rw [and_iff_right hpos, and_iff_right hpos]
      constructor
      · rintro (⟨⟨hfile, hl⟩, -⟩ | ⟨hmem, hfile⟩)
        · exact ⟨hfile, Or.inl hl⟩
        · exact ⟨hfile, Or.inr hmem⟩
      · rintro ⟨hfile, hl⟩
        by_cases hmem : thing ∈ tile.listed
        · exact Or.inr ⟨hmem, hfile⟩
        · exact Or.inl ⟨⟨hfile, hl.resolve_right hmem⟩, fun h => hmem h.2.1⟩
    · -- The zone may have been told of the tile before, but has nothing from it.
      have hnone : Listed w at_ thing → thing ∉ tile.listed := by
        rintro ⟨q, tile', hq, hatq, hmem⟩ hthere
        have heq := hplaced.unique q pos tile' tile thing hq htile (mem_things_of_listed hmem)
          (mem_things_of_listed hthere)
        exact hpos (heq ▸ hat q hatq)
      constructor
      · rintro (⟨hl, -⟩ | ⟨h, -⟩)
        · exact ⟨hl.1, Or.inl hl.2⟩
        · exact absurd h hpos
      · rintro ⟨hfile, hl | ⟨h, -⟩⟩
        · exact Or.inl ⟨⟨hfile, hl⟩, fun h => hnone hl h.2.1⟩
        · exact absurd h hpos

/-! ### Several tiles -/

theorem registered_foldl (rules : Rules) (l : List Position) (w : World) :
    (l.foldl (refreshZones rules) w).registered = w.registered := by
  induction l generalizing w with
  | nil => rfl
  | cons pos l ih => rw [List.foldl_cons, ih, registered_refreshZones]

theorem positions_foldl_refreshZones (rules : Rules) (l : List Position) (w : World) (z : ℕ) :
    ((l.foldl (refreshZones rules) w).zones z).positions = (w.zones z).positions := by
  induction l generalizing w with
  | nil => rfl
  | cons pos l ih => rw [List.foldl_cons, ih, positions_refreshZones]

theorem sameThings_foldl (rules : Rules) (l : List Position) (w : World) :
    SameThings w (l.foldl (refreshZones rules) w) := by
  induction l generalizing w with
  | nil => exact fun _ => rfl
  | cons pos l ih => exact fun q => (ih _ q).trans (sameThings_refreshZones rules w pos q)

theorem getZones_refreshZones (rules : Rules) (w : World) (pos q : Position) :
    getZones (refreshZones rules w pos) q = getZones w q := by
  rw [getZones, getZones, registered_refreshZones]
  simp only [positions_refreshZones]

/-- The tiles that are refreshed get the zones of their positions, and the others stay. -/
theorem tiles_foldl (rules : Rules) (l : List Position) (w : World) (q : Position) :
    (l.foldl (refreshZones rules) w).tiles q =
      (w.tiles q).map fun tile => { tile with zones := if q ∈ l then getZones w q else tile.zones } := by
  induction l generalizing w with
  | nil => simp
  | cons pos l ih =>
    rw [List.foldl_cons, ih, getZones_refreshZones]
    cases htile : w.tiles pos with
    | none =>
      rw [refreshZones_none htile]
      by_cases hq : q = pos
      · rw [hq, htile]
        rfl
      · simp only [List.mem_cons, hq, false_or]
    | some tile =>
      rw [tiles_refreshZones htile]
      by_cases hq : q = pos
      · rw [hq, Function.update_self, htile]
        simp
      · simp only [Function.update_of_ne hq, List.mem_cons, hq, false_or]

theorem cached_foldl {z : ℕ} {at_ : Position → Prop} (l : List Position) (hplaced : Placed w)
    (hz : z ∈ w.registered) (hat : ∀ q, at_ q → q ∈ (w.zones z).positions) (hcached : Cached rules w z at_) :
    Cached rules (l.foldl (refreshZones rules) w) z fun q => at_ q ∨ q ∈ l ∧ q ∈ (w.zones z).positions := by
  induction l generalizing w at_ with
  | nil => exact hcached.congr fun q => by simp
  | cons pos l ih =>
    have hpositions := positions_refreshZones rules w pos z
    have hnext := ih (hplaced.of_sameThings (sameThings_refreshZones rules w pos))
      (by rwa [registered_refreshZones]) ?_ (cached_refreshZones hplaced hz hat hcached pos)
    · refine hnext.congr fun q => ?_
      rw [hpositions, List.mem_cons]
      constructor
      · rintro ((h | ⟨rfl, h⟩) | ⟨h, h'⟩)
        · exact Or.inl h
        · exact Or.inr ⟨Or.inl rfl, h⟩
        · exact Or.inr ⟨Or.inr h, h'⟩
      · rintro (h | ⟨rfl | h, h'⟩)
        · exact Or.inl (Or.inl h)
        · exact Or.inl (Or.inr ⟨rfl, h'⟩)
        · exact Or.inr ⟨h, h'⟩
    · rw [hpositions]
      rintro q (h | ⟨rfl, h⟩)
      · exact hat q h
      · exact h

/-- **A zone whose positions change** is up to date again after it has been refreshed, if none with
a loaded tile goes. -/
theorem synced_refresh (h : Synced rules w) (hplaced : Placed w) {z : ℕ} {change : Zone → Zone}
    (hkeep : ∀ pos tile, w.tiles pos = some tile → pos ∈ (w.zones z).positions →
      pos ∈ (change (w.zones z)).positions) : Synced rules (refresh rules (w.notify {z} change) z) := by
  let start : World := (w.notify {z} change).notify {z} Zone.clearCaches
  have hself : (start.zones z).positions = (change (w.zones z)).positions := by
    dsimp only [start, World.notify]
    rw [if_pos (Finset.mem_singleton_self z), if_pos (Finset.mem_singleton_self z)]
    rfl
  have hother : ∀ y, y ≠ z → start.zones y = w.zones y := by
    intro y hy
    dsimp only [start, World.notify]
    rw [if_neg (mt Finset.mem_singleton.1 hy), if_neg (mt Finset.mem_singleton.1 hy)]
  have hplaced' : Placed start := hplaced.of_sameThings fun _ => rfl
  have hrefresh : refresh rules (w.notify {z} change) z =
      (start.zones z).positions.foldl (refreshZones rules) start := rfl
  rw [hrefresh]
  constructor
  · intro pos tile' htile y hy
    rw [registered_foldl] at hy
    rw [positions_foldl_refreshZones]
    rw [tiles_foldl, Option.map_eq_some_iff] at htile
    obtain ⟨tile, hold, rfl⟩ := htile
    dsimp only
    split_ifs with hmem
    · rw [mem_getZones, and_iff_right hy]
    · have hsynced := h.zones pos tile hold y hy
      by_cases hyz : y = z
      · subst hyz
        rw [hself] at hmem ⊢
        exact iff_of_false (fun hin => hmem (hkeep pos tile hold (hsynced.1 hin))) hmem
      · rw [hother y hyz]
        exact hsynced
  · intro y hy
    rw [registered_foldl] at hy
    rw [positions_foldl_refreshZones]
    by_cases hyz : y = z
    · subst hyz
      have hempty : Cached rules start y fun _ => False := by
        intro n thing
        have hnone : (start.zones y).cache n = ∅ := by
          dsimp only [start, World.notify]
          rw [if_pos (Finset.mem_singleton_self y)]
          rfl
        rw [hnone]
        refine iff_of_false (Finset.notMem_empty thing) ?_
        rintro ⟨-, pos, tile, -, hfalse, -⟩
        exact hfalse
      refine (cached_foldl _ hplaced' hy (fun _ hfalse => hfalse.elim) hempty).congr fun q => ?_
      simp
    · have hcached : Cached rules start y (· ∈ (start.zones y).positions) := by
        rw [hother y hyz]
        intro n thing
        rw [hother y hyz]
        exact h.caches y hy n thing
      refine (cached_foldl _ hplaced' hy (fun _ => id) hcached).congr fun q => ?_
      exact or_iff_left_of_imp fun h => h.2

theorem mem_foldl_addPosition {l : List Position} {zone : Zone} {q : Position} :
    q ∈ (l.foldl Zone.addPosition zone).positions ↔ q ∈ l ∨ q ∈ zone.positions := by
  induction l generalizing zone with
  | nil => simp
  | cons pos l ih =>
    rw [List.foldl_cons, ih, Zone.addPosition, List.mem_insert_iff, List.mem_cons]
    exact ⟨fun h => h.elim (fun h => Or.inl (Or.inr h)) fun h => h.elim (fun h => Or.inl (Or.inl h)) Or.inr,
      fun h => h.elim (fun h => h.elim (fun h => Or.inr (Or.inl h)) Or.inl) fun h => Or.inr (Or.inr h)⟩

theorem mem_foldl_removePosition {l : List Position} {zone : Zone} {q : Position} :
    q ∈ (l.foldl Zone.removePosition zone).positions ↔ q ∈ zone.positions ∧ q ∉ l := by
  induction l generalizing zone with
  | nil => simp
  | cons pos l ih =>
    rw [List.foldl_cons, ih, Zone.removePosition, List.mem_filter, decide_eq_true_iff, List.mem_cons, not_or,
      and_assoc]

/-- **An area is added.** -/
theorem synced_addArea (h : Synced rules w) (hplaced : Placed w) (z : ℕ) (area : Area) :
    Synced rules (addArea rules w z area) :=
  synced_refresh h hplaced fun _ _ _ hmem => mem_foldl_addPosition.2 (Or.inr hmem)

/-- **An area is subtracted** that has no loaded tiles of the zone. -/
theorem synced_subtractArea (h : Synced rules w) (hplaced : Placed w) {z : ℕ} {area : Area}
    (hfair : ∀ pos ∈ area.visited, pos ∈ (w.zones z).positions → w.tiles pos = none) :
    Synced rules (subtractArea rules w z area) := by
  refine synced_refresh h hplaced fun pos tile htile hmem => mem_foldl_removePosition.2 ⟨hmem, fun hvisited => ?_⟩
  rw [hfair pos hvisited hmem] at htile
  cases htile

theorem synced_refreshZones (h : Synced rules w) (hplaced : Placed w) (pos : Position) :
    Synced rules (refreshZones rules w pos) where
  zones q tile' htile z hz := by
    rw [registered_refreshZones] at hz
    rw [positions_refreshZones]
    have hfold := tiles_foldl rules [pos] w q
    rw [List.foldl_cons, List.foldl_nil, htile] at hfold
    obtain ⟨tile, hold, rfl⟩ := Option.map_eq_some_iff.1 hfold.symm
    dsimp only
    split_ifs
    · rw [mem_getZones, and_iff_right hz]
    · exact h.zones q tile hold z hz
  caches z hz := by
    rw [registered_refreshZones] at hz
    rw [positions_refreshZones]
    refine (cached_refreshZones hplaced hz (fun _ => id) (h.caches z hz) pos).congr fun q => ?_
    exact or_iff_left_of_imp fun h => h.1 ▸ h.2

theorem placed_refresh (hplaced : Placed w) (z : ℕ) (change : Zone → Zone) :
    Placed (Zones.refresh rules (w.notify {z} change) z) :=
  hplaced.of_sameThings fun q => sameThings_foldl rules _ ((w.notify {z} change).notify {z} Zone.clearCaches) q

end Refresh

/-! ## Things that come and go -/

section Things

variable {rules : Rules} {w w' : World} {pos : Position} {tile tile' : Tile} {a : Thing}

/-- A thing is listed on another tile. -/
def Elsewhere (w : World) (pos : Position) (at_ : Position → Prop) (thing : Thing) : Prop :=
  ∃ q tile, q ≠ pos ∧ w.tiles q = some tile ∧ at_ q ∧ thing ∈ tile.listed

theorem listed_iff (htile : w.tiles pos = some tile) {at_ : Position → Prop} (hat : at_ pos) (thing : Thing) :
    Listed w at_ thing ↔ thing ∈ tile.listed ∨ Elsewhere w pos at_ thing := by
  constructor
  · rintro ⟨q, other, hq, hatq, hmem⟩
    by_cases hqp : q = pos
    · subst hqp
      obtain rfl := Option.some.inj (htile.symm.trans hq)
      exact Or.inl hmem
    · exact Or.inr ⟨q, other, hqp, hq, hatq, hmem⟩
  · rintro (hmem | ⟨q, other, -, hq, hatq, hmem⟩)
    · exact ⟨pos, tile, htile, hat, hmem⟩
    · exact ⟨q, other, hq, hatq, hmem⟩

theorem listed_iff_of_not (w : World) (pos : Position) {at_ : Position → Prop} (hat : ¬ at_ pos)
    (thing : Thing) : Listed w at_ thing ↔ Elsewhere w pos at_ thing := by
  constructor
  · rintro ⟨q, other, hq, hatq, hmem⟩
    exact ⟨q, other, fun hqp => hat (hqp ▸ hatq), hq, hatq, hmem⟩
  · rintro ⟨q, other, -, hq, hatq, hmem⟩
    exact ⟨q, other, hq, hatq, hmem⟩

/-- **One tile changes**, and its zones are told: `hin` is what they make of it. -/
theorem Synced.touch (h : Synced rules w) (htile : w.tiles pos = some tile) (hzones : tile'.zones = tile.zones)
    (htiles : w'.tiles = Function.update w.tiles pos (some tile')) (hregistered : w'.registered = w.registered)
    (hpositions : ∀ z, (w'.zones z).positions = (w.zones z).positions)
    (hout : ∀ z ∈ w.registered, z ∉ tile.zones → (w'.zones z).cache = (w.zones z).cache)
    (hin : ∀ z ∈ w.registered, z ∈ tile.zones → ∀ n thing (elsewhere : Prop),
      (elsewhere → ∃ q other, q ≠ pos ∧ w.tiles q = some other ∧ thing ∈ other.listed) →
      (thing ∈ (w.zones z).cache n ↔ files rules thing n = true ∧ (thing ∈ tile.listed ∨ elsewhere)) →
        (thing ∈ (w'.zones z).cache n ↔ files rules thing n = true ∧ (thing ∈ tile'.listed ∨ elsewhere))) :
    Synced rules w' := by
  have hself : w'.tiles pos = some tile' := by rw [htiles, Function.update_self]
  have hother : ∀ q, q ≠ pos → w'.tiles q = w.tiles q := fun q hq => by rw [htiles, Function.update_of_ne hq]
  have helsewhere : ∀ at_ thing, Elsewhere w' pos at_ thing ↔ Elsewhere w pos at_ thing := by
    intro at_ thing
    refine exists_congr fun q => exists_congr fun other => and_congr_right fun hq => ?_
    rw [hother q hq]
  constructor
  · intro q other hq z hz
    rw [hregistered] at hz
    rw [hpositions]
    by_cases hqp : q = pos
    · subst hqp
      obtain rfl := Option.some.inj (hself.symm.trans hq)
      rw [hzones]
      exact h.zones q tile htile z hz
    · rw [hother q hqp] at hq
      exact h.zones q other hq z hz
  · intro z hz n thing
    rw [hregistered] at hz
    have hknown := h.zones pos tile htile z hz
    have hcache := h.caches z hz n thing
    rw [hpositions]
    by_cases hzone : z ∈ tile.zones
    · have hpos := hknown.1 hzone
      rw [listed_iff htile hpos] at hcache
      rw [listed_iff hself hpos, helsewhere]
      refine hin z hz hzone n thing _ ?_ hcache
      rintro ⟨q, other, hq, hold, -, hmem⟩
      exact ⟨q, other, hq, hold, hmem⟩
    · have hpos := mt hknown.2 hzone
      rw [listed_iff_of_not w pos hpos] at hcache
      rw [listed_iff_of_not w' pos hpos, helsewhere, hout z hz hzone]
      exact hcache

theorem zones_notify_of_mem (w : World) {ids : Finset ℕ} (tell : Zone → Zone) {z : ℕ} (hz : z ∈ ids) :
    (w.notify ids tell).zones z = tell (w.zones z) := if_pos hz

theorem zones_notify_of_notMem (w : World) {ids : Finset ℕ} (tell : Zone → Zone) {z : ℕ} (hz : z ∉ ids) :
    (w.notify ids tell).zones z = w.zones z := if_neg hz

theorem positions_notify (w : World) (ids : Finset ℕ) {tell : Zone → Zone}
    (htell : ∀ zone, (tell zone).positions = zone.positions) (z : ℕ) :
    ((w.notify ids tell).zones z).positions = (w.zones z).positions := by
  rw [World.notify]
  dsimp only
  split_ifs
  · exact htell _
  · rfl

theorem positions_thingAdded (rules : Rules) (zone : Zone) (a : Thing) :
    (zone.thingAdded rules a).positions = zone.positions := rfl

theorem positions_thingRemoved (rules : Rules) (zone : Zone) (a : Thing) :
    (zone.thingRemoved rules a).positions = zone.positions := rfl

/-- A thing comes to the lists of a tile, and its zones are told. -/
theorem Synced.add (h : Synced rules w) (htile : w.tiles pos = some tile) (hzones : tile'.zones = tile.zones)
    (hlisted : ∀ thing, thing ∈ tile'.listed ↔ thing = a ∨ thing ∈ tile.listed) :
    Synced rules ((w.notify tile.zones fun zone => zone.thingAdded rules a).setTile pos tile') := by
  refine h.touch htile hzones rfl rfl
    (positions_notify w tile.zones fun zone => positions_thingAdded rules zone a) (fun z _ hzone => ?_)
    fun z _ hzone n thing elsewhere _ hcache => ?_
  · exact congrArg Zone.cache (zones_notify_of_notMem w (fun zone => zone.thingAdded rules a) hzone)
  · rw [World.setTile]
    dsimp only
    rw [zones_notify_of_mem w _ hzone, mem_thingAdded, hcache, hlisted]
    constructor
    · rintro (⟨rfl, hfile⟩ | ⟨hfile, hmem | hmem⟩)
      · exact ⟨hfile, Or.inl (Or.inl rfl)⟩
      · exact ⟨hfile, Or.inl (Or.inr hmem)⟩
      · exact ⟨hfile, Or.inr hmem⟩
    · rintro ⟨hfile, (rfl | hmem) | hmem⟩
      · exact Or.inl ⟨rfl, hfile⟩
      · exact Or.inr ⟨hfile, Or.inl hmem⟩
      · exact Or.inr ⟨hfile, Or.inr hmem⟩

/-- A thing goes from the lists of a tile, and its zones are told. -/
theorem Synced.remove (h : Synced rules w) (htile : w.tiles pos = some tile) (hzones : tile'.zones = tile.zones)
    (hlisted : ∀ thing, thing ∈ tile'.listed ↔ thing ∈ tile.listed ∧ thing ≠ a)
    (hunique : ∀ q other, q ≠ pos → w.tiles q = some other → a ∉ other.listed) :
    Synced rules ((w.notify tile.zones fun zone => zone.thingRemoved rules a).setTile pos tile') := by
  refine h.touch htile hzones rfl rfl
    (positions_notify w tile.zones fun zone => positions_thingRemoved rules zone a) (fun z _ hzone => ?_)
    fun z _ hzone n thing elsewhere helsewhere hcache => ?_
  · exact congrArg Zone.cache (zones_notify_of_notMem w (fun zone => zone.thingRemoved rules a) hzone)
  · rw [World.setTile]
    dsimp only
    rw [zones_notify_of_mem w _ hzone, mem_thingRemoved, hcache, hlisted]
    constructor
    · rintro ⟨⟨hfile, hmem | hmem⟩, hnot⟩
      · exact ⟨hfile, Or.inl ⟨hmem, fun heq => hnot ⟨heq, heq ▸ hfile⟩⟩⟩
      · exact ⟨hfile, Or.inr hmem⟩
    · rintro ⟨hfile, ⟨hmem, hne⟩ | hmem⟩
      · exact ⟨⟨hfile, Or.inl hmem⟩, fun heq => hne heq.1⟩
      · refine ⟨⟨hfile, Or.inr hmem⟩, ?_⟩
        rintro ⟨rfl, -⟩
        obtain ⟨q, other, hq, hold, hthere⟩ := helsewhere hmem
        exact hunique q other hq hold hthere

/-- The lists of a tile change that no zone knows of, or stay. -/
theorem Synced.quiet (h : Synced rules w) (htile : w.tiles pos = some tile)
    (htiles : w'.tiles = Function.update w.tiles pos (some tile')) (hzones : tile'.zones = tile.zones)
    (hregistered : w'.registered = w.registered) (hall : ∀ z, (w'.zones z).positions = (w.zones z).positions)
    (hcache : ∀ z ∈ w.registered, (w'.zones z).cache = (w.zones z).cache)
    (hlisted : Zoneless w tile ∨ ∀ thing, thing ∈ tile'.listed ↔ thing ∈ tile.listed) : Synced rules w' := by
  refine h.touch htile hzones htiles hregistered hall (fun z hz _ => hcache z hz)
    fun z hz hzone n thing elsewhere _ hknown => ?_
  rw [hcache z hz]
  rcases hlisted with hlisted | hlisted
  · exact absurd hzone (hlisted z hz)
  · rwa [hlisted]

/-- The tile of the new things has none twice, and what comes was on no tile. -/
theorem Placed.setTile (h : Placed w) (htile : w.tiles pos = some tile) (hnodup : tile'.things.Nodup)
    (hnew : ∀ thing ∈ tile'.things, thing ∈ tile.things ∨ Fresh w thing)
    (htiles : w'.tiles = Function.update w.tiles pos (some tile')) : Placed w' := by
  have hself : w'.tiles pos = some tile' := by rw [htiles, Function.update_self]
  have hother : ∀ q, q ≠ pos → w'.tiles q = w.tiles q := fun q hq => by rw [htiles, Function.update_of_ne hq]
  -- What is on the changed tile is on no other one.
  have honly : ∀ q other thing, q ≠ pos → w'.tiles q = some other → thing ∈ tile'.things →
      thing ∉ other.things := by
    intro q other thing hq hold hmem hthere
    rw [hother q hq] at hold
    rcases hnew thing hmem with hmem | hfresh
    · exact hq (h.unique q pos other tile thing hold htile hthere hmem)
    · exact hfresh q other hold hthere
  constructor
  · intro q other hq
    by_cases hqp : q = pos
    · rw [hqp, hself] at hq
      obtain rfl := Option.some.inj hq
      exact hnodup
    · rw [hother q hqp] at hq
      exact h.nodup q other hq
  · intro p q tile₁ tile₂ thing hp hq hmem hmem'
    by_cases hpp : p = pos
    · by_cases hqp : q = pos
      · rw [hpp, hqp]
      · rw [hpp, hself] at hp
        obtain rfl := Option.some.inj hp
        exact absurd hmem' (honly q tile₂ thing hqp hq hmem)
    · by_cases hqp : q = pos
      · rw [hqp, hself] at hq
        obtain rfl := Option.some.inj hq
        exact absurd hmem (honly p tile₁ thing hpp hp hmem')
      · rw [hother p hpp] at hp
        rw [hother q hqp] at hq
        exact h.unique p q tile₁ tile₂ thing hp hq hmem hmem'

end Things

/-! ## Steps -/

section Steps

variable {rules : Rules} {w : World} {pos : Position} {tile : Tile}

@[simp] theorem item_mem_listed {x : ℕ} : Thing.item x ∈ tile.listed ↔ x ∈ tile.items := by simp [Tile.listed]

@[simp] theorem creature_mem_listed {c : ℕ} : Thing.creature c ∈ tile.listed ↔ c ∈ tile.creatures := by
  simp [Tile.listed]

theorem perm_cons_item (tile : Tile) (x : ℕ) :
    { tile with items := x :: tile.items }.things.Perm (.item x :: tile.things) := List.perm_middle

theorem perm_cons_creature (tile : Tile) (c : ℕ) :
    { tile with creatures := c :: tile.creatures }.things.Perm (.creature c :: tile.things) := by
  have hlisted : { tile with creatures := c :: tile.creatures }.listed.Perm (.creature c :: tile.listed) :=
    List.perm_middle
  exact (hlisted.append_left _).trans List.perm_middle

theorem Placed.nodup_listed (h : Placed w) (htile : w.tiles pos = some tile) : tile.listed.Nodup :=
  (List.nodup_append.1 (h.nodup pos tile htile)).2.1

theorem Placed.nodup_items (h : Placed w) (htile : w.tiles pos = some tile) : tile.items.Nodup :=
  (List.nodup_append.1 (h.nodup_listed htile)).1.of_map _

theorem Placed.nodup_creatures (h : Placed w) (htile : w.tiles pos = some tile) : tile.creatures.Nodup :=
  (List.nodup_append.1 (h.nodup_listed htile)).2.1.of_map _

theorem Placed.not_elsewhere (h : Placed w) (htile : w.tiles pos = some tile) {a : Thing}
    (ha : a ∈ tile.things) : ∀ q other, q ≠ pos → w.tiles q = some other → a ∉ other.listed :=
  fun q other hq hother hmem =>
    hq (h.unique q pos other tile a hother htile (mem_things_of_listed hmem) ha)

/-- What the steps keep. -/
def Kept (rules : Rules) (w : World) : Prop := Synced rules w ∧ Placed w

/-- A tile loses some of its things. -/
theorem Placed.setTile_sublist (h : Placed w) (htile : w.tiles pos = some tile) {tile' : Tile} {w' : World}
    (hsub : tile'.things.Sublist tile.things)
    (htiles : w'.tiles = Function.update w.tiles pos (some tile')) : Placed w' :=
  h.setTile htile ((h.nodup pos tile htile).sublist hsub) (fun _ hmem => Or.inl (hsub.subset hmem)) htiles

/-- A tile gets a new thing. -/
theorem Placed.setTile_cons (h : Placed w) (htile : w.tiles pos = some tile) {tile' : Tile} {w' : World} {a : Thing}
    (hperm : tile'.things.Perm (a :: tile.things)) (hfresh : Fresh w a)
    (htiles : w'.tiles = Function.update w.tiles pos (some tile')) : Placed w' := by
  refine h.setTile htile ?_ (fun thing hmem => ?_) htiles
  · exact hperm.nodup_iff.2 (List.nodup_cons.2 ⟨hfresh pos tile htile, h.nodup pos tile htile⟩)
  · rcases List.mem_cons.1 (hperm.mem_iff.1 hmem) with rfl | hmem
    · exact Or.inr hfresh
    · exact Or.inl hmem

/-- A tile gets a new ground. -/
theorem Placed.setTile_ground (h : Placed w) (htile : w.tiles pos = some tile) {w' : World} {x : ℕ}
    (hfresh : Fresh w (.item x))
    (htiles : w'.tiles = Function.update w.tiles pos (some { tile with ground := some x })) : Placed w' := by
  refine h.setTile htile ?_ (fun thing hmem => ?_) htiles
  · have hlisted := h.nodup_listed htile
    exact List.nodup_cons.2 ⟨fun hmem => hfresh pos tile htile (mem_things_of_listed hmem), hlisted⟩
  · rcases List.mem_cons.1 hmem with rfl | hmem
    · exact Or.inr hfresh
    · exact Or.inl (mem_things_of_listed hmem)

theorem kept_internalAddThing (h : Kept rules w) {thing : Thing}
    (hfair : Fair rules w (.internalAddThing pos thing)) : Kept rules (internalAddThing rules w pos thing) := by
  obtain ⟨hfresh, hquiet⟩ := hfair
  rw [internalAddThing]
  cases htile : w.tiles pos with
  | none => exact h
  | some tile =>
    have hpositions := positions_notify w tile.zones fun zone => positions_thingAdded rules zone thing
    -- The zones are told of something that does not get into the lists.
    have hsilent : Zoneless w tile → ∀ z ∈ w.registered,
        ((w.notify tile.zones fun zone => zone.thingAdded rules thing).zones z).cache = (w.zones z).cache :=
      fun hzoneless z hz => congrArg Zone.cache (zones_notify_of_notMem w _ (hzoneless z hz))
    cases thing with
    | creature c =>
      exact ⟨h.1.add htile rfl (fun thing => by cases thing <;> simp),
        h.2.setTile_cons htile (perm_cons_creature tile c) hfresh rfl⟩
    | item x =>
      dsimp only
      split_ifs with hground hnone hfull
      · have hzoneless := hquiet tile x htile rfl (Or.inl hground)
        exact ⟨h.1.quiet htile rfl rfl rfl hpositions (hsilent hzoneless) (Or.inl hzoneless),
          h.2.setTile_ground htile hfresh rfl⟩
      · have hzoneless := hquiet tile x htile rfl (Or.inl hground)
        exact ⟨h.1.quiet htile (by rw [← htile, Function.update_eq_self]; rfl) rfl rfl hpositions
          (hsilent hzoneless) (Or.inl hzoneless), h.2.of_sameThings fun _ => rfl⟩
      · have hzoneless := hquiet tile x htile rfl (Or.inr hfull)
        exact ⟨h.1.quiet htile (by rw [← htile, Function.update_eq_self]; rfl) rfl rfl hpositions
          (hsilent hzoneless) (Or.inl hzoneless), h.2.of_sameThings fun _ => rfl⟩
      · exact ⟨h.1.add htile rfl (fun thing => by cases thing <;> simp),
          h.2.setTile_cons htile (perm_cons_item tile x) hfresh rfl⟩

theorem kept_removeThing (h : Kept rules w) (pos : Position) (x : ℕ) : Kept rules (removeThing rules w pos x) := by
  rw [removeThing]
  cases htile : w.tiles pos with
  | none => exact h
  | some tile =>
    have hnodup := h.2.nodup pos tile htile
    dsimp only
    split_ifs with hground hmem
    · have hthere : Thing.item x ∈ tile.things := List.mem_append_left _ (by simp [hground])
      have hnot : Thing.item x ∉ tile.listed := by
        rw [Tile.things, hground] at hnodup
        exact (List.nodup_cons.1 hnodup).1
      refine ⟨h.1.remove htile rfl (fun thing => ?_) (h.2.not_elsewhere htile hthere),
        h.2.setTile_sublist htile (List.sublist_append_right _ _) rfl⟩
      refine (and_iff_left_of_imp fun hlisted heq => ?_).symm
      rw [heq] at hlisted
      exact hnot hlisted
    · have hthere : Thing.item x ∈ tile.things := mem_things_of_listed (item_mem_listed.2 hmem)
      have hitems := h.2.nodup_items htile
      refine ⟨h.1.remove htile rfl (fun thing => ?_) (h.2.not_elsewhere htile hthere),
        h.2.setTile_sublist htile ?_ rfl⟩
      · cases thing <;> simp [hitems.mem_erase_iff, and_comm]
      · exact (((List.erase_sublist).map _).append_right _).append_left _
    · exact h

/-- What is removed from a tile does not matter to the zones of tiles, and brings nothing new. -/
theorem removeThing_tiles (rules : Rules) (htile : w.tiles pos = some tile) (x : ℕ) :
    ∃ tile', (removeThing rules w pos x).tiles = Function.update w.tiles pos (some tile') ∧
      tile'.zones = tile.zones ∧ tile'.things.Sublist tile.things ∧
      (removeThing rules w pos x).registered = w.registered := by
  rw [removeThing, htile]
  dsimp only
  split_ifs with hground hmem
  · exact ⟨_, rfl, rfl, List.sublist_append_right _ _, rfl⟩
  · exact ⟨_, rfl, rfl, (((List.erase_sublist).map _).append_right _).append_left _, rfl⟩
  · exact ⟨tile, by rw [← htile, Function.update_eq_self], rfl, List.Sublist.refl _, rfl⟩

/-- A tile without zones gets a new item in its list. -/
theorem kept_listItem (h : Kept rules w) {x : ℕ} (hfresh : Fresh w (.item x))
    (hzoneless : ∀ tile, w.tiles pos = some tile → Zoneless w tile) : Kept rules (w.listItem pos x) := by
  rw [World.listItem]
  cases htile : w.tiles pos with
  | none => exact h
  | some tile =>
    exact ⟨h.1.quiet htile rfl rfl rfl (fun _ => rfl) (fun _ _ => rfl) (Or.inl (hzoneless tile htile)),
      h.2.setTile_cons htile (perm_cons_item tile x) hfresh rfl⟩

theorem kept_addThing (h : Kept rules w) {x : ℕ} {old : Option ℕ} (hfair : Fair rules w (.addThing pos x old)) :
    Kept rules (addThing rules w pos x old) := by
  obtain ⟨hfresh, hquiet⟩ := hfair
  rw [addThing.eq_def]
  cases htile : w.tiles pos with
  | none => exact h
  | some tile =>
    dsimp only
    split_ifs with hfull hground
    · exact h
    · exact ⟨h.1.quiet htile rfl rfl rfl (fun _ => rfl) (fun _ _ => rfl) (Or.inr fun _ => Iff.rfl),
        h.2.setTile_ground htile hfresh rfl⟩
    · have hzoneless := hquiet tile htile (eq_false_of_ne_true hground) (Nat.lt_of_not_le hfull)
      cases old with
      | none =>
        refine kept_listItem h hfresh fun other hother => ?_
        obtain rfl := Option.some.inj (htile.symm.trans hother)
        exact hzoneless
      | some old =>
        obtain ⟨tile', htiles, hzones, hsub, hregistered⟩ := removeThing_tiles rules htile old
        have hself : (removeThing rules w pos old).tiles pos = some tile' := by
          rw [htiles, Function.update_self]
        refine kept_listItem (kept_removeThing h pos old) (fun q other hother hmem => ?_) fun other hother => ?_
        · by_cases hq : q = pos
          · rw [hq, hself] at hother
            obtain rfl := Option.some.inj hother
            exact hfresh pos tile htile (hsub.subset hmem)
          · rw [htiles, Function.update_of_ne hq] at hother
            exact hfresh q other hother hmem
        · obtain rfl := Option.some.inj (hself.symm.trans hother)
          intro z hz
          rw [hregistered] at hz
          rw [hzones]
          exact hzoneless z hz

theorem kept_replaceThing (h : Kept rules w) {old x : ℕ} (hfair : Fair rules w (.replaceThing pos old x)) :
    Kept rules (replaceThing w pos old x) := by
  obtain ⟨hfresh, hquiet⟩ := hfair
  rw [replaceThing]
  cases htile : w.tiles pos with
  | none => exact h
  | some tile =>
    dsimp only
    split_ifs with hground hmem
    · exact ⟨h.1.quiet htile rfl rfl rfl (fun _ => rfl) (fun _ _ => rfl) (Or.inr fun _ => Iff.rfl),
        h.2.setTile_ground htile hfresh rfl⟩
    · refine ⟨h.1.quiet htile rfl rfl rfl (fun _ => rfl) (fun _ _ => rfl)
        (Or.inl (hquiet tile htile hground hmem)), ?_⟩
      have hsub : { tile with items := tile.items.erase old }.things.Sublist tile.things :=
        (((List.erase_sublist).map _).append_right _).append_left _
      have hperm := perm_cons_item { tile with items := tile.items.erase old } x
      refine h.2.setTile htile (hperm.nodup_iff.2 (List.nodup_cons.2 ⟨fun hthere => ?_, ?_⟩))
        (fun thing hthere => ?_) rfl
      · exact hfresh pos tile htile (hsub.subset hthere)
      · exact (h.2.nodup pos tile htile).sublist hsub
      · rcases List.mem_cons.1 (hperm.mem_iff.1 hthere) with rfl | hthere
        · exact Or.inr hfresh
        · exact Or.inl (hsub.subset hthere)
    · exact h

/-- The caches of the zones have the same things. -/
theorem Synced.of_cache {w' : World} (h : Synced rules w) (htiles : w'.tiles = w.tiles)
    (hregistered : w'.registered = w.registered) (hpositions : ∀ z, (w'.zones z).positions = (w.zones z).positions)
    (hcache : ∀ z ∈ w.registered, ∀ n thing,
      thing ∈ (w'.zones z).cache n ↔ thing ∈ (w.zones z).cache n) : Synced rules w' where
  zones pos tile htile z hz := by
    rw [htiles] at htile
    rw [hregistered] at hz
    rw [hpositions]
    exact h.zones pos tile htile z hz
  caches z hz n thing := by
    rw [hregistered] at hz
    have hlisted : Listed w' (· ∈ (w'.zones z).positions) thing ↔
        Listed w (· ∈ (w.zones z).positions) thing := by
      rw [Listed, htiles]
      simp only [hpositions]
      exact Iff.rfl
    rw [hcache z hz, hlisted]
    exact h.caches z hz n thing

theorem Placed.of_tiles {w' : World} (h : Placed w) (htiles : w'.tiles = w.tiles) : Placed w' :=
  h.of_sameThings fun pos => by rw [htiles]

/-- A creature goes from a tile, and all zones of the tile are told. -/
theorem kept_leave (h : Kept rules w) (htile : w.tiles pos = some tile) {c : ℕ} (hc : c ∈ tile.creatures) :
    Kept rules ((w.notify tile.zones fun zone => zone.thingRemoved rules (.creature c)).setTile pos
      { tile with creatures := tile.creatures.erase c }) := by
  have hnodup := h.2.nodup_creatures htile
  refine ⟨h.1.remove htile rfl (fun thing => ?_)
    (h.2.not_elsewhere htile (mem_things_of_listed (creature_mem_listed.2 hc))),
    h.2.setTile_sublist htile ?_ rfl⟩
  · cases thing <;> simp [hnodup.mem_erase_iff, and_comm]
  · exact (((List.erase_sublist).map _).append_left _).append_left _

/-- A creature that has gone from its tile is on no other. -/
theorem fresh_leave (h : Kept rules w) (htile : w.tiles pos = some tile) {c : ℕ} (hc : c ∈ tile.creatures)
    {w' : World} (htiles : w'.tiles =
      Function.update w.tiles pos (some { tile with creatures := tile.creatures.erase c })) :
    Fresh w' (.creature c) := by
  intro q other hother hmem
  rw [htiles] at hother
  by_cases hq : q = pos
  · rw [hq, Function.update_self] at hother
    obtain rfl := Option.some.inj hother
    have hnodup := h.2.nodup_creatures htile
    simp [Tile.things, hnodup.mem_erase_iff] at hmem
  · rw [Function.update_of_ne hq] at hother
    exact hq (h.2.unique q pos other tile _ hother htile hmem
      (mem_things_of_listed (creature_mem_listed.2 hc)))

theorem kept_removeCreature (h : Kept rules w) {c : ℕ} (hfair : Fair rules w (.removeCreature c pos)) :
    Kept rules (removeCreature rules w c pos) := by
  rw [removeCreature]
  cases htile : w.tiles pos with
  | none => exact h
  | some tile =>
    have hleave := kept_leave h htile (hfair tile htile)
    have htiles : (w.takeCreature pos c).tiles = Function.update w.tiles pos
        (some { tile with creatures := tile.creatures.erase c }) := by rw [World.takeCreature, htile]; rfl
    have hsame : afterCreatureZoneChange rules (w.takeCreature pos c) c tile.zones ∅ =
        (w.notify tile.zones fun zone => zone.thingRemoved rules (.creature c)).setTile pos
          { tile with creatures := tile.creatures.erase c } := by
      rw [afterCreatureZoneChange, Finset.sdiff_empty, Finset.empty_sdiff, World.takeCreature, htile]
      simp [World.notify, World.setTile]
    dsimp only
    rw [hsame]
    exact hleave

theorem positions_afterCreatureZoneChange (rules : Rules) (w : World) (c : ℕ) (fromZones toZones : Finset ℕ)
    (z : ℕ) : ((afterCreatureZoneChange rules w c fromZones toZones).zones z).positions =
      (w.zones z).positions := by
  rw [afterCreatureZoneChange, positions_notify _ _ fun zone => positions_thingAdded rules zone _,
    positions_notify _ _ fun zone => positions_thingRemoved rules zone _]

/-- What a zone has cached after a creature has come from some zones to others. -/
theorem mem_cache_afterCreatureZoneChange {c : ℕ} {fromZones toZones : Finset ℕ} {z : ℕ} {n : Cache}
    {thing : Thing} : thing ∈ ((afterCreatureZoneChange rules w c fromZones toZones).zones z).cache n ↔
      if z ∈ toZones then
        thing = .creature c ∧ files rules (.creature c) n = true ∧ z ∉ fromZones ∨ thing ∈ (w.zones z).cache n
      else
        thing ∈ (w.zones z).cache n ∧
          ¬ (thing = .creature c ∧ files rules (.creature c) n = true ∧ z ∈ fromZones) := by
  rw [afterCreatureZoneChange]
  by_cases hto : z ∈ toZones
  · rw [if_pos hto]
    by_cases hfrom : z ∈ fromZones
    · rw [zones_notify_of_notMem _ _ (by simp [hfrom]), zones_notify_of_notMem _ _ (by simp [hto])]
      simp [hfrom]
    · rw [zones_notify_of_mem _ _ (by simp [hto, hfrom]), mem_thingAdded,
        zones_notify_of_notMem _ _ (by simp [hto])]
      simp [hfrom]
  · rw [if_neg hto, zones_notify_of_notMem _ _ (by simp [hto])]
    by_cases hfrom : z ∈ fromZones
    · rw [zones_notify_of_mem _ _ (by simp [hto, hfrom]), mem_thingRemoved]
      simp [hfrom]
    · rw [zones_notify_of_notMem _ _ (by simp [hfrom])]
      simp [hfrom]

theorem zones_takeCreature (w : World) (pos : Position) (c : ℕ) : (w.takeCreature pos c).zones = w.zones := by
  rw [World.takeCreature]
  cases w.tiles pos <;> rfl

theorem zones_putCreature (w : World) (pos : Position) (c : ℕ) : (w.putCreature pos c).zones = w.zones := by
  rw [World.putCreature]
  cases w.tiles pos <;> rfl

theorem registered_takeCreature (w : World) (pos : Position) (c : ℕ) :
    (w.takeCreature pos c).registered = w.registered := by
  rw [World.takeCreature]
  cases w.tiles pos <;> rfl

theorem registered_putCreature (w : World) (pos : Position) (c : ℕ) :
    (w.putCreature pos c).registered = w.registered := by
  rw [World.putCreature]
  cases w.tiles pos <;> rfl

/-- A creature comes back to its own tile. -/
theorem kept_moveCreature_self (h : Kept rules w) (htile : w.tiles pos = some tile) {c : ℕ}
    (hc : c ∈ tile.creatures) :
    Kept rules (afterCreatureZoneChange rules ((w.takeCreature pos c).putCreature pos c) c tile.zones
      tile.zones) := by
  have hperm : (c :: tile.creatures.erase c).Perm tile.creatures := (List.perm_cons_erase hc).symm
  have htiles : (afterCreatureZoneChange rules ((w.takeCreature pos c).putCreature pos c) c tile.zones
      tile.zones).tiles = Function.update w.tiles pos
        (some { tile with creatures := c :: tile.creatures.erase c }) := by
    simp [afterCreatureZoneChange, World.takeCreature, World.putCreature, World.notify, World.setTile, htile]
  have hzones : (afterCreatureZoneChange rules ((w.takeCreature pos c).putCreature pos c) c tile.zones
      tile.zones).zones = w.zones := by
    simp [afterCreatureZoneChange, World.notify, zones_putCreature, zones_takeCreature]
  have hregistered : (afterCreatureZoneChange rules ((w.takeCreature pos c).putCreature pos c) c tile.zones
      tile.zones).registered = w.registered :=
    (registered_putCreature _ _ _).trans (registered_takeCreature _ _ _)
  have hthings : { tile with creatures := c :: tile.creatures.erase c }.things.Perm tile.things :=
    ((hperm.map _).append_left _).append_left _
  refine ⟨h.1.quiet htile htiles rfl hregistered (fun z => by rw [hzones]) (fun z _ => by rw [hzones])
    (Or.inr fun thing => ?_), h.2.setTile htile (hthings.nodup_iff.2 (h.2.nodup pos tile htile))
      (fun thing hmem => Or.inl (hthings.mem_iff.1 hmem)) htiles⟩
  cases thing <;> simp [hperm.mem_iff]

/-- A creature goes to another tile: as if all zones of the two were told. -/
theorem kept_moveCreature_other (h : Kept rules w) {oldPos newPos : Position} {oldTile newTile : Tile}
    (hold : w.tiles oldPos = some oldTile) (hnew : w.tiles newPos = some newTile) (hne : newPos ≠ oldPos) {c : ℕ}
    (hc : c ∈ oldTile.creatures) :
    Kept rules (afterCreatureZoneChange rules ((w.takeCreature oldPos c).putCreature newPos c) c oldTile.zones
      newTile.zones) := by
  let left : World := (w.notify oldTile.zones fun zone => zone.thingRemoved rules (.creature c)).setTile oldPos
    { oldTile with creatures := oldTile.creatures.erase c }
  have hleft : Kept rules left := kept_leave h hold hc
  have hplace : left.tiles newPos = some newTile := (Function.update_of_ne hne _ _).trans hnew
  have hfresh : Fresh left (.creature c) := fresh_leave h hold hc rfl
  have hentered : Kept rules ((left.notify newTile.zones fun zone => zone.thingAdded rules (.creature c)).setTile
      newPos { newTile with creatures := c :: newTile.creatures }) :=
    ⟨hleft.1.add hplace rfl (fun thing => by cases thing <;> simp),
      hleft.2.setTile_cons hplace (perm_cons_creature newTile c) hfresh rfl⟩
  have htiles : (afterCreatureZoneChange rules ((w.takeCreature oldPos c).putCreature newPos c) c oldTile.zones
      newTile.zones).tiles = ((left.notify newTile.zones fun zone => zone.thingAdded rules (.creature c)).setTile
        newPos { newTile with creatures := c :: newTile.creatures }).tiles := by
    simp [left, afterCreatureZoneChange, World.takeCreature, World.putCreature, World.notify, World.setTile, hold,
      hnew, Function.update_of_ne hne]
  refine ⟨hentered.1.of_cache htiles ((registered_putCreature _ _ _).trans (registered_takeCreature _ _ _))
    (fun z => ?_) fun z hz n thing => ?_, hentered.2.of_tiles htiles⟩
  · rw [positions_afterCreatureZoneChange, zones_putCreature, zones_takeCreature]
    exact ((positions_notify left _ (fun zone => positions_thingAdded rules zone _) z).trans
      (positions_notify w _ (fun zone => positions_thingRemoved rules zone _) z)).symm
  · rw [mem_cache_afterCreatureZoneChange, zones_putCreature, zones_takeCreature]
    have hknown := h.1.zones oldPos oldTile hold z hz
    have hcache := h.1.caches z hz n (.creature c)
    -- Where the creature is cached already.
    have hthere : z ∈ oldTile.zones → files rules (.creature c) n = true →
        Thing.creature c ∈ (w.zones z).cache n := fun hfrom hfile =>
      hcache.2 ⟨hfile, oldPos, oldTile, hold, hknown.1 hfrom, creature_mem_listed.2 hc⟩
    have hremoved : thing ∈ (left.zones z).cache n ↔ thing ∈ (w.zones z).cache n ∧
        ¬ (thing = .creature c ∧ files rules (.creature c) n = true ∧ z ∈ oldTile.zones) := by
      by_cases hfrom : z ∈ oldTile.zones
      · have hzone : left.zones z = (w.zones z).thingRemoved rules (.creature c) :=
          zones_notify_of_mem w (fun zone => zone.thingRemoved rules (.creature c)) hfrom
        rw [hzone, mem_thingRemoved, and_iff_left hfrom]
      · have hzone : left.zones z = w.zones z :=
          zones_notify_of_notMem w (fun zone => zone.thingRemoved rules (.creature c)) hfrom
        rw [hzone]
        exact (and_iff_left fun heq => hfrom heq.2.2).symm
    rw [World.setTile]
    dsimp only
    by_cases hto : z ∈ newTile.zones
    · rw [if_pos hto, zones_notify_of_mem left _ hto, mem_thingAdded, hremoved]
      constructor
      · rintro (⟨heq, hfile, -⟩ | hmem)
        · exact Or.inl ⟨heq, hfile⟩
        · by_cases hself : thing = .creature c ∧ files rules (.creature c) n = true
          · exact Or.inl hself
          · exact Or.inr ⟨hmem, fun heq => hself ⟨heq.1, heq.2.1⟩⟩
      · rintro (⟨rfl, hfile⟩ | ⟨hmem, -⟩)
        · by_cases hfrom : z ∈ oldTile.zones
          · exact Or.inr (hthere hfrom hfile)
          · exact Or.inl ⟨rfl, hfile, hfrom⟩
        · exact Or.inr hmem
    · rw [if_neg hto, zones_notify_of_notMem left _ hto, hremoved]

/-- **A creature is moved**: the zones that both tiles have are not told. -/
theorem kept_moveCreature (h : Kept rules w) {c : ℕ} {oldPos newPos : Position} {allowed : Bool}
    (hfair : Fair rules w (.moveCreature c oldPos newPos allowed)) :
    Kept rules (moveCreature rules w c oldPos newPos allowed) := by
  rw [moveCreature]
  cases hold : w.tiles oldPos with
  | none => exact h
  | some oldTile =>
    cases hnew : w.tiles newPos with
    | none => exact h
    | some newTile =>
      have hc := hfair oldTile hold
      cases allowed with
      | false => exact h
      | true =>
        by_cases hne : newPos = oldPos
        · subst hne
          obtain rfl := Option.some.inj (hold.symm.trans hnew)
          exact kept_moveCreature_self h hold hc
        · exact kept_moveCreature_other h hold hnew hne hc

/-- **One step**: a fair step leaves everything up to date, and nothing on two tiles. -/
theorem kept_step (h : Kept rules w) {action : Action} (hfair : Fair rules w action) :
    Kept rules (step rules w action) := by
  cases action with
  | addArea z area => exact ⟨synced_addArea h.1 h.2 z area, placed_refresh h.2 z _⟩
  | subtractArea z area => exact ⟨synced_subtractArea h.1 h.2 hfair, placed_refresh h.2 z _⟩
  | refreshZones pos =>
    exact ⟨synced_refreshZones h.1 h.2 pos, h.2.of_sameThings (sameThings_refreshZones rules w pos)⟩
  | internalAddThing pos thing => exact kept_internalAddThing h hfair
  | addThing pos x old => exact kept_addThing h hfair
  | removeThing pos x => exact kept_removeThing h pos x
  | replaceThing pos old x => exact kept_replaceThing h hfair
  | moveCreature c oldPos newPos allowed => exact kept_moveCreature h hfair
  | removeCreature c pos => exact kept_removeCreature h hfair

end Steps

/-! ### An example -/

section Example

def somewhere : Position := ⟨100, 100, 7⟩

/-- One tile with a creature, and one zone without positions. -/
def oneTile : World where
  tiles pos := if pos = somewhere then some ⟨some 0, [1], [5], ∅⟩ else none
  zones _ := ⟨[], fun _ => ∅⟩
  registered := {0}

def people : Rules := ⟨fun _ => .player, fun x => x = 0⟩

theorem tiles_oneTile {pos : Position} {tile : Tile} (h : oneTile.tiles pos = some tile) :
    pos = somewhere ∧ tile = ⟨some 0, [1], [5], ∅⟩ := by
  rw [oneTile] at h
  dsimp only at h
  split_ifs at h with hpos
  exact ⟨hpos, (Option.some.inj h).symm⟩

theorem synced_oneTile : Synced people oneTile := by
  refine ⟨fun pos tile htile z _ => ?_, fun z _ n thing => ?_⟩
  · rw [(tiles_oneTile htile).2]
    simp [oneTile]
  · refine iff_of_false (Finset.notMem_empty thing) ?_
    rintro ⟨-, pos, tile, -, hmem, -⟩
    exact absurd hmem List.not_mem_nil

theorem placed_oneTile : Placed oneTile := by
  refine ⟨fun pos tile h => ?_, fun p q tile tile' thing hp hq _ _ => ?_⟩
  · rw [(tiles_oneTile h).2]
    decide
  · rw [(tiles_oneTile hp).1, (tiles_oneTile hq).1]

end Example

end TiabloServer.Zones
