import TiabloServer.Map.MapCache
import TiabloServer.Map.Position

/-!
# Loading a map through the cache

`IOMap::parseTileArea` asks the caches for every item, the nested items first, and for every tile,
and keeps what they return on the floors. `MapCache::getOrCreateTileFromCache` creates a tile from
what is kept. How items and tiles are created is a parameter.

## Main definitions

* `MapCache.cached`, `MapCache.uncached` — lookups in the caches, and lookups that return what is
  passed and record it.
* `MapCache.getOrCreateTileFromCache` — creates a tile.

## Main results

* `MapCache.loadMap_cached` — what is loaded through the caches is what is loaded without.
* `MapCache.cache_faithful_iff` — runs of the caches, and the tiles that are created.
-/

namespace TiabloServer.MapCache

/-! ## Loading -/

section Loading

variable {σ : Type}

/-- How items and tiles are looked up. -/
structure Lookups (σ : Type) where
  item : BasicItem → StateM σ BasicItem
  tile : BasicTile → StateM σ BasicTile

/-- What loading a map asks of the type of an item. -/
structure ItemTypes where
  isBed : UInt16 → Bool
  isTrashHolder : UInt16 → Bool
  movable : UInt16 → Bool
  isGroundTile : UInt16 → Bool

/-- A node of a tile: its position, its house, its flags and its items, an item in its attributes
first. -/
structure TileNode where
  position : Position
  houseId : UInt32
  flags : UInt32
  items : List BasicItem

variable (lookups : Lookups σ) (types : ItemTypes)

mutual

/-- `BasicItem::unserializeItemNode`: the nested items are looked up. -/
def unserializeItemNode : BasicItem → StateM σ BasicItem
  | ⟨text, id, charges, actionId, uniqueId, destX, destY, doorOrDepotId, destZ, items⟩ => do
    let items ← unserializeItems items
    return ⟨text, id, charges, actionId, uniqueId, destX, destY, doorOrDepotId, destZ, items⟩

/-- The loop of `BasicItem::unserializeItemNode`. -/
def unserializeItems : List BasicItem → StateM σ (List BasicItem)
  | [] => return []
  | item :: items => do
    let item ← unserializeItemNode item
    let item ← lookups.item item
    let items ← unserializeItems items
    return item :: items

end

/-- Puts an item on a tile, unless the tile is of a house and the item is a bed, a trash holder or
movable. -/
def parseItem (tile : BasicTile) (item : BasicItem) : StateM σ BasicTile := do
  let item ← unserializeItemNode lookups item
  if tile.houseId ≠ 0 ∧ (types.isBed item.id ∨ types.isTrashHolder item.id) then return tile
  else if tile.houseId ≠ 0 ∧ types.movable item.id then return tile
  else
    let object ← lookups.item item
    if types.isGroundTile item.id then return { tile with ground := some object }
    else return { tile with items := tile.items ++ [object] }

/-- Puts items on a tile, one after the other. -/
def parseItems (tile : BasicTile) : List BasicItem → StateM σ BasicTile
  | [] => return tile
  | item :: items => do
    let tile ← parseItem lookups types tile item
    parseItems tile items

/-- The tiles that the floors keep. -/
abbrev TileCache := Position → Option BasicTile

/-- `MapCache::setBasicTile`. -/
def setBasicTile (tiles : TileCache) (position : Position) (newTile : BasicTile) :
    StateM σ TileCache :=
  if position.z.toNat ≥ MAP_MAX_LAYERS then return tiles
  else do
    let tile ← lookups.tile newTile
    return Function.update tiles position (some tile)

/-- A node of a tile in `IOMap::parseTileArea`. -/
def parseTile (tiles : TileCache) (node : TileNode) : StateM σ TileCache := do
  let tile ← parseItems lookups types ⟨none, [], node.flags, node.houseId, 0, false⟩ node.items
  if tile.ground.isNone ∧ tile.items = [] then return tiles
  else setBasicTile lookups tiles node.position tile

/-- The tiles of a map, one after the other. -/
def loadMap (tiles : TileCache) : List TileNode → StateM σ TileCache
  | [] => return tiles
  | node :: nodes => do
    let tiles ← parseTile lookups types tiles node
    loadMap tiles nodes

end Loading

/-! ## Loading with and without the caches -/

section Lookups

variable {κ : Type} {combine : List Value → κ} {all : List Call} {β γ : Type}

/-- A program with the caches does what it does without, if what it looks up is in a list of
calls. -/
def Follows (combine : List Value → κ) (all : List Call) (f : StateM (Caches κ) β)
    (g : StateM (List Call) β) : Prop :=
  ∀ caches calls, calls ⊆ (g calls).2 ∧ ((g calls).2 ⊆ all → caches.Filled combine all →
    (f caches).1 = (g calls).1 ∧ (f caches).2.Filled combine all)

theorem Follows.pure (b : β) : Follows combine all (Pure.pure b : StateM (Caches κ) β) (Pure.pure b) :=
  fun _ calls => ⟨List.Subset.refl calls, fun _ hfilled => ⟨rfl, hfilled⟩⟩

theorem Follows.bind {f : StateM (Caches κ) β} {g : StateM (List Call) β}
    {f' : β → StateM (Caches κ) γ} {g' : β → StateM (List Call) γ} (h : Follows combine all f g)
    (h' : ∀ b, Follows combine all (f' b) (g' b)) : Follows combine all (f >>= f') (g >>= g') := by
  intro caches calls
  obtain ⟨hgrow, hfirst⟩ := h caches calls
  obtain ⟨hgrow', hsecond⟩ := h' (g calls).1 (f caches).2 (g calls).2
  refine ⟨List.Subset.trans hgrow hgrow', fun hall hfilled => ?_⟩
  obtain ⟨heq, hfilled'⟩ := hfirst (List.Subset.trans hgrow' hall) hfilled
  change (f' (f caches).1 (f caches).2).1 = (g' (g calls).1 (g calls).2).1 ∧
    (f' (f caches).1 (f caches).2).2.Filled combine all
  rw [heq]
  exact hsecond hall hfilled'

theorem Follows.ite {c : Prop} [Decidable c] {f f' : StateM (Caches κ) β}
    {g g' : StateM (List Call) β} (h : Follows combine all f g) (h' : Follows combine all f' g') :
    Follows combine all (if c then f else f') (if c then g else g') := by
  split_ifs
  · exact h
  · exact h'

variable [DecidableEq κ]

/-- Lookups in the caches. -/
def cached (combine : List Value → κ) : Lookups (Caches κ) where
  item ref := fun caches => static_tryGetItemFromCache combine caches ref
  tile ref := fun caches => static_tryGetTileFromCache combine caches ref

/-- Lookups that return what is passed, and record it. -/
def uncached : Lookups (List Call) where
  item ref := fun calls => (ref, calls ++ [.item ref])
  tile ref := fun calls => (ref, calls ++ [.tile ref])

variable (hcombine : Function.Injective combine) (hapart : ∀ c ∈ all, ∀ d ∈ all, Apart c d)

include hcombine hapart

theorem follows_item (ref : BasicItem) : Follows combine all ((cached combine).item ref) (uncached.item ref) := by
  intro caches calls
  refine ⟨List.subset_append_left calls [.item ref], fun hall hfilled => ?_⟩
  have hmem : Call.item ref ∈ all := hall (List.mem_append_right calls (List.mem_singleton.2 rfl))
  have hfilled' := hfilled.call hmem
  have hlookup := hfilled'.lookup_eq hcombine (hapart _ hmem) (lookup_call caches (.item ref))
  exact ⟨Call.item.inj hlookup, hfilled'⟩

theorem follows_tile (ref : BasicTile) : Follows combine all ((cached combine).tile ref) (uncached.tile ref) := by
  intro caches calls
  refine ⟨List.subset_append_left calls [.tile ref], fun hall hfilled => ?_⟩
  have hmem : Call.tile ref ∈ all := hall (List.mem_append_right calls (List.mem_singleton.2 rfl))
  have hfilled' := hfilled.call hmem
  have hlookup := hfilled'.lookup_eq hcombine (hapart _ hmem) (lookup_call caches (.tile ref))
  exact ⟨Call.tile.inj hlookup, hfilled'⟩

omit hcombine hapart

mutual

theorem follows_unserializeItemNode (hcombine : Function.Injective combine)
    (hapart : ∀ c ∈ all, ∀ d ∈ all, Apart c d) : ∀ item : BasicItem, Follows combine all
      (unserializeItemNode (cached combine) item) (unserializeItemNode uncached item)
  | ⟨_, _, _, _, _, _, _, _, _, items⟩ => by
    simp only [unserializeItemNode]
    exact (follows_unserializeItems hcombine hapart items).bind fun _ => Follows.pure _

theorem follows_unserializeItems (hcombine : Function.Injective combine)
    (hapart : ∀ c ∈ all, ∀ d ∈ all, Apart c d) : ∀ items : List BasicItem, Follows combine all
      (unserializeItems (cached combine) items) (unserializeItems uncached items)
  | [] => by
    simp only [unserializeItems]
    exact Follows.pure []
  | item :: items => by
    simp only [unserializeItems]
    exact (follows_unserializeItemNode hcombine hapart item).bind fun item' =>
      (follows_item hcombine hapart item').bind fun _ =>
        (follows_unserializeItems hcombine hapart items).bind fun _ => Follows.pure _

end

include hcombine hapart

variable (types : ItemTypes)

theorem follows_parseItem (tile : BasicTile) (item : BasicItem) : Follows combine all
    (parseItem (cached combine) types tile item) (parseItem uncached types tile item) :=
  (follows_unserializeItemNode hcombine hapart item).bind fun item' =>
    (Follows.pure tile).ite <| (Follows.pure tile).ite <|
      (follows_item hcombine hapart item').bind fun _ => (Follows.pure _).ite (Follows.pure _)

theorem follows_parseItems (tile : BasicTile) (items : List BasicItem) : Follows combine all
    (parseItems (cached combine) types tile items) (parseItems uncached types tile items) := by
  induction items generalizing tile with
  | nil => exact Follows.pure tile
  | cons item items ih => exact (follows_parseItem hcombine hapart types tile item).bind ih

theorem follows_parseTile (tiles : TileCache) (node : TileNode) : Follows combine all
    (parseTile (cached combine) types tiles node) (parseTile uncached types tiles node) :=
  (follows_parseItems hcombine hapart types _ node.items).bind fun tile =>
    (Follows.pure tiles).ite <| (Follows.pure tiles).ite <|
      (follows_tile hcombine hapart tile).bind fun _ => Follows.pure _

theorem follows_loadMap (tiles : TileCache) (nodes : List TileNode) : Follows combine all
    (loadMap (cached combine) types tiles nodes) (loadMap uncached types tiles nodes) := by
  induction nodes generalizing tiles with
  | nil => exact Follows.pure tiles
  | cons node nodes ih => exact (follows_parseTile hcombine hapart types tiles node).bind ih

variable (combine) in
/-- **What is loaded** through the caches is what is loaded without, if no two objects that are
looked up have the same values that are not zero in different fields. -/
theorem loadMap_cached (nodes : List TileNode) (hall : (loadMap uncached types (fun _ => none) nodes []).2 ⊆ all) :
    (loadMap (cached combine) types (fun _ => none) nodes Caches.flush).1 =
      (loadMap uncached types (fun _ => none) nodes []).1 :=
  ((follows_loadMap hcombine hapart types (fun _ => none) nodes Caches.flush []).2 hall
    ⟨Interning.filled_empty, Interning.filled_empty⟩).1

end Lookups

/-! ## Creating tiles -/

section Creation

/-- What creating a tile asks of items. -/
structure ItemApi (ι : Type) where
  CreateItem : UInt16 → Position → Option ι
  setSubType : ι → UInt16 → ι
  setActionId : ι → UInt16 → ι
  addUniqueId : ι → UInt16 → ι
  isTeleport : ι → Bool
  setDestPos : ι → Position → ι
  isDoor : ι → Bool
  setDoorId : ι → UInt16 → ι
  isContainer : ι → Bool
  isDepotLocker : ι → Bool
  setDepotId : ι → UInt16 → ι
  setText : ι → String → ι
  addItem : ι → ι → ι
  getItemCount : ι → ℕ
  setItemCount : ι → ℕ → ι
  startDecaying : ι → ι

/-- What creating a tile asks of tiles. -/
structure TileApi (ι τ : Type) where
  houseTile : Position → UInt32 → τ
  staticTile : Position → τ
  dynamicTile : Position → τ
  internalAddThing : τ → Option ι → τ
  setFlag : τ → UInt32 → τ
  addZones : τ → Position → τ

variable {ι τ : Type} (api : ItemApi ι)

/-- `MapCache::parseItemAttr`. -/
def parseItemAttr (basicItem : BasicItem) (item : ι) : ι :=
  let item := if basicItem.charges > 0 then api.setSubType item basicItem.charges else item
  let item := if basicItem.actionId > 0 then api.setActionId item basicItem.actionId else item
  let item := if basicItem.uniqueId > 0 then api.addUniqueId item basicItem.uniqueId else item
  let item :=
    if api.isTeleport item ∧ (basicItem.destX ≠ 0 ∨ basicItem.destY ≠ 0 ∨ basicItem.destZ ≠ 0) then
      api.setDestPos item ⟨basicItem.destX, basicItem.destY, basicItem.destZ⟩
    else item
  let item :=
    if api.isDoor item ∧ basicItem.doorOrDepotId ≠ 0 then
      api.setDoorId item basicItem.doorOrDepotId
    else item
  let item :=
    if api.isContainer item ∧ api.isDepotLocker item ∧ basicItem.doorOrDepotId ≠ 0 then
      api.setDepotId item basicItem.doorOrDepotId
    else item
  if basicItem.text ≠ "" then api.setText item basicItem.text else item

mutual

/-- `MapCache::createItem`. -/
def createItem (position : Position) : BasicItem → Option ι
  | ⟨text, id, charges, actionId, uniqueId, destX, destY, doorOrDepotId, destZ, items⟩ =>
    (api.CreateItem id position).map fun item =>
      let item := parseItemAttr api
        ⟨text, id, charges, actionId, uniqueId, destX, destY, doorOrDepotId, destZ, items⟩ item
      let item := if api.isContainer item then createInside position item items else item
      let item := if api.getItemCount item = 0 then api.setItemCount item 1 else item
      api.startDecaying item

/-- The items inside a container. -/
def createInside (position : Position) (container : ι) : List BasicItem → ι
  | [] => container
  | basicItem :: basicItems =>
    match createItem position basicItem with
    | some inside => createInside position (api.addItem container inside) basicItems
    | none => createInside position container basicItems

end

variable (tileApi : TileApi ι τ)

/-- The tiles of the floors, and those that are still to be created. -/
structure Floors (τ : Type) where
  tiles : Position → Option τ
  tileCache : TileCache

/-- `MapCache::getOrCreateTileFromCache`. -/
def getOrCreateTileFromCache (floors : Floors τ) (position : Position) : Option τ × Floors τ :=
  match floors.tileCache position with
  | none => (floors.tiles position, floors)
  | some cachedTile =>
    let tile :=
      if cachedTile.houseId ≠ 0 then tileApi.houseTile position cachedTile.houseId
      else if cachedTile.isStatic then tileApi.staticTile position
      else tileApi.dynamicTile position
    let tile := cachedTile.ground.elim tile fun ground =>
      tileApi.internalAddThing tile (createItem api position ground)
    let tile := cachedTile.items.foldl
      (fun tile basicItem => tileApi.internalAddThing tile (createItem api position basicItem)) tile
    let tile := tileApi.addZones (tileApi.setFlag tile cachedTile.flags) position
    (some tile,
      { tiles := Function.update floors.tiles position (some tile)
        tileCache := Function.update floors.tileCache position none })

/-- A map that has been loaded and none of whose tiles has been created. -/
def loaded (tileCache : TileCache) : Floors τ := ⟨fun _ => none, tileCache⟩

/-- What is created at some positions, one after the other. -/
def createAll (floors : Floors τ) : List Position → List (Option τ)
  | [] => []
  | position :: positions =>
    let (tile, floors) := getOrCreateTileFromCache api tileApi floors position
    tile :: createAll floors positions

end Creation

/-- **The cache of map objects.** If `hash_combine` has no collisions, a run of the caches returns
every object as it was passed exactly if no two of them that differ in which fields are zero have
the same values that are not zero. A map whose objects are so is created as if there were no
caches. -/
theorem cache_faithful_iff {κ : Type} [DecidableEq κ] {combine : List Value → κ}
    (hcombine : Function.Injective combine) :
    (∀ calls : List Call, (run combine Caches.flush calls).1 = calls ↔
      ∀ c ∈ calls, ∀ d ∈ calls, Apart c d) ∧
    ∀ {ι τ : Type} (api : ItemApi ι) (tileApi : TileApi ι τ) (types : ItemTypes)
      (nodes : List TileNode) (positions : List Position),
      (∀ c ∈ (loadMap uncached types (fun _ => none) nodes []).2,
        ∀ d ∈ (loadMap uncached types (fun _ => none) nodes []).2, Apart c d) →
      createAll api tileApi (loaded
          (loadMap (cached combine) types (fun _ => none) nodes Caches.flush).1) positions =
        createAll api tileApi (loaded (loadMap uncached types (fun _ => none) nodes []).1)
          positions := by
  refine ⟨run_faithful_iff hcombine, ?_⟩
  intro ι τ api tileApi types nodes positions hapart
  rw [loadMap_cached combine hcombine hapart types nodes (List.Subset.refl _)]

/-- An item without attributes. -/
def BasicItem.plain (id : UInt16) : BasicItem := ⟨"", id, 0, 0, 0, 0, 0, 0, 0, []⟩

/-- Two items of one kind, of which one has an action id. -/
theorem cache_faithful_iff_actionId :
    (run (fun values => values) Caches.flush
        [.item (BasicItem.plain 5), .item { BasicItem.plain 5 with actionId := 100 }]).1 =
      [.item (BasicItem.plain 5), .item { BasicItem.plain 5 with actionId := 100 }] := by
  refine ((cache_faithful_iff Function.injective_id).1 _).2 ?_
  have hvalues : (BasicItem.plain 5).hashed ≠ { BasicItem.plain 5 with actionId := 100 }.hashed := by
    decide
  intro c hc d hd
  simp only [List.mem_cons, List.not_mem_nil, or_false] at hc hd
  rcases hc with rfl | rfl <;> rcases hd with rfl | rfl
  · exact fun _ => rfl
  · exact fun h => absurd h hvalues
  · exact fun h => absurd h.symm hvalues
  · exact fun _ => rfl

/-- An item with an action id and one with the same number as unique id: the first one is returned
for the second. -/
theorem not_run_faithful :
    ¬ ∀ calls : List Call, (run (fun values => values) Caches.flush calls).1 = calls := by
  intro h
  have hrun := h [.item { BasicItem.plain 5 with actionId := 100 },
    .item { BasicItem.plain 5 with uniqueId := 100 }]
  have hreturned : (run (fun values => values) Caches.flush
      [.item { BasicItem.plain 5 with actionId := 100 },
        .item { BasicItem.plain 5 with uniqueId := 100 }]).1 =
      [.item { BasicItem.plain 5 with actionId := 100 },
        .item { BasicItem.plain 5 with actionId := 100 }] := by rfl
  rw [hreturned] at hrun
  have hunique := congrArg BasicItem.uniqueId
    (Call.item.inj (List.cons.inj (List.cons.inj hrun).2).1)
  exact absurd hunique (by decide)

end TiabloServer.MapCache
