import TiabloServer.Lib.OrderedMap

/-!
# The items of a player in the database

`IOLoginDataSave::saveItems` (`io/functions/iologindata_save_player.cpp`) writes the items of a
player as rows: the items in the places of the player first, and then the contents of containers,
breadth first. A row has an id of its own and the id of the container, or of the place, that the
item is in. `loadItems` and the three functions that rebuild the inventory, the depot and the inbox
(`io/functions/iologindata_load_player.cpp`) read the rows back.

## Main definitions

* `PlayerItems.rebuild` — the loop that puts what has been read back into containers and places.
* `PlayerItems.Matches`, `PlayerItems.Load.Holds` — rows, and items that have been loaded, make up
  items.

## Main results

* `PlayerItems.saved_saveItems` — the rows make up the items.
* `PlayerItems.contents_rebuild` — the rebuilt contents of a container are the items whose rows have
  its id.
* `PlayerItems.saveItems_givesBack` — what has been saved is loaded.

## Design

A place of the player has a number below 100, and the ids of rows begin at 101. An item that has
been loaded is named by the id of its row. What `Item::serializeAttr` and `Item::unserializeAttr` do
is a parameter.
-/

namespace TiabloServer.PlayerItems

/-! ## Items -/

/-- The classes of items between which `Item::CreateItem` chooses: containers, depot lockers and
reward chests; teleports, fields, doors and others with a class of their own; and all others. -/
inductive ItemClass where
  | container
  | special
  | item
  deriving DecidableEq

/-- The classes of the registered types of items. -/
abbrev Registry := UInt16 → Option ItemClass

/-- `ItemTransformationMap` in `Item::CreateItem`: items that are created as their default type. -/
def ItemTransformationMap : List (UInt16 × UInt16) :=
  [(3094, 3091), (3096, 3093), (3099, 3097), (3100, 3098), (3086, 3049), (3090, 3053), (3549, 6529),
    (6300, 6299), (16264, 16114), (25757, 35901)]

/-- The type of an item after it has been created. -/
def defaultType (type : UInt16) : UInt16 := (ItemTransformationMap.lookup type).getD type

/-- An item without its contents. -/
structure Body (A : Type) where
  id : UInt16
  attributes : A
  deriving DecidableEq

/-- Attributes: the subtype in them, those of an item that has been created with a type and a count,
and how they are serialized. -/
structure Attributes (A : Type) where
  getSubType : UInt16 → A → UInt16
  created : UInt16 → UInt16 → A
  serializeAttr : A → List UInt8
  unserializeAttr : A → List UInt8 → Option A
  restores : ∀ a id count, unserializeAttr (created id count) (serializeAttr a) = some a

/-- Items one after another, those that are containers with their contents. The class of an item is
that of its type. -/
inductive Items (types : Registry) (A : Type) where
  | nil
  | item (body : Body A) (class_item : ∃ c, types body.id = some c ∧ c ≠ .container)
    (next : Items types A)
  | container (body : Body A) (class_container : types body.id = some .container)
    (contents next : Items types A)

variable {types : Registry} {A : Type}

namespace Items

/-- The number of items, without those in containers. -/
def length : Items types A → ℕ
  | nil => 0
  | item _ _ next => next.length + 1
  | container _ _ _ next => next.length + 1

/-- The number of items, with those in containers. -/
def size : Items types A → ℕ
  | nil => 0
  | item _ _ next => next.size + 1
  | container _ _ contents next => contents.size + next.size + 1

end Items

/-! ## Writing -/

/-- A row of `player_items`, `player_depotitems` or `player_inboxitems`. -/
structure Row where
  pid : ℕ
  sid : ℕ
  itemtype : UInt16
  count : UInt16
  attributes : List UInt8
  deriving DecidableEq

section Writing

variable (attrs : Attributes A) (mark : Body A → A)

/-- The row of an item. -/
def rowOf (pid sid : ℕ) (body : Body A) : Row :=
  ⟨pid, sid, body.id, attrs.getSubType body.id body.attributes, attrs.serializeAttr body.attributes⟩

/-- A container whose attribute `OPENCONTAINER` has been set by the open containers of the
player. -/
def marked (body : Body A) : Body A := { body with attributes := mark body }

/-- The rows of items in one container or place, and the containers among them with their ids. -/
def addRows (pid : ℕ) : ℕ → Items types A → List Row × List (Items types A × ℕ)
  | _, .nil => ([], [])
  | runningId, .item body _ next =>
    let (rows, queue) := addRows pid (runningId + 1) next
    (rowOf attrs pid (runningId + 1) body :: rows, queue)
  | runningId, .container body _ contents next =>
    let (rows, queue) := addRows pid (runningId + 1) next
    (rowOf attrs pid (runningId + 1) (marked mark body) :: rows, (contents, runningId + 1) :: queue)

/-- The items that a queue of containers has still to be saved of, and the containers. -/
def queueSize (queue : List (Items types A × ℕ)) : ℕ := (queue.map fun p => p.1.size + 1).sum

theorem queueSize_addRows (pid runningId : ℕ) (items : Items types A) :
    queueSize (addRows attrs mark pid runningId items).2 ≤ items.size := by
  induction items generalizing runningId with
  | nil => exact le_rfl
  | item body h next ih => exact (ih (runningId + 1)).trans (Nat.le_succ _)
  | container body h contents next _ ih =>
    have hnext := ih (runningId + 1)
    simp only [addRows, queueSize, List.map_cons, List.sum_cons, Items.size] at hnext ⊢
    omega

/-- The loop of `saveItems` through the containers. -/
def saveQueue : ℕ → List (Items types A × ℕ) → List Row
  | _, [] => []
  | runningId, (contents, parentId) :: queue =>
    let rows := (addRows attrs mark parentId runningId contents).1
    rows ++ saveQueue (runningId + rows.length)
      (queue ++ (addRows attrs mark parentId runningId contents).2)
termination_by _ queue => queueSize queue
decreasing_by
  have h := queueSize_addRows attrs mark parentId runningId contents
  simp only [queueSize, List.map_append, List.sum_append, List.map_cons, List.sum_cons] at h ⊢
  omega

/-- The loop of `saveItems` through the item list, of which one entry has all items of a place. -/
def saveRoots : ℕ → List (ℕ × Items types A) → List Row × List (Items types A × ℕ)
  | _, [] => ([], [])
  | runningId, (pid, items) :: itemList =>
    let (rows, queue) := addRows attrs mark pid runningId items
    let (rows', queue') := saveRoots (runningId + rows.length) itemList
    (rows ++ rows', queue ++ queue')

/-- `IOLoginDataSave::saveItems`: the rows that are inserted. -/
def saveItems (itemList : List (ℕ × Items types A)) : List Row :=
  let (rows, queue) := saveRoots attrs mark 100 itemList
  rows ++ saveQueue attrs mark (100 + rows.length) queue

end Writing

/-! ## Reading -/

/-- An item that has been loaded: the pair in `ItemsMap`, and whether the item is a container. -/
structure Loaded (A : Type) where
  body : Body A
  isContainer : Bool
  pid : ℕ
  deriving DecidableEq

/-- `ORDER BY sid DESC`. -/
def orderBySid (rows : List Row) : List Row := rows.mergeSort fun a b => b.sid ≤ a.sid

section Reading

variable (types) (attrs : Attributes A)

/-- The item of a row: `Item::CreateItem` and `Item::unserializeAttr`. -/
def loadRow (row : Row) : Option (Loaded A) :=
  match types row.itemtype with
  | none => none
  | some itemClass =>
    let id := if itemClass = .item then defaultType row.itemtype else row.itemtype
    (attrs.unserializeAttr (attrs.created id row.count) row.attributes).map fun attributes =>
      ⟨⟨id, attributes⟩, itemClass = .container, row.pid⟩

/-- `IOLoginDataLoad::loadItems`. -/
def loadItems (rows : List Row) : List (ℕ × Loaded A) :=
  rows.foldl (fun itemsMap row =>
    match loadRow types attrs row with
    | none => itemsMap
    | some item => OrderedMap.insert itemsMap row.sid item) []

/-- The places of a player: which ids are places, and how an item is put into one. -/
structure Places (R : Type) where
  isRoot : ℕ → Bool
  empty : R
  add : R → ℕ → ℕ → R

/-- The places of a player and the item lists of the containers, by ids. -/
structure Rebuilt (R : Type) where
  roots : R
  contents : ℕ → List ℕ

variable {R : Type} (places : Places R)

/-- One round of the loops of `loadPlayerInventoryItems`, `loadPlayerDepotItems` and
`loadPlayerInboxItems`. -/
def rebuildStep (itemsMap : List (ℕ × Loaded A)) (entry : ℕ × Loaded A) (s : Rebuilt R) : Rebuilt R :=
  let (sid, item) := entry
  if places.isRoot item.pid then { s with roots := places.add s.roots item.pid sid }
  else
    match OrderedMap.find itemsMap item.pid with
    | none => s
    | some parent =>
      if parent.isContainer then
        { s with contents := Function.update s.contents item.pid (sid :: s.contents item.pid) }
      else s

/-- The loop, from the last entry of the map to the first. -/
def rebuild (itemsMap : List (ℕ × Loaded A)) : Rebuilt R :=
  itemsMap.reverse.foldl (fun s entry => rebuildStep places itemsMap entry s) ⟨places.empty, fun _ => []⟩

/-- What has been loaded. -/
structure Load (A R : Type) extends Rebuilt R where
  items : List (ℕ × Loaded A)

/-- Rows are read and rebuilt. -/
def load (rows : List Row) : Load A R :=
  let itemsMap := loadItems types attrs (orderBySid rows)
  { rebuild places itemsMap with items := itemsMap }

/-- `CONST_SLOT_LAST`, `CONST_SLOT_GLOVES`. -/
def CONST_SLOT_LAST : ℕ := 13

/-- `Player::internalAddThing`, for the slots of the inventory. -/
def inventoryPlaces : Places (ℕ → Option ℕ) where
  isRoot pid := 1 ≤ pid && pid ≤ CONST_SLOT_LAST
  empty _ := none
  add inventory index sid :=
    if (inventory index).isSome then inventory else Function.update inventory index (some sid)

/-- `Container::internalAddThing` of the depot chests; one that is missing is created. -/
def depotPlaces : Places (ℕ → List ℕ) where
  isRoot pid := pid < 100
  empty _ := []
  add chests pid sid := Function.update chests pid (sid :: chests pid)

/-- `Container::internalAddThing` of the inbox. -/
def inboxPlaces : Places (List ℕ) where
  isRoot pid := pid < 100
  empty := []
  add inbox _ sid := sid :: inbox

end Reading

/-! ## Rows that make up items -/

/-- The rows of the items in a container or place. -/
def childrenOf (rows : List Row) (pid : ℕ) : List Row := rows.filter fun row => row.pid = pid

theorem mem_childrenOf {rows : List Row} {pid : ℕ} {row : Row} :
    row ∈ childrenOf rows pid ↔ row ∈ rows ∧ row.pid = pid := by
  rw [childrenOf, List.mem_filter, decide_eq_true_eq]

@[simp]
theorem childrenOf_append (rows rows' : List Row) (pid : ℕ) :
    childrenOf (rows ++ rows') pid = childrenOf rows pid ++ childrenOf rows' pid :=
  List.filter_append _ _

theorem childrenOf_eq_self {rows : List Row} {pid : ℕ} (h : ∀ row ∈ rows, row.pid = pid) :
    childrenOf rows pid = rows :=
  List.filter_eq_self.2 fun row hrow => decide_eq_true (h row hrow)

theorem childrenOf_eq_nil {rows : List Row} {pid : ℕ} (h : ∀ row ∈ rows, row.pid ≠ pid) :
    childrenOf rows pid = [] :=
  List.filter_eq_nil_iff.2 fun row hrow => by simpa using h row hrow

section Rows

variable (attrs : Attributes A) (mark : Body A → A)

/-- The row has the data of an item. -/
structure Row.Stores (row : Row) (body : Body A) : Prop where
  itemtype : row.itemtype = body.id
  attributes : row.attributes = attrs.serializeAttr body.attributes

/-- Some of the rows make up items: each that of one item, and the rows with its id the contents. -/
def Matches (rows : List Row) : List Row → Items types A → Prop
  | l, .nil => l = []
  | l, .item body _ next =>
    ∃ row rest, l = row :: rest ∧ row.Stores attrs body ∧ childrenOf rows row.sid = [] ∧
      Matches rows rest next
  | l, .container body _ contents next =>
    ∃ row rest, l = row :: rest ∧ row.Stores attrs (marked mark body) ∧
      Matches rows (childrenOf rows row.sid) contents ∧ Matches rows rest next

variable {attrs mark}

/-- Rows that are inside none of the others do not matter to them. -/
theorem Matches.append {head rows l : List Row} {items : Items types A}
    (h : Matches attrs mark rows l items) (hl : l ⊆ rows)
    (hhead : ∀ row ∈ head, ∀ row' ∈ rows, row.pid ≠ row'.sid) : Matches attrs mark (head ++ rows) l items := by
  have hchildren : ∀ row ∈ rows, childrenOf (head ++ rows) row.sid = childrenOf rows row.sid := by
    intro row hrow
    rw [childrenOf_append, childrenOf_eq_nil fun row' hrow' => hhead row' hrow' row hrow,
      List.nil_append]
  induction items generalizing l with
  | nil => exact h
  | item body hclass next ih =>
    obtain ⟨row, rest, rfl, hstores, hnone, hrest⟩ := h
    obtain ⟨hrow, hsub⟩ := List.cons_subset.1 hl
    refine ⟨row, rest, rfl, hstores, ?_, ih hrest hsub⟩
    rw [hchildren row hrow, hnone]
  | container body hclass contents next ihc ihn =>
    obtain ⟨row, rest, rfl, hstores, hcontents, hrest⟩ := h
    obtain ⟨hrow, hsub⟩ := List.cons_subset.1 hl
    refine ⟨row, rest, rfl, hstores, ?_, ihn hrest hsub⟩
    rw [hchildren row hrow]
    exact ihc hcontents fun row' hrow' => (mem_childrenOf.1 hrow').1

/-! ### The rows of one container -/

theorem sids_addRows (pid runningId : ℕ) (items : Items types A) :
    (addRows attrs mark pid runningId items).1.map Row.sid = List.range' (runningId + 1) items.length := by
  induction items generalizing runningId with
  | nil => rfl
  | item body _ next ih => simp [addRows, ih, Items.length, List.range'_succ, rowOf]
  | container body _ contents next _ ih => simp [addRows, ih, Items.length, List.range'_succ, rowOf]

theorem length_addRows (pid runningId : ℕ) (items : Items types A) :
    (addRows attrs mark pid runningId items).1.length = items.length := by
  rw [← List.length_map (f := Row.sid), sids_addRows, List.length_range']

theorem pid_addRows {pid runningId : ℕ} {items : Items types A} {row : Row}
    (h : row ∈ (addRows attrs mark pid runningId items).1) : row.pid = pid := by
  induction items generalizing runningId with
  | nil => cases h
  | item body _ next ih =>
    rcases List.mem_cons.1 h with rfl | h
    · rfl
    · exact ih h
  | container body _ contents next _ ih =>
    rcases List.mem_cons.1 h with rfl | h
    · rfl
    · exact ih h

/-- The rows have the data of items of registered types. -/
theorem stored_addRows {pid runningId : ℕ} {items : Items types A} {row : Row}
    (h : row ∈ (addRows attrs mark pid runningId items).1) :
    ∃ body, row.Stores attrs body ∧ ∃ c, types body.id = some c := by
  induction items generalizing runningId with
  | nil => cases h
  | item body hclass next ih =>
    rcases List.mem_cons.1 h with rfl | h
    · exact ⟨body, ⟨rfl, rfl⟩, hclass.imp fun _ hc => hc.1⟩
    · exact ih h
  | container body hclass contents next _ ih =>
    rcases List.mem_cons.1 h with rfl | h
    · exact ⟨marked mark body, ⟨rfl, rfl⟩, _, hclass⟩
    · exact ih h

/-- The containers that are found are among the rows. -/
theorem exists_row_of_found {pid runningId : ℕ} {items : Items types A} {p : Items types A × ℕ}
    (h : p ∈ (addRows attrs mark pid runningId items).2) :
    ∃ row ∈ (addRows attrs mark pid runningId items).1, row.sid = p.2 ∧ types row.itemtype = some .container := by
  induction items generalizing runningId with
  | nil => cases h
  | item body _ next ih =>
    obtain ⟨row, hrow, hrest⟩ := ih h
    exact ⟨row, List.mem_cons_of_mem _ hrow, hrest⟩
  | container body hclass contents next _ ih =>
    rcases List.mem_cons.1 h with rfl | h
    · exact ⟨_, List.mem_cons_self, rfl, hclass⟩
    · obtain ⟨row, hrow, hrest⟩ := ih h
      exact ⟨row, List.mem_cons_of_mem _ hrow, hrest⟩

/-- The ids of the containers that are found differ. -/
theorem found_sublist (pid runningId : ℕ) (items : Items types A) :
    ((addRows attrs mark pid runningId items).2.map Prod.snd).Sublist
      (List.range' (runningId + 1) items.length) := by
  induction items generalizing runningId with
  | nil => exact List.Sublist.refl _
  | item body _ next ih =>
    rw [Items.length, List.range'_succ]
    exact (ih (runningId + 1)).cons _
  | container body _ contents next _ ih =>
    rw [Items.length, List.range'_succ]
    exact (ih (runningId + 1)).cons_cons _

theorem bounds_found {pid runningId : ℕ} {items : Items types A} {p : Items types A × ℕ}
    (h : p ∈ (addRows attrs mark pid runningId items).2) : runningId < p.2 ∧ p.2 ≤ runningId + items.length := by
  have hmem := (found_sublist pid runningId items).subset (List.mem_map.2 ⟨p, h, rfl⟩)
  rw [List.mem_range'_1] at hmem
  omega

theorem size_eq_addRows (attrs : Attributes A) (mark : Body A → A) (pid runningId : ℕ) (items : Items types A) :
    items.size = items.length + ((addRows attrs mark pid runningId items).2.map fun p => p.1.size).sum := by
  induction items generalizing runningId with
  | nil => rfl
  | item body _ next ih =>
    simp only [Items.size, Items.length, addRows, ih (runningId + 1)]
    omega
  | container body _ contents next _ ih =>
    simp only [Items.size, Items.length, addRows, List.map_cons, List.sum_cons, ih (runningId + 1)]
    omega

/-- The rows of one container make up its items, if the rows of the containers that are found do and
the other items have none. -/
theorem matches_addRows {rows : List Row} {pid runningId : ℕ} {items : Items types A}
    (hfound : ∀ p ∈ (addRows attrs mark pid runningId items).2, Matches attrs mark rows (childrenOf rows p.2) p.1)
    (hothers : ∀ sid, runningId < sid → sid ≤ runningId + items.length →
      sid ∉ (addRows attrs mark pid runningId items).2.map Prod.snd → childrenOf rows sid = []) :
    Matches attrs mark rows (addRows attrs mark pid runningId items).1 items := by
  induction items generalizing runningId with
  | nil => rfl
  | item body hclass next ih =>
    have hself : runningId + 1 ∉ (addRows attrs mark pid (runningId + 1) next).2.map Prod.snd := by
      intro hmem
      obtain ⟨p, hp, heq⟩ := List.mem_map.1 hmem
      have := bounds_found hp
      omega
    have hbound : runningId + 1 ≤ runningId + (next.length + 1) := by omega
    refine ⟨_, _, rfl, ⟨rfl, rfl⟩, hothers (runningId + 1) (by omega) hbound hself, ?_⟩
    refine ih hfound fun sid hlt hle hnot => hothers sid (by omega) ?_ hnot
    simp only [Items.length]
    omega
  | container body hclass contents next _ ih =>
    refine ⟨_, _, rfl, ⟨rfl, rfl⟩, hfound _ List.mem_cons_self, ?_⟩
    refine ih (fun p hp => hfound p (List.mem_cons_of_mem _ hp)) fun sid hlt hle hnot => ?_
    refine hothers sid (by omega) ?_ ?_
    · simp only [Items.length]
      omega
    · simp only [addRows, List.map_cons, List.mem_cons, not_or]
      exact ⟨by omega, hnot⟩

/-! ### The rows of a queue -/

/-- Rows that have been saved for a queue of containers, with ids from `runningId` on. -/
structure Saved (attrs : Attributes A) (mark : Body A → A) (runningId : ℕ)
    (queue : List (Items types A × ℕ)) (rows : List Row) : Prop where
  sids : rows.map Row.sid = List.range' (runningId + 1) rows.length
  pids : ∀ row ∈ rows, row.pid ∈ queue.map Prod.snd ∨
    ∃ parent ∈ rows, parent.sid = row.pid ∧ types parent.itemtype = some .container
  made : ∀ p ∈ queue, Matches attrs mark rows (childrenOf rows p.2) p.1
  stored : ∀ row ∈ rows, ∃ body, row.Stores attrs body ∧ ∃ c, types body.id = some c
  length : rows.length = (queue.map fun p => p.1.size).sum

variable {runningId : ℕ} {queue : List (Items types A × ℕ)} {rows : List Row}

theorem Saved.bounds (h : Saved attrs mark runningId queue rows) {row : Row}
    (hrow : row ∈ rows) : runningId < row.sid ∧ row.sid ≤ runningId + rows.length := by
  have hmem : row.sid ∈ rows.map Row.sid := List.mem_map.2 ⟨row, hrow, rfl⟩
  rw [h.sids, List.mem_range'_1] at hmem
  omega

/-- Where no container of the queue has the id, and no row could have it, no row is inside. -/
theorem Saved.childrenOf_eq_nil (h : Saved attrs mark runningId queue rows)
    {pid : ℕ} (hqueue : pid ∉ queue.map Prod.snd) (hpid : pid ≤ runningId) : childrenOf rows pid = [] := by
  refine PlayerItems.childrenOf_eq_nil fun row hrow heq => ?_
  rcases h.pids row hrow with hmem | ⟨parent, hparent, hsid, -⟩
  · exact hqueue (heq ▸ hmem)
  · have := h.bounds hparent
    omega

/-- **The rows of a queue.** What `saveQueue` writes makes up the contents of the containers of the
queue.

**Proof sketch.** Induction on the loop. The rows of the first container come first and have its id;
the rows that follow are inside of later containers, of those that are found among the first rows,
or of their own, and none of these has the id of the first container. -/
theorem saved_saveQueue (runningId : ℕ) (queue : List (Items types A × ℕ))
    (hnodup : (queue.map Prod.snd).Nodup) (hle : ∀ p ∈ queue, p.2 ≤ runningId) :
    Saved attrs mark runningId queue (saveQueue attrs mark runningId queue) := by
  induction runningId, queue using saveQueue.induct attrs mark with
  | case1 runningId =>
    rw [saveQueue]
    exact ⟨rfl, by simp, by simp, by simp, rfl⟩
  | case2 runningId items p queue head ih =>
    rw [saveQueue]
    set found := (addRows attrs mark p runningId items).2 with hfound
    have hlength : head.length = items.length := length_addRows p runningId items
    obtain ⟨hp, hqueue⟩ := List.nodup_cons.1 hnodup
    have hpr : p ≤ runningId := hle _ List.mem_cons_self
    have hids : ∀ id ∈ queue.map Prod.snd, id ≤ runningId := by
      intro id hid
      obtain ⟨q, hq, rfl⟩ := List.mem_map.1 hid
      exact hle q (List.mem_cons_of_mem _ hq)
    have hnew : ∀ q ∈ found, runningId < q.2 ∧ q.2 ≤ runningId + head.length := by
      intro q hq
      rw [hlength]
      exact bounds_found hq
    have hsaved := ih
      (by
        rw [List.map_append, List.nodup_append]
        refine ⟨hqueue, (found_sublist p runningId items).nodup List.nodup_range', ?_⟩
        rintro id hid _ hid' rfl
        obtain ⟨q, hq, rfl⟩ := List.mem_map.1 hid'
        have := hids _ hid
        have := (hnew q hq).1
        omega)
      (by
        intro q hq
        rcases List.mem_append.1 hq with hq | hq
        · exact (hle q (List.mem_cons_of_mem _ hq)).trans (by omega)
        · exact (hnew q hq).2)
    set rest := saveQueue attrs mark (runningId + head.length) (queue ++ found) with hrest
    -- the first rows are inside the first container alone
    have hhead : ∀ id, id ≠ p → childrenOf (head ++ rest) id = childrenOf rest id := by
      intro id hid
      rw [childrenOf_append, childrenOf_eq_nil, List.nil_append]
      intro row hrow
      rw [pid_addRows hrow]
      exact hid.symm
    have happend : ∀ {l : List Row} {items : Items types A}, Matches attrs mark rest l items →
        l ⊆ rest → Matches attrs mark (head ++ rest) l items := by
      intro l items hl hsub
      refine hl.append hsub fun row hrow row' hrow' heq => ?_
      have hpid : row.pid = p := pid_addRows hrow
      have := (hsaved.bounds hrow').1
      omega
    have hchildren : ∀ id, childrenOf rest id ⊆ rest := fun id row hrow => (mem_childrenOf.1 hrow).1
    refine ⟨?_, ?_, ?_, ?_, ?_⟩
    · rw [List.map_append, hsaved.sids, sids_addRows, List.length_append, hlength]
      rw [show runningId + items.length + 1 = runningId + 1 + 1 * items.length by omega,
        List.range'_append]
    · intro row hrow
      rcases List.mem_append.1 hrow with hrow | hrow
      · left
        rw [pid_addRows hrow]
        exact List.mem_cons_self
      · rcases hsaved.pids row hrow with hmem | ⟨parent, hparent, hsid⟩
        · rw [List.map_append, List.mem_append] at hmem
          rcases hmem with hmem | hmem
          · exact Or.inl (List.mem_cons_of_mem _ hmem)
          · obtain ⟨q, hq, heq⟩ := List.mem_map.1 hmem
            obtain ⟨parent, hparent, hsid, hclass⟩ := exists_row_of_found hq
            exact Or.inr ⟨parent, List.mem_append_left _ hparent, hsid.trans heq, hclass⟩
        · exact Or.inr ⟨parent, List.mem_append_right _ hparent, hsid⟩
    · intro q hq
      rcases List.mem_cons.1 hq with rfl | hq
      · have hnone : childrenOf rest p = [] := by
          refine hsaved.childrenOf_eq_nil ?_ (by omega)
          rw [List.map_append, List.mem_append, not_or]
          refine ⟨hp, fun hmem => ?_⟩
          obtain ⟨q, hq, heq⟩ := List.mem_map.1 hmem
          have := (hnew q hq).1
          omega
        rw [childrenOf_append, hnone, List.append_nil, childrenOf_eq_self fun row hrow => pid_addRows hrow]
        refine matches_addRows (fun q hq => ?_) fun sid hlt hsid hnot => ?_
        · have := (hnew q hq).1
          rw [hhead q.2 (by omega)]
          exact happend (hsaved.made q (List.mem_append_right _ hq)) (hchildren _)
        · rw [hhead sid (by omega)]
          refine hsaved.childrenOf_eq_nil ?_ (by omega)
          rw [List.map_append, List.mem_append, not_or]
          refine ⟨fun hmem => ?_, hnot⟩
          have := hids sid hmem
          omega
      · have hne : q.2 ≠ p := fun heq => hp (heq ▸ List.mem_map.2 ⟨q, hq, rfl⟩)
        rw [hhead q.2 hne]
        exact happend (hsaved.made q (List.mem_append_left _ hq)) (hchildren _)
    · intro row hrow
      rcases List.mem_append.1 hrow with hrow | hrow
      · exact stored_addRows hrow
      · exact hsaved.stored row hrow
    · rw [List.length_append, hsaved.length, hlength, List.map_cons, List.sum_cons, List.map_append,
        List.sum_append, size_eq_addRows attrs mark p runningId items, ← hfound]
      omega

/-- The two loops of `saveItems` are one: the places are the first containers of the queue. -/
theorem saveQueue_append (attrs : Attributes A) (mark : Body A → A) (runningId : ℕ)
    (itemList : List (ℕ × Items types A)) (queue : List (Items types A × ℕ)) :
    saveQueue attrs mark runningId (itemList.map Prod.swap ++ queue) =
      (saveRoots attrs mark runningId itemList).1 ++
        saveQueue attrs mark (runningId + (saveRoots attrs mark runningId itemList).1.length)
          (queue ++ (saveRoots attrs mark runningId itemList).2) := by
  induction itemList generalizing runningId queue with
  | nil => simp [saveRoots]
  | cons p itemList ih =>
    obtain ⟨pid, items⟩ := p
    rw [List.map_cons, Prod.swap_prod_mk, List.cons_append, saveQueue, List.append_assoc, ih]
    simp only [saveRoots, List.append_assoc, List.length_append, add_assoc]

/-- **The rows of `saveItems`** make up the items of the places. -/
theorem saved_saveItems (attrs : Attributes A) (mark : Body A → A)
    (itemList : List (ℕ × Items types A)) (hnodup : (itemList.map Prod.fst).Nodup)
    (hle : ∀ p ∈ itemList, p.1 ≤ 100) :
    Saved attrs mark 100 (itemList.map Prod.swap) (saveItems attrs mark itemList) := by
  have heq : saveItems attrs mark itemList = saveQueue attrs mark 100 (itemList.map Prod.swap) := by
    have h := saveQueue_append attrs mark 100 itemList []
    rw [List.append_nil, List.nil_append] at h
    exact h.symm
  rw [heq]
  refine saved_saveQueue 100 _ ?_ fun p hp => ?_
  · rw [List.map_map]
    exact hnodup
  · obtain ⟨q, hq, rfl⟩ := List.mem_map.1 hp
    exact hle q hq

end Rows

/-! ## Rows that are loaded -/

section Loading

variable (types) in
/-- An item as it is created again: some items are created as their default type. -/
def recreated (body : Body A) : Body A :=
  { body with id := if types body.id = some .item then defaultType body.id else body.id }

namespace Load

variable {R : Type}

/-- The ids name items of the given forms, each with its contents. -/
def Holds (form : Body A → Body A) (mark : Body A → A) (l : Load A R) :
    List ℕ → Items types A → Prop
  | ids, .nil => ids = []
  | ids, .item body _ next =>
    ∃ id rest, ids = id :: rest ∧ (∃ pid, OrderedMap.find l.items id = some ⟨form body, false, pid⟩) ∧
      l.contents id = [] ∧ Holds form mark l rest next
  | ids, .container body _ contents next =>
    ∃ id rest, ids = id :: rest ∧
      (∃ pid, OrderedMap.find l.items id = some ⟨form (marked mark body), true, pid⟩) ∧
      Holds form mark l (l.contents id) contents ∧ Holds form mark l rest next

/-- The ids in a place of the player, or in a container. -/
def inside (held : R → ℕ → List ℕ) (l : Load A R) : ℕ ⊕ ℕ → List ℕ := Sum.elim (held l.roots) l.contents

/-- What has been loaded is what was saved: the places have their items, with their contents, and
each item is in one place, once. -/
structure GivesBack (form : Body A → Body A) (mark : Body A → A) (held : R → ℕ → List ℕ)
    (itemList : List (ℕ × Items types A)) (l : Load A R) : Prop where
  holds : ∀ p ∈ itemList, l.Holds form mark (held l.roots p.1) p.2
  others : ∀ pid, pid ∉ itemList.map Prod.fst → held l.roots pid = []
  once : ∀ id item, OrderedMap.find l.items id = some item → ∃! place, id ∈ l.inside held place
  nodup : ∀ place, (l.inside held place).Nodup
  length : l.items.length = (itemList.map fun p => p.2.size).sum

end Load

variable {attrs : Attributes A} {mark : Body A → A} {rows : List Row}

/-- A row with the data of an item is loaded as this item. -/
theorem loadRow_of_stores {row : Row} {body : Body A} (h : row.Stores attrs body) {c : ItemClass}
    (hclass : types body.id = some c) :
    loadRow types attrs row = some ⟨recreated types body, c = .container, row.pid⟩ := by
  rw [loadRow, h.itemtype, hclass]
  simp only [h.attributes, attrs.restores, Option.map_some, recreated, hclass, Option.some.injEq]

variable (types attrs) in
/-- The entries of the map for some rows. -/
def entries (rows : List Row) : List (ℕ × Loaded A) :=
  rows.filterMap fun row => (loadRow types attrs row).map fun item => (row.sid, item)

theorem mem_entries {p : ℕ × Loaded A} :
    p ∈ entries types attrs rows ↔ ∃ row ∈ rows, loadRow types attrs row = some p.2 ∧ row.sid = p.1 := by
  simp only [entries, List.mem_filterMap, Option.map_eq_some_iff]
  constructor
  · rintro ⟨row, hrow, item, hload, rfl⟩
    exact ⟨row, hrow, hload, rfl⟩
  · rintro ⟨row, hrow, hload, hsid⟩
    exact ⟨row, hrow, p.2, hload, by rw [hsid]⟩

theorem loadItems_eq (rows : List Row) : loadItems types attrs rows =
      (entries types attrs rows).foldl (fun map p => OrderedMap.insert map p.1 p.2) [] := by
  rw [loadItems, entries, List.foldl_filterMap]
  congr 1
  funext map row
  cases loadRow types attrs row <;> rfl

/-- Entries ascend as the ids of the rows do. -/
theorem ascending_entries (h : (rows.map Row.sid).Pairwise (· < ·)) :
    OrderedMap.Ascending (entries types attrs rows) := by
  refine (List.pairwise_filterMap).2 ((List.pairwise_map.1 h).imp fun hlt p hp q hq => ?_)
  obtain ⟨item, -, rfl⟩ := Option.map_eq_some_iff.1 hp
  obtain ⟨item', -, rfl⟩ := Option.map_eq_some_iff.1 hq
  exact hlt

/-- The map has the rows, in whatever order they are read. -/
theorem loadItems_orderBySid (h : (rows.map Row.sid).Pairwise (· < ·)) :
    loadItems types attrs (orderBySid rows) = entries types attrs rows := by
  rw [loadItems_eq]
  exact OrderedMap.foldl_insert (ascending_entries h) ((List.mergeSort_perm _ _).filterMap _)

/-! ### The loop -/

/-- All rows of the list are loaded. -/
def AllLoaded (types : Registry) (attrs : Attributes A) (rows : List Row) : Prop :=
  ∀ row ∈ rows, ∃ item, loadRow types attrs row = some item ∧ item.pid = row.pid

theorem entries_cons {row : Row} {item : Loaded A} (h : loadRow types attrs row = some item)
    (rows : List Row) : entries types attrs (row :: rows) = (row.sid, item) :: entries types attrs rows := by
  rw [entries, List.filterMap_cons, h]
  rfl

theorem length_entries (h : AllLoaded types attrs rows) : (entries types attrs rows).length = rows.length := by
  induction rows with
  | nil => rfl
  | cons row rows ih =>
    obtain ⟨item, hitem, -⟩ := h row List.mem_cons_self
    rw [entries_cons hitem, List.length_cons, List.length_cons,
      ih fun row' hrow' => h row' (List.mem_cons_of_mem _ hrow')]

variable {R : Type} (places : Places R)

/-- The loop goes through the rows from the last to the first. -/
theorem rebuild_eq (itemsMap : List (ℕ × Loaded A)) : rebuild places itemsMap =
      itemsMap.foldr (rebuildStep places itemsMap) ⟨places.empty, fun _ => []⟩ := by
  rw [rebuild, List.foldl_reverse]

/-- Items that are in places are put there, and no others. -/
theorem roots_rebuild (itemsMap : List (ℕ × Loaded A)) (h : AllLoaded types attrs rows) :
    ((entries types attrs rows).foldr (rebuildStep places itemsMap) ⟨places.empty, fun _ => []⟩).roots =
      (rows.filter fun row => places.isRoot row.pid).foldr
        (fun row roots => places.add roots row.pid row.sid) places.empty := by
  induction rows with
  | nil => rfl
  | cons row rows ih =>
    obtain ⟨item, hitem, hpid⟩ := h row List.mem_cons_self
    have hrest := ih fun row' hrow' => h row' (List.mem_cons_of_mem _ hrow')
    rw [entries_cons hitem, List.foldr_cons, rebuildStep]
    by_cases hroot : places.isRoot row.pid = true
    · rw [hpid, if_pos hroot,
        List.filter_cons_of_pos (p := fun row : Row => places.isRoot row.pid) hroot, List.foldr_cons, hrest]
    · rw [hpid, if_neg hroot,
        List.filter_cons_of_neg (p := fun row : Row => places.isRoot row.pid) hroot, ← hrest]
      cases OrderedMap.find itemsMap row.pid with
      | none => rfl
      | some parent =>
        simp only
        split_ifs <;> rfl

/-- Items that are in containers are put there, in the order of their rows. -/
theorem contents_rebuild {itemsMap : List (ℕ × Loaded A)} (h : AllLoaded types attrs rows) (pid : ℕ) :
    ((entries types attrs rows).foldr (rebuildStep places itemsMap)
        ⟨places.empty, fun _ => []⟩).contents pid =
      if places.isRoot pid = false ∧ (OrderedMap.find itemsMap pid).any Loaded.isContainer = true then
        (childrenOf rows pid).map Row.sid
      else [] := by
  induction rows with
  | nil => simp [entries, childrenOf]
  | cons row rows ih =>
    obtain ⟨item, hitem, hpid⟩ := h row List.mem_cons_self
    have hrest := ih fun row' hrow' => h row' (List.mem_cons_of_mem _ hrow')
    rw [entries_cons hitem, List.foldr_cons, rebuildStep, hpid]
    by_cases hroot : places.isRoot row.pid = true
    · rw [if_pos hroot]
      by_cases hsame : row.pid = pid
      · rw [if_neg (by simp [← hsame, hroot])] at hrest ⊢
        exact hrest
      · rw [childrenOf, List.filter_cons_of_neg (by simpa using hsame)]
        exact hrest
    · rw [if_neg hroot]
      by_cases hsame : row.pid = pid
      · subst hsame
        rw [childrenOf, List.filter_cons_of_pos (by simp), List.map_cons]
        cases hfind : OrderedMap.find itemsMap row.pid with
        | none => simpa [hfind, childrenOf] using hrest
        | some parent =>
          by_cases hcontainer : parent.isContainer = true
          · simp [hfind, hcontainer, hroot, hrest, childrenOf]
          · simpa [hfind, hcontainer, childrenOf] using hrest
      · rw [childrenOf, List.filter_cons_of_neg (by simpa using hsame)]
        cases OrderedMap.find itemsMap row.pid with
        | none => exact hrest
        | some parent =>
          by_cases hcontainer : parent.isContainer = true
          · simp only [hcontainer, if_true, Function.update_of_ne (Ne.symm hsame)]
            exact hrest
          · simp only [hcontainer]
            exact hrest

/-! ### What is given back -/

variable {itemList : List (ℕ × Items types A)}

/-- Rows that have been saved ascend. -/
theorem Saved.ascending {runningId : ℕ} {queue : List (Items types A × ℕ)}
    (h : Saved attrs mark runningId queue rows) : (rows.map Row.sid).Pairwise (· < ·) := by
  rw [h.sids]
  exact List.pairwise_lt_range'

theorem Saved.allLoaded {runningId : ℕ} {queue : List (Items types A × ℕ)}
    (h : Saved attrs mark runningId queue rows) : AllLoaded types attrs rows := by
  intro row hrow
  obtain ⟨body, hstores, c, hclass⟩ := h.stored row hrow
  exact ⟨_, loadRow_of_stores hstores hclass, rfl⟩

/-- What is found under the id of a row is the item of the row. -/
theorem Saved.find_of_stores {runningId : ℕ} {queue : List (Items types A × ℕ)}
    (h : Saved attrs mark runningId queue rows) {row : Row} (hrow : row ∈ rows)
    {body : Body A} (hstores : row.Stores attrs body) {c : ItemClass} (hclass : types body.id = some c) :
    OrderedMap.find (entries types attrs rows) row.sid = some ⟨recreated types body, c = .container, row.pid⟩ :=
  (OrderedMap.find_eq_some_iff (ascending_entries h.ascending)).2
    (mem_entries.2 ⟨row, hrow, loadRow_of_stores hstores hclass, rfl⟩)

/-- Different rows have different ids. -/
theorem Saved.eq_of_sid {runningId : ℕ} {queue : List (Items types A × ℕ)}
    (h : Saved attrs mark runningId queue rows) {row row' : Row} (hrow : row ∈ rows)
    (hrow' : row' ∈ rows) (heq : row.sid = row'.sid) : row = row' := by
  have hnodup : (rows.map Row.sid).Nodup := h.ascending.imp fun hlt => hlt.ne
  exact List.inj_on_of_nodup_map hnodup hrow hrow' heq

/-- **Items that are given back.** Rows that make up items are loaded as these items. -/
theorem holds_of_matches {runningId : ℕ} {queue : List (Items types A × ℕ)}
    (h : Saved attrs mark runningId queue rows)
    (hroots : ∀ pid, places.isRoot pid = true → pid ≤ runningId) {l : Load A R}
    (hitems : l.items = entries types attrs rows)
    (hcontents : ∀ pid, l.contents pid =
      if places.isRoot pid = false ∧ (OrderedMap.find l.items pid).any Loaded.isContainer = true then
        (childrenOf rows pid).map Row.sid
      else [])
    {chosen : List Row} {items : Items types A} (hmatches : Matches attrs mark rows chosen items)
    (hsub : chosen ⊆ rows) : l.Holds (recreated types) mark (chosen.map Row.sid) items := by
  have hroot : ∀ row ∈ rows, places.isRoot row.sid = false := by
    intro row hrow
    refine Bool.eq_false_iff.2 fun htrue => ?_
    have := hroots _ htrue
    have := (h.bounds hrow).1
    omega
  induction items generalizing chosen with
  | nil => rw [hmatches]; rfl
  | item body hclass next ih =>
    obtain ⟨row, rest, rfl, hstores, -, hrest⟩ := hmatches
    obtain ⟨hrow, hrestsub⟩ := List.cons_subset.1 hsub
    obtain ⟨c, hc, hne⟩ := hclass
    have hfind := h.find_of_stores hrow hstores hc
    refine ⟨row.sid, _, rfl, ⟨row.pid, ?_⟩, ?_, ih hrest hrestsub⟩
    · rw [hitems, hfind]
      simp [hne]
    · rw [hcontents, hitems, hfind, if_neg]
      simp [hne]
  | container body hclass contents next ihc ihn =>
    obtain ⟨row, rest, rfl, hstores, hinside, hrest⟩ := hmatches
    obtain ⟨hrow, hrestsub⟩ := List.cons_subset.1 hsub
    have hfind := h.find_of_stores (c := .container) hrow hstores hclass
    refine ⟨row.sid, _, rfl, ⟨row.pid, ?_⟩, ?_, ihn hrest hrestsub⟩
    · rw [hitems, hfind]
      simp
    · rw [hcontents, hitems, hfind, if_pos ⟨hroot row hrow, by simp⟩]
      exact ihc hinside fun row' hrow' => (mem_childrenOf.1 hrow').1

/-- **The round trip**, for places that hold the items whose rows have their number. -/
theorem givesBack_of_places (hnodup : (itemList.map Prod.fst).Nodup)
    (hitemList : ∀ p ∈ itemList, places.isRoot p.1 = true)
    (hroots : ∀ pid, places.isRoot pid = true → pid ≤ 100) {held : R → ℕ → List ℕ}
    (hheld : ∀ pid, held ((saveItems attrs mark itemList).filter (fun row => places.isRoot row.pid) |>.foldr
        (fun row roots => places.add roots row.pid row.sid) places.empty) pid =
      if places.isRoot pid = true then (childrenOf (saveItems attrs mark itemList) pid).map Row.sid
      else []) :
    (load types attrs places (saveItems attrs mark itemList)).GivesBack (recreated types) mark held
      itemList := by
  have hsaved := saved_saveItems attrs mark itemList hnodup
    fun p hp => hroots _ (hitemList p hp)
  set rows := saveItems attrs mark itemList with hrows
  set l := load types attrs places rows with hl
  have hitems : l.items = entries types attrs rows := loadItems_orderBySid hsaved.ascending
  have hcontents : ∀ pid, l.contents pid =
      if places.isRoot pid = false ∧ (OrderedMap.find l.items pid).any Loaded.isContainer = true then
        (childrenOf rows pid).map Row.sid
      else [] := by
    intro pid
    rw [hitems, ← contents_rebuild places hsaved.allLoaded pid, ← hitems, ← rebuild_eq]
    rfl
  have hplaces : ∀ pid, held l.roots pid =
      if places.isRoot pid = true then (childrenOf rows pid).map Row.sid else [] := by
    intro pid
    rw [← hheld, ← roots_rebuild places l.items hsaved.allLoaded, ← hitems, ← rebuild_eq]
    rfl
  have hinside : ∀ place, l.inside held place ⊆ (childrenOf rows (place.elim id id)).map Row.sid ∧
      (l.inside held place).Nodup := by
    have hchildren : ∀ pid, ((childrenOf rows pid).map Row.sid).Nodup := fun pid =>
      List.Nodup.sublist (List.filter_sublist.map _) (hsaved.ascending.imp fun hlt => hlt.ne)
    rintro (pid | pid)
    · rw [Load.inside, Sum.elim_inl, hplaces]
      split_ifs
      · exact ⟨List.Subset.refl _, hchildren pid⟩
      · exact ⟨List.nil_subset _, List.nodup_nil⟩
    · rw [Load.inside, Sum.elim_inr, hcontents]
      split_ifs
      · exact ⟨List.Subset.refl _, hchildren pid⟩
      · exact ⟨List.nil_subset _, List.nodup_nil⟩
  refine ⟨fun p hp => ?_, fun pid hpid => ?_, fun id item hfind => ?_, fun place => (hinside place).2, ?_⟩
  · rw [hplaces, if_pos (hitemList p hp)]
    exact holds_of_matches places hsaved hroots hitems hcontents
      (hsaved.made (p.2, p.1) (List.mem_map.2 ⟨p, hp, rfl⟩)) fun row hrow => (mem_childrenOf.1 hrow).1
  · rw [hplaces]
    split_ifs with hroot
    · rw [hsaved.childrenOf_eq_nil _ (hroots _ hroot), List.map_nil]
      rw [List.map_map]
      exact hpid
    · rfl
  · rw [hitems, OrderedMap.find_eq_some_iff (ascending_entries hsaved.ascending), mem_entries] at hfind
    obtain ⟨row, hrow, -, rfl⟩ := hfind
    have hmem : row.sid ∈ (childrenOf rows row.pid).map Row.sid :=
      List.mem_map.2 ⟨row, mem_childrenOf.2 ⟨hrow, rfl⟩, rfl⟩
    have hpid : ∀ pid, row.sid ∈ (childrenOf rows pid).map Row.sid → pid = row.pid := by
      intro pid hpid
      obtain ⟨row', hrow', heq⟩ := List.mem_map.1 hpid
      obtain ⟨hmem', rfl⟩ := mem_childrenOf.1 hrow'
      rw [hsaved.eq_of_sid hmem' hrow heq]
    by_cases hroot : places.isRoot row.pid = true
    · refine ⟨.inl row.pid, ?_, ?_⟩
      · simp only [Load.inside, Sum.elim_inl, hplaces, if_pos hroot]
        exact hmem
      · rintro (pid | pid) hplace
        · exact congrArg Sum.inl (hpid _ ((hinside (.inl pid)).1 hplace))
        · have heq := hpid _ ((hinside _).1 hplace)
          simp only [Sum.elim_inr, id_eq] at heq
          subst heq
          simp [Load.inside, hcontents, hroot] at hplace
    · obtain ⟨parent, hparent, hsid, hclass⟩ := (hsaved.pids row hrow).resolve_left fun hmem => by
        obtain ⟨p, hp, heq⟩ := List.mem_map.1 hmem
        obtain ⟨q, hq, rfl⟩ := List.mem_map.1 hp
        exact hroot (heq ▸ hitemList q hq)
      obtain ⟨body, hstores, c, hc⟩ := hsaved.stored parent hparent
      have hfind := hsaved.find_of_stores hparent hstores hc
      rw [hstores.itemtype, hc] at hclass
      refine ⟨.inr row.pid, ?_, ?_⟩
      · simp only [Load.inside, Sum.elim_inr, hcontents, hitems, ← hsid, hfind]
        rw [if_pos, hsid]
        · exact hmem
        · refine ⟨?_, by simpa using Option.some.inj hclass⟩
          rw [hsid]
          simpa using hroot
      · rintro (pid | pid) hplace
        · have heq := hpid _ ((hinside _).1 hplace)
          simp only [Sum.elim_inl, id_eq] at heq
          subst heq
          simp [Load.inside, hplaces, hroot] at hplace
        · exact congrArg Sum.inr (hpid _ ((hinside (.inr pid)).1 hplace))
  · rw [hitems, length_entries hsaved.allLoaded, hsaved.length, List.map_map]
    rfl

end Loading

/-! ## The three loaders -/

section Loaders

/-- The depot chests and the inbox get the items whose rows have their number, in the order of the
rows. -/
theorem depotPlaces_held (rows : List Row) (pid : ℕ) :
    (rows.filter (fun row => depotPlaces.isRoot row.pid)).foldr
        (fun row chests => depotPlaces.add chests row.pid row.sid) depotPlaces.empty pid =
      if depotPlaces.isRoot pid = true then (childrenOf rows pid).map Row.sid else [] := by
  induction rows with
  | nil => simp [childrenOf, depotPlaces]
  | cons row rows ih =>
    by_cases hroot : depotPlaces.isRoot row.pid = true
    · rw [List.filter_cons_of_pos (p := fun row : Row => depotPlaces.isRoot row.pid) hroot, List.foldr_cons]
      by_cases hsame : pid = row.pid
      · subst hsame
        rw [if_pos hroot] at ih ⊢
        rw [childrenOf, List.filter_cons_of_pos (by simp), List.map_cons, ← childrenOf, ← ih]
        exact Function.update_self _ _ _
      · rw [childrenOf, List.filter_cons_of_neg (by simpa using Ne.symm hsame), ← childrenOf, ← ih]
        exact Function.update_of_ne hsame _ _
    · rw [List.filter_cons_of_neg (p := fun row : Row => depotPlaces.isRoot row.pid) hroot, ih]
      by_cases hsame : row.pid = pid
      · rw [if_neg (hsame ▸ hroot), if_neg (hsame ▸ hroot)]
      · rw [childrenOf, childrenOf, List.filter_cons_of_neg (by simpa using hsame)]

theorem inboxPlaces_held {rows : List Row} (h : ∀ row ∈ rows, inboxPlaces.isRoot row.pid = true → row.pid = 0) :
    (rows.filter (fun row => inboxPlaces.isRoot row.pid)).foldr
        (fun row inbox => inboxPlaces.add inbox row.pid row.sid) inboxPlaces.empty =
      (childrenOf rows 0).map Row.sid := by
  induction rows with
  | nil => rfl
  | cons row rows ih =>
    have hrest := ih fun row' hrow' => h row' (List.mem_cons_of_mem _ hrow')
    by_cases hroot : inboxPlaces.isRoot row.pid = true
    · have hzero := h row List.mem_cons_self hroot
      rw [List.filter_cons_of_pos (p := fun row : Row => inboxPlaces.isRoot row.pid) hroot, List.foldr_cons,
        hrest, childrenOf, childrenOf, List.filter_cons_of_pos (by simpa using hzero), List.map_cons]
      rfl
    · have hzero : row.pid ≠ 0 := by
        intro hzero
        rw [hzero] at hroot
        exact hroot rfl
      rw [List.filter_cons_of_neg (p := fun row : Row => inboxPlaces.isRoot row.pid) hroot, hrest,
        childrenOf, childrenOf, List.filter_cons_of_neg (by simpa using hzero)]

/-- A slot of the inventory gets the last of its items. -/
theorem inventoryPlaces_slot (rows : List Row) (pid : ℕ) :
    (rows.filter (fun row => inventoryPlaces.isRoot row.pid)).foldr
        (fun row inventory => inventoryPlaces.add inventory row.pid row.sid) inventoryPlaces.empty pid =
      if inventoryPlaces.isRoot pid = true then (childrenOf rows pid).getLast?.map Row.sid else none := by
  induction rows with
  | nil => simp [childrenOf, inventoryPlaces]
  | cons row rows ih =>
    by_cases hroot : inventoryPlaces.isRoot row.pid = true
    · rw [List.filter_cons_of_pos (p := fun row : Row => inventoryPlaces.isRoot row.pid) hroot,
        List.foldr_cons]
      set inventory := (rows.filter (fun row => inventoryPlaces.isRoot row.pid)).foldr
        (fun row inventory => inventoryPlaces.add inventory row.pid row.sid) inventoryPlaces.empty
      by_cases hsame : pid = row.pid
      · subst hsame
        rw [if_pos hroot] at ih ⊢
        rw [childrenOf, List.filter_cons_of_pos (by simp), List.getLast?_cons, ← childrenOf]
        simp only [inventoryPlaces]
        cases hlast : (childrenOf rows row.pid).getLast? with
        | none =>
          rw [hlast] at ih
          rw [ih, if_neg (by simp), Function.update_self]
          rfl
        | some last =>
          rw [hlast] at ih
          rw [if_pos (by simp [ih]), ih]
          rfl
      · rw [childrenOf, List.filter_cons_of_neg (by simpa using Ne.symm hsame), ← childrenOf, ← ih]
        simp only [inventoryPlaces]
        split_ifs
        · rfl
        · exact Function.update_of_ne hsame _ _
    · rw [List.filter_cons_of_neg (p := fun row : Row => inventoryPlaces.isRoot row.pid) hroot, ih]
      by_cases hsame : row.pid = pid
      · rw [if_neg (hsame ▸ hroot), if_neg (hsame ▸ hroot)]
      · rw [childrenOf, childrenOf, List.filter_cons_of_neg (by simpa using hsame)]

variable {attrs : Attributes A} {mark : Body A → A}

theorem Matches.length {rows l : List Row} {items : Items types A}
    (h : Matches attrs mark rows l items) : l.length = items.length := by
  induction items generalizing l with
  | nil => rw [h]; rfl
  | item body hclass next ih =>
    obtain ⟨row, rest, rfl, -, -, hrest⟩ := h
    rw [List.length_cons, Items.length, ih hrest]
  | container body hclass contents next _ ih =>
    obtain ⟨row, rest, rfl, -, -, hrest⟩ := h
    rw [List.length_cons, Items.length, ih hrest]

/-- The items in the slots of the inventory, at most one in each. -/
structure Inventory (types : Registry) (A : Type) where
  slot : ℕ → Items types A
  single : ∀ index, (slot index).length ≤ 1

/-- The item list of `savePlayerItem`. -/
def Inventory.itemList (inventory : Inventory types A) : List (ℕ × Items types A) :=
  (List.range' 1 CONST_SLOT_LAST).map fun slotId => (slotId, inventory.slot slotId)

/-- The depot chests. -/
structure DepotChests (types : Registry) (A : Type) where
  chests : List (ℕ × Items types A)
  distinct : (chests.map Prod.fst).Nodup
  lt_hundred : ∀ p ∈ chests, p.1 < 100

theorem isRoot_inventory {pid : ℕ} : inventoryPlaces.isRoot pid = true ↔ 1 ≤ pid ∧ pid ≤ CONST_SLOT_LAST := by
  simp [inventoryPlaces]

theorem isRoot_depot {pid : ℕ} : depotPlaces.isRoot pid = true ↔ pid < 100 := by
  simp [depotPlaces]

theorem isRoot_inbox {pid : ℕ} : inboxPlaces.isRoot pid = true ↔ pid < 100 := by
  simp [inboxPlaces]

theorem givesBack_inventory (attrs : Attributes A) (mark : Body A → A) (inventory : Inventory types A) :
    (load types attrs inventoryPlaces (saveItems attrs mark inventory.itemList)).GivesBack
      (recreated types) mark (fun inventory slot => (inventory slot).toList) inventory.itemList := by
  have hslots : inventory.itemList.map Prod.fst = List.range' 1 CONST_SLOT_LAST := by
    rw [Inventory.itemList, List.map_map]
    exact List.map_id _
  have hroot : ∀ p ∈ inventory.itemList, inventoryPlaces.isRoot p.1 = true := by
    intro p hp
    have hmem : p.1 ∈ inventory.itemList.map Prod.fst := List.mem_map.2 ⟨p, hp, rfl⟩
    rw [hslots, List.mem_range'_1] at hmem
    exact isRoot_inventory.2 (by omega)
  have hnodup : (inventory.itemList.map Prod.fst).Nodup := by
    rw [hslots]
    exact List.nodup_range'
  have hle : ∀ pid, inventoryPlaces.isRoot pid = true → pid ≤ 100 := by
    intro pid hpid
    have := (isRoot_inventory.1 hpid).2
    rw [CONST_SLOT_LAST] at this
    omega
  refine givesBack_of_places inventoryPlaces hnodup hroot hle fun pid => ?_
  rw [inventoryPlaces_slot]
  split_ifs with hpid
  · have hslot : (pid, inventory.slot pid) ∈ inventory.itemList := by
      refine List.mem_map.2 ⟨pid, ?_, rfl⟩
      have := isRoot_inventory.1 hpid
      rw [List.mem_range'_1]
      omega
    have hsaved := saved_saveItems attrs mark inventory.itemList hnodup
      fun p hp => hle _ (hroot p hp)
    have hlength := (hsaved.made _ (List.mem_map.2 ⟨_, hslot, rfl⟩)).length
    have hsingle := inventory.single pid
    simp only [Prod.swap_prod_mk] at hlength
    -- of a slot with at most one item the last one is all
    cases hrows : childrenOf (saveItems attrs mark inventory.itemList) pid with
    | nil => rfl
    | cons row rest =>
      rw [hrows, List.length_cons] at hlength
      obtain rfl : rest = [] := List.eq_nil_of_length_eq_zero (by omega)
      rfl
  · rfl

theorem givesBack_depot (attrs : Attributes A) (mark : Body A → A) (depot : DepotChests types A) :
    (load types attrs depotPlaces (saveItems attrs mark depot.chests)).GivesBack
      (recreated types) mark (fun chests => chests) depot.chests :=
  givesBack_of_places depotPlaces depot.distinct (fun p hp => isRoot_depot.2 (depot.lt_hundred p hp))
    (fun _ hpid => (isRoot_depot.1 hpid).le) fun pid => depotPlaces_held _ pid

theorem givesBack_inbox (attrs : Attributes A) (mark : Body A → A) (inbox : Items types A) :
    (load types attrs inboxPlaces (saveItems attrs mark [(0, inbox)])).GivesBack
      (recreated types) mark (fun inbox pid => if pid = 0 then inbox else []) [(0, inbox)] := by
  have hle : ∀ pid, inboxPlaces.isRoot pid = true → pid ≤ 100 := fun _ hpid => (isRoot_inbox.1 hpid).le
  have hroot : ∀ p ∈ [(0, inbox)], inboxPlaces.isRoot p.1 = true := by
    intro p hp
    rw [List.mem_singleton.1 hp]
    rfl
  have hsaved := saved_saveItems attrs mark [(0, inbox)] (List.nodup_singleton 0)
    fun p hp => hle _ (hroot p hp)
  -- the rows that are in a place are in the inbox, all others in a container with an id above 100
  have hzero : ∀ row ∈ saveItems attrs mark [(0, inbox)], row.pid < 100 → row.pid = 0 := by
    intro row hrow hpid
    rcases hsaved.pids row hrow with hmem | ⟨parent, hparent, hsid, -⟩
    · simpa using hmem
    · have := (hsaved.bounds hparent).1
      omega
  have hnodup : ([(0, inbox)].map Prod.fst).Nodup := List.nodup_singleton 0
  refine givesBack_of_places inboxPlaces hnodup hroot hle fun pid => ?_
  rw [inboxPlaces_held fun row hrow hpid => hzero row hrow (isRoot_inbox.1 hpid)]
  by_cases hpid : pid = 0
  · rw [if_pos hpid, if_pos (hpid ▸ rfl), hpid]
  · rw [if_neg hpid]
    split_ifs with hlt
    · rw [childrenOf_eq_nil fun row hrow heq => hpid ?_, List.map_nil]
      exact heq ▸ hzero row hrow (heq ▸ isRoot_inbox.1 hlt)
    · rfl

/-- **The round trip.** The inventory, the depot chests and the inbox come back with all their
items, each item once, in its place or container and in the order there, whatever their contents; an
item of a type that is created as another one comes back as that.

**Proof sketch.** The rows that have the id of a container, or of a place, are those of its items in
their order, since ids are given breadth first and places have none of them. Going through the rows
from the last to the first, each item is put in front of those that follow it. -/
theorem saveItems_givesBack (attrs : Attributes A) (mark : Body A → A) :
    (∀ inventory : Inventory types A,
      (load types attrs inventoryPlaces (saveItems attrs mark inventory.itemList)).GivesBack
        (recreated types) mark (fun inventory slot => (inventory slot).toList) inventory.itemList) ∧
    (∀ depot : DepotChests types A,
      (load types attrs depotPlaces (saveItems attrs mark depot.chests)).GivesBack
        (recreated types) mark (fun chests => chests) depot.chests) ∧
    (∀ inbox : Items types A,
      (load types attrs inboxPlaces (saveItems attrs mark [(0, inbox)])).GivesBack
        (recreated types) mark (fun inbox pid => if pid = 0 then inbox else []) [(0, inbox)]) :=
  ⟨givesBack_inventory attrs mark, givesBack_depot attrs mark, givesBack_inbox attrs mark⟩

/-- Attributes without any. -/
def noAttributes : Attributes Unit := ⟨fun _ _ => 0, fun _ _ => (), fun _ => [], fun _ _ => some (),
  fun _ _ _ => rfl⟩

/-- All types are those of plain items. -/
def plainItems : Registry := fun _ => some .item

/-- A player who wears a sword ring that is active. -/
def swordRing : Inventory plainItems Unit where
  slot index := if index = 9 then .item ⟨3094, ()⟩ ⟨.item, rfl, by decide⟩ .nil else .nil
  single index := by split_ifs <;> decide

/-- A worn ring that is active comes back as one that is not. -/
theorem not_same_item :
    ¬ (load plainItems noAttributes inventoryPlaces
        (saveItems noAttributes (fun body => body.attributes) swordRing.itemList)).GivesBack
      id (fun body => body.attributes) (fun inventory slot => (inventory slot).toList)
      swordRing.itemList := by
  intro h
  have hitems : (load plainItems noAttributes inventoryPlaces (saveItems noAttributes
      (fun body => body.attributes) swordRing.itemList)).items = [(101, ⟨⟨3091, ()⟩, false, 9⟩)] := by
    decide +kernel
  have hslot : (9, swordRing.slot 9) ∈ swordRing.itemList := List.mem_map.2 ⟨9, by decide, rfl⟩
  obtain ⟨sid, rest, -, ⟨pid, hfind⟩, -⟩ := h.holds _ hslot
  rw [hitems, OrderedMap.find_eq_some_iff (List.pairwise_singleton _ _), List.mem_singleton] at hfind
  have htype : (3094 : UInt16) = 3091 := congrArg (fun p => p.2.body.id) hfind
  exact absurd htype (by decide)

end Loaders

end TiabloServer.PlayerItems
