import TiabloServer.Lib.Runs

/-!
# The key-value store: cache and LRU list

The model of `KVStore` (`kv/kv.hpp`, `kv/kv.cpp`): a map `store` from keys to values with an
iterator into the list `lruQueue`, in front of a backend that loads and saves single keys. Every
operation runs under the store's mutex, so the operations are the atomic steps.

A `std::list` iterator is modelled by the number of its node, which no other node ever gets; a
splice moves a node and keeps its number.

## Main definitions

* `KV.Consistent` — the structure invariant of the cache.
* `KV.lastSet` — the value that a run last handed to `setLocked` for a key.

## Main results

* `KV.consistent_setLocked`, `KV.consistent_get` — the operations keep the invariant.
* `KV.consistent_flush_iff` — `flush` keeps it only on an empty cache: it clears the map and
  leaves the list.
* `KV.run_consistent_and_writeBack` — over a run that flushes only empty caches the invariant
  holds in every state, and an eviction writes the value last set for its key.
-/

namespace TiabloServer.KV

/-- `ValueWrapper`: a value, its timestamp and the tombstone flag. The variant of value kinds is
the parameter `D`. -/
structure ValueWrapper (D : Type) where
  data : D
  timestamp : ℕ
  isDeleted : Bool

/-- The default-constructed `ValueWrapper`. Its timestamp, the clock of the source, is read by no
operation of the store. -/
instance {D : Type} [Inhabited D] : Inhabited (ValueWrapper D) := ⟨⟨default, 0, false⟩⟩

/-- `ValueWrapper::deleted`: the tombstone that `remove` sets. -/
def ValueWrapper.deleted {D : Type} [Inhabited D] : ValueWrapper D := ⟨default, 0, true⟩

/-- The virtual `load` and `save` of `KVStore`, on a backend state `β`. -/
structure Backend (K D β : Type) where
  load : β → K → Option (ValueWrapper D)
  save : β → K → ValueWrapper D → β

/-- A node of `lruQueue_`: its address and the key it holds. -/
structure Node (K : Type) where
  id : ℕ
  key : K
deriving DecidableEq

/-- An entry of `store_`: the value and the iterator into `lruQueue_`. -/
structure Cached (D : Type) where
  value : ValueWrapper D
  lruIt : ℕ

/-- `KVStore`: the cache in front of a backend. `nextId` is the address the next list node
gets. -/
structure KVStore (K D β : Type) where
  store : AList fun _ : K => Cached D
  lruQueue : List (Node K)
  nextId : ℕ
  backend : β

/-- `KVStore::MAX_SIZE`. -/
def MAX_SIZE : ℕ := 1000000

section Operations

variable {K D β : Type} [DecidableEq K]

/-- `store_.size()`. -/
def KVStore.size (s : KVStore K D β) : ℕ := s.store.keys.length

/-- The store before any operation. -/
def KVStore.empty (b : β) : KVStore K D β := ⟨∅, [], 0, b⟩

/-- `lruQueue_.splice(lruQueue_.begin(), lruQueue_, it)`. -/
def spliceFront (q : List (Node K)) (it : ℕ) : List (Node K) :=
  q.filter (fun n => n.id = it) ++ q.filter (fun n => ¬ n.id = it)

/-- `lruQueue_.splice(lruQueue_.end(), lruQueue_, it)`. -/
def spliceBack (q : List (Node K)) (it : ℕ) : List (Node K) :=
  q.filter (fun n => ¬ n.id = it) ++ q.filter (fun n => n.id = it)

/-- What an eviction passes to `save`: the key of the last list node and `store_[key].first`,
which constructs a default value when the map does not hold the key. -/
def writeBack [Inhabited D] (s : KVStore K D β) : Option (K × ValueWrapper D) :=
  s.lruQueue.getLast?.map fun last =>
    (last.key, ((s.store.lookup last.key).map Cached.value).getD default)

/-- The eviction in `setLocked`. An empty list, where `--end()` is undefined, is left alone. -/
def evictLast [Inhabited D] (B : Backend K D β) (s : KVStore K D β) : KVStore K D β :=
  match writeBack s with
  | none => s
  | some (k, v) =>
    { s with
      backend := B.save s.backend k v
      store := s.store.erase k
      lruQueue := s.lruQueue.dropLast }

/-- The second half of `setLocked`, for a key that is not in the map and after room was made. -/
def pushFront (s : KVStore K D β) (key : K) (value : ValueWrapper D) : KVStore K D β :=
  { s with
    lruQueue := ⟨s.nextId, key⟩ :: s.lruQueue
    store := s.store.insert key ⟨value, s.nextId⟩
    nextId := s.nextId + 1 }

/-- `KVStore::setLocked`. -/
def setLocked [Inhabited D] (B : Backend K D β) (maxSize : ℕ) (s : KVStore K D β) (key : K)
    (value : ValueWrapper D) : KVStore K D β :=
  match s.store.lookup key with
  | some c =>
    { s with
      store := s.store.insert key { c with value := value }
      lruQueue := spliceFront s.lruQueue c.lruIt }
  | none => pushFront (if maxSize ≤ s.size then evictLast B s else s) key value

/-- `KVStore::get`: the value returned and the store after the call. -/
def get [Inhabited D] (B : Backend K D β) (maxSize : ℕ) (s : KVStore K D β) (key : K)
    (forceLoad : Bool) : Option (ValueWrapper D) × KVStore K D β :=
  match forceLoad, s.store.lookup key with
  | false, some c =>
    if c.value.isDeleted then
      (none, { s with lruQueue := spliceBack s.lruQueue c.lruIt })
    else
      (some c.value, { s with lruQueue := spliceFront s.lruQueue c.lruIt })
  | _, _ =>
    match B.load s.backend key with
    | some value => (some value, setLocked B maxSize s key value)
    | none => (none, s)

/-- A `get` that is forced to load, or finds no entry, asks the backend. -/
theorem get_of_load [Inhabited D] (B : Backend K D β) (maxSize : ℕ) {s : KVStore K D β} {key : K}
    {forceLoad : Bool} (h : forceLoad ∨ key ∉ s.store) :
    get B maxSize s key forceLoad =
      match B.load s.backend key with
      | some value => (some value, setLocked B maxSize s key value)
      | none => (none, s) := by
  unfold get
  split
  next c hc => simp [← AList.lookup_isSome, hc] at h
  next => rfl

/-- A `get` that finds an entry answers from the cache. -/
theorem get_of_lookup [Inhabited D] (B : Backend K D β) (maxSize : ℕ) {s : KVStore K D β} {key : K}
    {c : Cached D} (h : s.store.lookup key = some c) :
    get B maxSize s key false =
      if c.value.isDeleted then
        (none, { s with lruQueue := spliceBack s.lruQueue c.lruIt })
      else
        (some c.value, { s with lruQueue := spliceFront s.lruQueue c.lruIt }) := by
  simp [get, h]

/-- `KVStore::flush`: `saveAll`, then `store_.clear()`. The list is not cleared. -/
def flush (B : Backend K D β) (s : KVStore K D β) : KVStore K D β :=
  { s with
    backend := s.store.entries.foldl (fun b e => B.save b e.1 e.2.value) s.backend
    store := ∅ }

/-- The operations of the store. An eviction is part of `set` and of a `get` that loads. -/
inductive Op (K D : Type) where
  | set (key : K) (value : ValueWrapper D)
  | remove (key : K)
  | get (key : K) (forceLoad : Bool)
  | flush

/-- The store after one operation. -/
def step [Inhabited D] (B : Backend K D β) (maxSize : ℕ) (s : KVStore K D β) :
    Op K D → KVStore K D β
  | .set key value => setLocked B maxSize s key value
  | .remove key => setLocked B maxSize s key ValueWrapper.deleted
  | .get key forceLoad => (get B maxSize s key forceLoad).2
  | .flush => flush B s

/-- The key and value that an operation hands to `setLocked`, if any. -/
def assigned [Inhabited D] (B : Backend K D β) (s : KVStore K D β) :
    Op K D → Option (K × ValueWrapper D)
  | .set key value => some (key, value)
  | .remove key => some (key, ValueWrapper.deleted)
  | .get key forceLoad =>
    if forceLoad ∨ key ∉ s.store then (B.load s.backend key).map (key, ·) else none
  | .flush => none

/-- What the eviction inside an operation writes back, if it evicts. -/
def evicted [Inhabited D] (B : Backend K D β) (maxSize : ℕ) (s : KVStore K D β) (op : Op K D) :
    Option (K × ValueWrapper D) :=
  match assigned B s op with
  | some (key, _) => if key ∉ s.store ∧ maxSize ≤ s.size then writeBack s else none
  | none => none

/-- The value that a run last handed to `setLocked` for a key: by a `set` or `remove` of the key,
or by a `get` that loaded it. -/
def lastSet [Inhabited D] (B : Backend K D β) (maxSize : ℕ) (s : KVStore K D β) :
    List (Op K D) → K → Option (ValueWrapper D)
  | [], _ => none
  | op :: ops, k =>
    (lastSet B maxSize (step B maxSize s op) ops k).or
      (((assigned B s op).filter fun a => a.1 = k).map Prod.snd)

end Operations

/-! ## The structure invariant -/

section Invariant

variable {K D β : Type} {maxSize : ℕ}

/-- A splice only reorders the list. -/
theorem spliceFront_perm (q : List (Node K)) (it : ℕ) : (spliceFront q it).Perm q := by
  simpa [spliceFront] using List.filter_append_perm (fun n : Node K => decide (n.id = it)) q

/-- A splice only reorders the list. -/
theorem spliceBack_perm (q : List (Node K)) (it : ℕ) : (spliceBack q it).Perm q :=
  List.perm_append_comm.trans (spliceFront_perm q it)

/-- The list of a store whose last node is `last`. -/
theorem lruQueue_eq_dropLast {s : KVStore K D β} {last : Node K}
    (h : s.lruQueue.getLast? = some last) : s.lruQueue = s.lruQueue.dropLast ++ [last] := by
  obtain ⟨q, hq⟩ := List.getLast?_eq_some_iff.1 h
  rw [hq, List.dropLast_concat]

variable [DecidableEq K]

/-- **The structure invariant of the cache.** The list holds every key of the map exactly once and
no other key, every stored iterator points at the node of its own key, and the map holds at most
`maxSize` keys. Node addresses are distinct and none is reused. -/
structure Consistent (maxSize : ℕ) (s : KVStore K D β) : Prop where
  keys_nodup : (s.lruQueue.map Node.key).Nodup
  mem_keys_iff : ∀ k, k ∈ s.lruQueue.map Node.key ↔ k ∈ s.store
  points : ∀ k c, s.store.lookup k = some c → ⟨c.lruIt, k⟩ ∈ s.lruQueue
  size_le : s.size ≤ maxSize
  ids_nodup : (s.lruQueue.map Node.id).Nodup
  ids_lt : ∀ n ∈ s.lruQueue, n.id < s.nextId

theorem consistent_empty (b : β) : Consistent maxSize (KVStore.empty b : KVStore K D β) where
  keys_nodup := by simp [KVStore.empty]
  mem_keys_iff := by simp [KVStore.empty]
  points := by simp [KVStore.empty]
  size_le := by simp [KVStore.empty, KVStore.size]
  ids_nodup := by simp [KVStore.empty]
  ids_lt := by simp [KVStore.empty]

/-- Reordering the list keeps the invariant. -/
theorem Consistent.reorder {s : KVStore K D β} (hs : Consistent maxSize s) {q : List (Node K)}
    (hq : q.Perm s.lruQueue) : Consistent maxSize { s with lruQueue := q } where
  keys_nodup := (hq.map _).nodup_iff.2 hs.keys_nodup
  mem_keys_iff k := ((hq.map _).mem_iff).trans (hs.mem_keys_iff k)
  points k c h := hq.mem_iff.2 (hs.points k c h)
  size_le := hs.size_le
  ids_nodup := (hq.map _).nodup_iff.2 hs.ids_nodup
  ids_lt n hn := hs.ids_lt n (hq.mem_iff.1 hn)

/-- Overwriting the value of a cached key keeps the invariant. -/
theorem Consistent.overwrite {s : KVStore K D β} (hs : Consistent maxSize s) {key : K}
    {c : Cached D} (hc : s.store.lookup key = some c) (value : ValueWrapper D) :
    Consistent maxSize { s with store := s.store.insert key { c with value := value } } := by
  have hmem : key ∈ s.store := AList.lookup_isSome.1 (by simp [hc])
  refine ⟨hs.keys_nodup, fun k => ?_, fun k d hk => ?_, ?_, hs.ids_nodup, hs.ids_lt⟩
  · rw [hs.mem_keys_iff k, AList.mem_insert]
    exact ⟨Or.inr, fun h => h.elim (fun e => e ▸ hmem) id⟩
  · by_cases e : k = key
    · subst e
      rw [AList.lookup_insert, Option.some.injEq] at hk
      subst hk
      exact hs.points k c hc
    · rw [AList.lookup_insert_ne e] at hk
      exact hs.points k d hk
  · have hlen := List.length_erase_of_mem (AList.mem_keys.1 hmem)
    have hpos := List.length_pos_of_mem (AList.mem_keys.1 hmem)
    have := hs.size_le
    simp only [KVStore.size, AList.keys_insert, List.length_cons] at this ⊢
    omega

/-- A consistent store that is not empty has a last list node, whose key it holds. -/
theorem Consistent.writeBack_eq [Inhabited D] {s : KVStore K D β} (hs : Consistent maxSize s) (hpos : 0 < s.size) :
    ∃ last c, s.lruQueue.getLast? = some last ∧ s.store.lookup last.key = some c ∧
      writeBack s = some (last.key, c.value) := by
  obtain ⟨k, hk⟩ := List.exists_mem_of_length_pos hpos
  have hkq := (hs.mem_keys_iff k).2 (AList.mem_keys.2 hk)
  have hne : s.lruQueue ≠ [] := by rintro h; simp [h] at hkq
  have hlast := List.getLast?_eq_some_getLast hne
  have hmem : (s.lruQueue.getLast hne).key ∈ s.store :=
    (hs.mem_keys_iff _).1 (List.mem_map_of_mem (List.getLast_mem hne))
  obtain ⟨c, hc⟩ := Option.isSome_iff_exists.1 (AList.lookup_isSome.2 hmem)
  exact ⟨_, c, hlast, hc, by simp [writeBack, hlast, hc]⟩

/-- What an eviction writes back is an entry of the map. -/
theorem Consistent.lookup_of_writeBack [Inhabited D] {s : KVStore K D β}
    (hs : Consistent maxSize s) {k : K} {v : ValueWrapper D} (h : writeBack s = some (k, v)) :
    ∃ c, s.store.lookup k = some c ∧ c.value = v := by
  have hpos : 0 < s.size := by
    rcases Nat.eq_zero_or_pos s.size with h0 | h0
    · exfalso
      have hkeys : s.store.keys = [] := List.eq_nil_of_length_eq_zero h0
      have hq : s.lruQueue = [] := by
        rcases hl : s.lruQueue with _ | ⟨n, q⟩
        · rfl
        · have := (hs.mem_keys_iff n.key).1 (by simp [hl])
          simp [AList.mem_keys, hkeys] at this
      simp [writeBack, hq] at h
    · exact h0
  obtain ⟨last, c, -, hc, hw⟩ := hs.writeBack_eq hpos
  rw [hw, Option.some.injEq, Prod.mk.injEq] at h
  obtain ⟨rfl, rfl⟩ := h
  exact ⟨c, hc, rfl⟩

/-- Evicting from a cache that is not empty keeps the invariant and makes room for one key. -/
theorem Consistent.evictLast [Inhabited D] {s : KVStore K D β} (hs : Consistent maxSize s)
    (B : Backend K D β) (hpos : 0 < s.size) :
    Consistent maxSize (evictLast B s) ∧ (KV.evictLast B s).size + 1 = s.size := by
  obtain ⟨last, c, hlast, hc, hw⟩ := hs.writeBack_eq hpos
  have hq := lruQueue_eq_dropLast hlast
  have hsub := List.dropLast_sublist s.lruQueue
  have hkeys := hs.keys_nodup
  rw [hq, List.map_append, List.map_singleton, List.nodup_append] at hkeys
  have hnot : ∀ k ∈ s.lruQueue.dropLast.map Node.key, k ≠ last.key := fun k hk =>
    hkeys.2.2 k hk last.key (by simp)
  have hmem : last.key ∈ s.store := AList.lookup_isSome.1 (by simp [hc])
  have hsize : (s.store.erase last.key).keys.length + 1 = s.size := by
    rw [AList.keys_erase, List.length_erase_of_mem (AList.mem_keys.1 hmem)]
    exact Nat.sub_add_cancel hpos
  have hle := hs.size_le
  simp only [KV.evictLast, hw]
  refine ⟨⟨hkeys.1, fun k => ?_, fun k d hk => ?_, ?_, (hsub.map _).nodup hs.ids_nodup,
    fun n hn => hs.ids_lt n (hsub.subset hn)⟩, hsize⟩
  · rw [AList.mem_erase, ← hs.mem_keys_iff k]
    constructor
    · exact fun hk => ⟨hnot k hk, (hsub.map _).subset hk⟩
    · rintro ⟨hne, hk⟩
      rw [hq, List.map_append, List.mem_append] at hk
      exact hk.resolve_right (by simpa using hne)
  · have hne : k ≠ last.key := by
      rintro rfl
      simp at hk
    rw [AList.lookup_erase_ne hne] at hk
    have hk' := hs.points k d hk
    rw [hq, List.mem_append] at hk'
    refine hk'.resolve_right fun h => hne ?_
    exact congrArg Node.key (List.mem_singleton.1 h)
  · show (s.store.erase last.key).keys.length ≤ maxSize
    omega

/-- Pushing a key that is not cached keeps the invariant where there is room for it. -/
theorem Consistent.pushFront {s : KVStore K D β} (hs : Consistent maxSize s) {key : K}
    (hkey : key ∉ s.store) (hroom : s.size < maxSize) (value : ValueWrapper D) :
    Consistent maxSize (pushFront s key value) := by
  refine ⟨?_, fun k => ?_, fun k c hk => ?_, ?_, ?_, fun n hn => ?_⟩
  · rw [KV.pushFront, List.map_cons, List.nodup_cons]
    exact ⟨fun h => hkey ((hs.mem_keys_iff key).1 h), hs.keys_nodup⟩
  · simp only [KV.pushFront, List.map_cons, List.mem_cons, AList.mem_insert, hs.mem_keys_iff k]
  · simp only [KV.pushFront] at hk ⊢
    by_cases e : k = key
    · subst e
      rw [AList.lookup_insert, Option.some.injEq] at hk
      simp [← hk]
    · rw [AList.lookup_insert_ne e] at hk
      exact List.mem_cons_of_mem _ (hs.points k c hk)
  · simp only [KVStore.size, KV.pushFront, AList.keys_insert, List.length_cons] at hroom ⊢
    rw [List.erase_of_not_mem fun h => hkey (AList.mem_keys.2 h)]
    omega
  · rw [KV.pushFront, List.map_cons, List.nodup_cons]
    refine ⟨fun h => ?_, hs.ids_nodup⟩
    obtain ⟨n, hn, hid⟩ := List.mem_map.1 h
    exact absurd (hs.ids_lt n hn) (by simp [hid])
  · rcases List.mem_cons.1 hn with rfl | hn
    · exact Nat.lt_succ_self _
    · exact Nat.lt_succ_of_lt (hs.ids_lt n hn)

/-- The store that `setLocked` pushes a new key on: it has room and lacks the key. -/
theorem Consistent.makeRoom [Inhabited D] {s : KVStore K D β} (hs : Consistent maxSize s)
    (B : Backend K D β) (hmax : 0 < maxSize) {key : K} (hkey : key ∉ s.store) :
    Consistent maxSize (if maxSize ≤ s.size then KV.evictLast B s else s) ∧
      (if maxSize ≤ s.size then KV.evictLast B s else s).size < maxSize ∧
      key ∉ (if maxSize ≤ s.size then KV.evictLast B s else s).store := by
  split_ifs with hfull
  · obtain ⟨hcons, hsize⟩ := hs.evictLast B (by omega)
    refine ⟨hcons, ?_, ?_⟩
    · have := hs.size_le
      omega
    · obtain ⟨last, c, -, -, hw⟩ := hs.writeBack_eq (by omega)
      simp [KV.evictLast, hw, hkey]
  · exact ⟨hs, by omega, hkey⟩

/-- **`setLocked` keeps the invariant.** -/
theorem consistent_setLocked [Inhabited D] {s : KVStore K D β} (hs : Consistent maxSize s)
    (B : Backend K D β) (hmax : 0 < maxSize) (key : K) (value : ValueWrapper D) :
    Consistent maxSize (setLocked B maxSize s key value) := by
  unfold setLocked
  split
  next c hc => exact (hs.overwrite hc value).reorder (spliceFront_perm _ _)
  next hc =>
    obtain ⟨hroom, hlt, hnot⟩ := hs.makeRoom B hmax (AList.lookup_eq_none.1 hc)
    exact hroom.pushFront hnot hlt value

/-- **`get` keeps the invariant.** -/
theorem consistent_get [Inhabited D] {s : KVStore K D β} (hs : Consistent maxSize s)
    (B : Backend K D β) (hmax : 0 < maxSize) (key : K) (forceLoad : Bool) :
    Consistent maxSize (get B maxSize s key forceLoad).2 := by
  unfold get
  split
  · split
    · exact hs.reorder (spliceBack_perm _ _)
    · exact hs.reorder (spliceFront_perm _ _)
  · split
    · exact consistent_setLocked hs B hmax key _
    · exact hs

/-- **`flush` breaks the invariant exactly when the cache holds something**: it empties the map and
leaves the list, so every key of the list becomes a stale one. -/
theorem consistent_flush_iff (s : KVStore K D β) (B : Backend K D β) :
    Consistent maxSize (flush B s) ↔ s.lruQueue = [] := by
  constructor
  · intro h
    rcases hq : s.lruQueue with _ | ⟨n, q⟩
    · rfl
    · have := (h.mem_keys_iff n.key).1 (by simp [flush, hq])
      simp [flush] at this
  · intro hq
    refine ⟨by simp [flush, hq], by simp [flush, hq], by simp [flush], by simp [flush, KVStore.size],
      by simp [flush, hq], by simp [flush, hq]⟩

end Invariant

/-! ## What an eviction writes -/

section LastSet

variable {K D β : Type} [DecidableEq K] [Inhabited D] {maxSize : ℕ}

/-- The last assignment of a run is made by its last operation, or by the run before it. -/
theorem lastSet_concat (B : Backend K D β) (s : KVStore K D β) (ops : List (Op K D)) (op : Op K D) (k : K) :
    lastSet B maxSize s (ops ++ [op]) k =
      (((assigned B (Runs.run (step B maxSize) s ops) op).filter fun a => a.1 = k).map
        Prod.snd).or (lastSet B maxSize s ops k) := by
  induction ops generalizing s with
  | nil => simp [lastSet]
  | cons o ops ih => simp [lastSet, ih, Option.or_assoc]

/-- The key that `setLocked` was called for holds the value it was called with. -/
theorem lookup_setLocked_self (B : Backend K D β) (maxSize : Nat) (s : KVStore K D β) (key : K)
    (value : ValueWrapper D) :
    ∃ c, (setLocked B maxSize s key value).store.lookup key = some c ∧ c.value = value := by
  unfold setLocked
  split
  · exact ⟨_, AList.lookup_insert _, rfl⟩
  · exact ⟨_, AList.lookup_insert _, rfl⟩

/-- An eviction only removes entries. -/
theorem lookup_of_lookup_evictLast (B : Backend K D β) (s : KVStore K D β) {k : K} {c : Cached D}
    (h : (evictLast B s).store.lookup k = some c) : s.store.lookup k = some c := by
  unfold evictLast at h
  split at h
  · exact h
  next last v hw =>
    have hne : k ≠ last := by
      rintro rfl
      simp at h
    rwa [AList.lookup_erase_ne hne] at h

/-- `setLocked` leaves the entry of any other key as it was, or evicts it. -/
theorem lookup_setLocked_of_ne (B : Backend K D β) (s : KVStore K D β) {key k : K}
    (hne : k ≠ key) (value : ValueWrapper D) {c : Cached D}
    (h : (setLocked B maxSize s key value).store.lookup k = some c) : s.store.lookup k = some c := by
  unfold setLocked at h
  split at h
  · rwa [AList.lookup_insert_ne hne] at h
  · rw [pushFront, AList.lookup_insert_ne hne] at h
    split_ifs at h with hfull
    · exact lookup_of_lookup_evictLast B s h
    · exact h

/-- **What one operation does to an entry**: it holds the value the operation assigned, or it was
there before and the operation assigned nothing to its key. -/
theorem lookup_step (B : Backend K D β) (s : KVStore K D β) (op : Op K D) {k : K} {c : Cached D}
    (h : (step B maxSize s op).store.lookup k = some c) : assigned B s op = some (k, c.value) ∨
      (assigned B s op).filter (fun a => a.1 = k) = none ∧ s.store.lookup k = some c := by
  have hset : ∀ key value, (setLocked B maxSize s key value).store.lookup k = some c →
      (key, value) = (k, c.value) ∨ key ≠ k ∧ s.store.lookup k = some c := by
    intro key value hk
    by_cases e : key = k
    · subst e
      obtain ⟨d, hd, hv⟩ := lookup_setLocked_self B maxSize s key value
      rw [hd, Option.some.injEq] at hk
      exact Or.inl (by rw [← hk, hv])
    · exact Or.inr ⟨e, lookup_setLocked_of_ne B s (Ne.symm e) value hk⟩
  cases op with
  | set key value =>
    rcases hset key value h with e | ⟨hne, hk⟩
    · exact Or.inl (congrArg some e)
    · exact Or.inr ⟨by simp [assigned, hne], hk⟩
  | remove key =>
    rcases hset key _ h with e | ⟨hne, hk⟩
    · exact Or.inl (congrArg some e)
    · exact Or.inr ⟨by simp [assigned, hne], hk⟩
  | get key forceLoad =>
    simp only [step] at h
    by_cases hload : forceLoad ∨ key ∉ s.store
    · rw [get_of_load B maxSize hload] at h
      cases hl : B.load s.backend key with
      | none =>
        rw [hl] at h
        exact Or.inr ⟨by simp [assigned, hl], h⟩
      | some value =>
        rw [hl] at h
        rcases hset key value h with e | ⟨hne, hk⟩
        · exact Or.inl (by simp only [assigned, if_pos hload, hl, Option.map_some, e])
        · exact Or.inr ⟨by simp [assigned, hload, hl, hne], hk⟩
    · obtain ⟨rfl, hmem⟩ : forceLoad = false ∧ key ∈ s.store := by simpa using hload
      obtain ⟨d, hd⟩ := Option.isSome_iff_exists.1 (AList.lookup_isSome.2 hmem)
      rw [get_of_lookup B maxSize hd] at h
      refine Or.inr ⟨by simp [assigned, hmem], ?_⟩
      split at h <;> exact h
  | flush => simp [step, flush] at h

/-- A cached value is the one that the run last assigned to its key. -/
theorem lastSet_of_lookup (B : Backend K D β) (b : β) (ops : List (Op K D)) {k : K} {c : Cached D}
    (h : (Runs.run (step B maxSize) (KVStore.empty b) ops).store.lookup k = some c) :
    lastSet B maxSize (KVStore.empty b) ops k = some c.value := by
  induction ops using List.reverseRecOn generalizing c with
  | nil => simp [KVStore.empty] at h
  | append_singleton ops op ih =>
    rw [Runs.run_append] at h
    rw [lastSet_concat]
    rcases lookup_step B _ op h with ha | ⟨ha, hk⟩
    · simp [ha]
    · simp [ha, ih hk]

/-- The condition on a step: `flush` is called on an empty cache only. -/
def FlushesEmpty (s : KVStore K D β) (op : Op K D) : Prop :=
  match op with
  | .flush => s.lruQueue = []
  | _ => True

/-- Every operation other than a `flush` of a cache that holds something keeps the invariant. -/
theorem consistent_step (B : Backend K D β) (hmax : 0 < maxSize) (s : KVStore K D β) (op : Op K D)
    (hs : Consistent maxSize s) (hop : FlushesEmpty s op) : Consistent maxSize (step B maxSize s op) := by
  cases op with
  | set key value => exact consistent_setLocked hs B hmax key value
  | remove key => exact consistent_setLocked hs B hmax key _
  | get key forceLoad => exact consistent_get hs B hmax key forceLoad
  | flush => exact (consistent_flush_iff s B).2 hop

/-- The invariant holds after every run that flushes only empty caches. -/
theorem consistent_run (B : Backend K D β) (hmax : 0 < maxSize) (b : β) (ops : List (Op K D))
    (hops : Runs.Meets (step B maxSize) FlushesEmpty (KVStore.empty b) ops) :
    Consistent maxSize (Runs.run (step B maxSize) (KVStore.empty b) ops) :=
  Runs.invariant _ (consistent_step B hmax) (consistent_empty b) hops

/-- **The structure invariant of the cache and its consequence.** After every run that flushes only
empty caches the cache is consistent, and whatever the next operation evicts is a key that the map
holds, written back with the value last set for it. -/
theorem run_consistent_and_writeBack (B : Backend K D β) (b : β) (ops : List (Op K D))
    (hops : Runs.Meets (step B MAX_SIZE) FlushesEmpty (KVStore.empty b) ops) :
    Consistent MAX_SIZE (Runs.run (step B MAX_SIZE) (KVStore.empty b) ops) ∧
      ∀ op k v, evicted B MAX_SIZE (Runs.run (step B MAX_SIZE) (KVStore.empty b) ops) op =
          some (k, v) →
        k ∈ (Runs.run (step B MAX_SIZE) (KVStore.empty b) ops).store ∧
          lastSet B MAX_SIZE (KVStore.empty b) ops k = some v := by
  have hcons := consistent_run B (by decide : 0 < MAX_SIZE) b ops hops
  refine ⟨hcons, fun op k v h => ?_⟩
  have hw : writeBack (Runs.run (step B MAX_SIZE) (KVStore.empty b) ops) = some (k, v) := by
    unfold evicted at h
    split at h
    · split_ifs at h
      exact h
    · exact absurd h (by simp)
  obtain ⟨c, hc, rfl⟩ := hcons.lookup_of_writeBack hw
  exact ⟨AList.lookup_isSome.1 (by simp [hc]), lastSet_of_lookup B b ops hc⟩

end LastSet

/-- A backend that stores nothing. -/
def nullBackend (K D : Type) : Backend K D Unit where
  load _ _ := none
  save b _ _ := b

/-- The rule applied to a run that sets, reads and removes a key and flushes an empty cache. -/
theorem run_consistent_and_writeBack_example :
    Consistent MAX_SIZE (Runs.run (step (nullBackend String ℕ) MAX_SIZE) (KVStore.empty ())
      [.flush, .set "key" ⟨1, 5, false⟩, .get "key" false, .remove "key"]) :=
  (run_consistent_and_writeBack (nullBackend String ℕ) ()
    [.flush, .set "key" ⟨1, 5, false⟩, .get "key" false, .remove "key"]
    ⟨rfl, trivial, trivial, trivial, trivial⟩).1

/-- **`flush` leaves stale keys**: after one `set` and one `flush` the list still holds the key and
the map does not. -/
theorem not_consistent_after_flush :
    ¬ Consistent MAX_SIZE (Runs.run (step (nullBackend String ℕ) MAX_SIZE) (KVStore.empty ())
      [.set "key" ⟨1, 5, false⟩, .flush]) := by
  intro h
  have := (h.mem_keys_iff "key").1 (by decide)
  simp [step, flush] at this

end TiabloServer.KV
