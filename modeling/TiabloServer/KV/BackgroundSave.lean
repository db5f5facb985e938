import TiabloServer.KV.ReadYourWrites

/-!
# Saving in the background

`KVSQL::saveAll` (`kv/kv_sql.cpp`) copies the cache under the mutex of the store, and writes the
copy to the database after it has let go of the mutex. Between the two, and before or after either
of them, other threads set, remove and get keys; any number of calls may be under way. A write is
one transaction, and all writes succeed.

## Main definitions

* `KV.saveStep` — a request to the store, a snapshot, or the write of one.
* `KV.Unharmful` — a step that takes nothing newer out of the database or out of the cache.

## Main results

* `KV.view_saveRun` — over steps that do no harm the store refines the plain map.
* `KV.load_eq_lastWrite` — what is not cached then has its last value in the database.
* `KV.not_load_eq_lastWrite_saveAll` — a snapshot is written over a newer value.
-/

namespace TiabloServer.KV

variable {K D β : Type}

/-- A copy of the cache, as `KVStore::getStore` returns it. -/
abbrev Snapshot (K D : Type) := List (K × ValueWrapper D)

/-- A store, with the snapshots that `saveAll` has taken and not yet written. -/
structure Saving (K D β : Type) where
  store : KVStore K D β
  snapshots : List (Snapshot K D)

/-- `KVStore::getStore`. -/
def getStore (s : KVStore K D β) : Snapshot K D := s.store.entries.map fun e => (e.1, e.2.value)

/-- The transaction of `KVSQL::saveAll`: every entry of the snapshot is saved. -/
def writeSnapshot (B : Backend K D β) (snapshot : Snapshot K D) (b : β) : β :=
  snapshot.foldl (fun b e => B.save b e.1 e.2) b

/-- The steps of the threads: a request to the store, a `get` that is forced to load, and the two
halves of a `saveAll`, of which the second writes the snapshot at the place `i`. -/
inductive SaveOp (K D : Type) where
  | request (r : Request K D)
  | reload (key : K)
  | snapshot
  | write (i : ℕ)

/-- One step of some thread. -/
def saveStep [DecidableEq K] [Inhabited D] (B : Backend K D β) (maxSize : ℕ) (s : Saving K D β) : SaveOp K D → Saving K D β
  | .request r => { s with store := step B maxSize s.store r.toOp }
  | .reload key => { s with store := step B maxSize s.store (.get key true) }
  | .snapshot => { s with snapshots := s.snapshots ++ [getStore s.store] }
  | .write i =>
    match s.snapshots[i]? with
    | none => s
    | some snapshot =>
      { store := { s.store with backend := writeSnapshot B snapshot s.store.backend }
        snapshots := s.snapshots.eraseIdx i }

/-- The requests among the steps. -/
def requests (ops : List (SaveOp K D)) : List (Request K D) :=
  ops.filterMap fun
    | .request r => some r
    | _ => none

/-- What is not cached has its last value in the database: the one that was last set, none when it
was removed, and that of the start when it was neither. -/
def Saved [DecidableEq K] [Inhabited D] (B : Backend K D β) (b : β) (ops : List (SaveOp K D)) (s : Saving K D β) : Prop :=
  ∀ k, k ∉ s.store.store →
    B.load s.store.backend k = (lastWrite (requests ops) k).elim (B.load b k) live

/-- The condition on a step: a snapshot is written only when each of its keys is cached or has this
very value in the database, and a forced load is only for a key that is not cached, is not in the
database, or has its cached value there. -/
def Unharmful [DecidableEq K] (B : Backend K D β) (s : Saving K D β) : SaveOp K D → Prop
  | .write i => ∀ snapshot ∈ s.snapshots[i]?, ∀ e ∈ snapshot,
      e.1 ∈ s.store.store ∨ B.load s.store.backend e.1 = live e.2
  | .reload key => ∀ c ∈ s.store.store.lookup key,
      B.load s.store.backend key = none ∨ B.load s.store.backend key = live c.value
  | _ => True

/-! ## Writing a snapshot -/

section Write

variable [DecidableEq K] {B : Backend K D β} {maxSize : ℕ}

/-- A key is left alone by a snapshot whose entries for it are the value that it has. -/
theorem load_writeSnapshot (hB : Faithful B) {snapshot : Snapshot K D} {b : β} {k : K}
    (h : ∀ e ∈ snapshot, e.1 = k → B.load b k = live e.2) : B.load (writeSnapshot B snapshot b) k = B.load b k := by
  induction snapshot generalizing b with
  | nil => rfl
  | cons e snapshot ih =>
    have hsave : B.load (B.save b e.1 e.2) k = B.load b k := by
      by_cases hk : e.1 = k
      · have hload := h e List.mem_cons_self hk
        subst hk
        rw [hB.load_save_self, hload]
        rfl
      · exact hB.load_save_of_ne b e.1 e.2 k (Ne.symm hk)
    rw [writeSnapshot, List.foldl_cons, ← writeSnapshot, ih, hsave]
    intro e' he' hk
    rw [hsave]
    exact h e' (List.mem_cons_of_mem _ he') hk

/-- **A write that does no harm leaves the view alone.** -/
theorem view_writeSnapshot (hB : Faithful B) (s : KVStore K D β) {snapshot : Snapshot K D}
    (h : ∀ e ∈ snapshot, e.1 ∈ s.store ∨ B.load s.backend e.1 = live e.2) :
    view B { s with backend := writeSnapshot B snapshot s.backend } = view B s := by
  funext k
  unfold view
  cases hk : s.store.lookup k with
  | some c => rfl
  | none =>
    apply load_writeSnapshot hB
    rintro e he rfl
    exact (h e he).resolve_left (AList.lookup_eq_none.1 hk)

/-- **A forced load that does no harm leaves the view alone.** -/
theorem view_reload [Inhabited D] (hB : Faithful B) {s : KVStore K D β} (hs : Consistent maxSize s) {key : K}
    (h : ∀ c ∈ s.store.lookup key, B.load s.backend key = none ∨ B.load s.backend key = live c.value) :
    view B (get B maxSize s key true).2 = view B s := by
  rw [get_of_load B maxSize (Or.inl rfl)]
  cases hl : B.load s.backend key with
  | none => rfl
  | some value =>
    dsimp only
    have hkey : view B s key = some value := by
      unfold view
      cases hk : s.store.lookup key with
      | none => exact hl
      | some c => exact ((h c hk).resolve_left (by simp [hl])).symm.trans hl
    have hlive : live value = view B s key := by
      rw [hkey, live, if_neg (by simp [hB.not_isDeleted _ _ _ hl])]
    rw [view_setLocked hB hs, hlive, Function.update_eq_self]

end Write

/-! ## Runs -/

section Runs

variable [DecidableEq K] [Inhabited D] {B : Backend K D β} {maxSize : ℕ}

/-- The store before any step, with no `saveAll` under way. -/
def Saving.start (b : β) : Saving K D β := ⟨KVStore.empty b, []⟩

/-- **Over steps that do no harm the store refines the plain map** of the requests among them. -/
theorem view_saveRun (hB : Faithful B) (hmax : 0 < maxSize) (b : β) (ops : List (SaveOp K D))
    (hops : Runs.Meets (saveStep B maxSize) (Unharmful B) (Saving.start b) ops) :
    Consistent maxSize (Runs.run (saveStep B maxSize) (Saving.start b) ops).store ∧
      view B (Runs.run (saveStep B maxSize) (Saving.start b) ops).store =
        Runs.run specStep (B.load b) (requests ops) := by
  induction ops using List.reverseRecOn with
  | nil => exact ⟨consistent_empty b, by funext k; simp [view, KVStore.empty, Saving.start, requests]⟩
  | append_singleton ops op ih =>
    obtain ⟨hbefore, hop, -⟩ := (Runs.meets_append _).1 hops
    obtain ⟨hcons, hview⟩ := ih hbefore
    rw [Runs.run_append, Runs.run_cons, Runs.run_nil]
    generalize Runs.run (saveStep B maxSize) (Saving.start b) ops = s at hcons hview hop ⊢
    have hrequests : requests (ops ++ [op]) = requests ops ++ requests [op] := by
      simp [requests]
    rw [hrequests, Runs.run_append, ← hview]
    cases op with
    | request r =>
      refine ⟨consistent_step B hmax _ r.toOp hcons (by cases r <;> trivial), ?_⟩
      cases r with
      | set key value => exact view_setLocked hB hcons key value
      | remove key => exact view_setLocked hB hcons key _
      | get key => exact (view_get hB hcons key).2
    | reload key => exact ⟨consistent_get hcons B hmax key true, view_reload hB hcons hop⟩
    | snapshot => exact ⟨hcons, rfl⟩
    | write i =>
      simp only [saveStep]
      cases hi : s.snapshots[i]? with
      | none => exact ⟨hcons, rfl⟩
      | some snapshot =>
        refine ⟨⟨hcons.keys_nodup, hcons.mem_keys_iff, hcons.points, hcons.size_le, hcons.ids_nodup,
          hcons.ids_lt⟩, view_writeSnapshot hB s.store fun e he => hop snapshot hi e he⟩

/-- **What is not cached has its last value in the database**, in every state that is reached by
steps that do no harm, whatever snapshots are still to be written. -/
theorem load_eq_lastWrite (hB : Faithful B) (hmax : 0 < maxSize) (b : β) (ops : List (SaveOp K D))
    (hops : Runs.Meets (saveStep B maxSize) (Unharmful B) (Saving.start b) ops) :
    Saved B b ops (Runs.run (saveStep B maxSize) (Saving.start b) ops) := by
  intro k hk
  have hview := congrFun (view_saveRun hB hmax b ops hops).2 k
  rw [run_specStep, view, AList.lookup_eq_none.2 hk] at hview
  exact hview

end Runs

/-- Two threads: a key is set and saved, and it is evicted while a second `saveAll` has the same
value in its snapshot. -/
theorem load_eq_lastWrite_evicted :
    Saved kvsql (fun _ => none)
      [.request (.set "a" ⟨7, 1, false⟩), .snapshot, .request (.set "b" ⟨8, 2, false⟩), .write 0]
      (Runs.run (saveStep kvsql 1) (Saving.start fun _ => none)
        [.request (.set "a" ⟨7, 1, false⟩), .snapshot, .request (.set "b" ⟨8, 2, false⟩), .write 0]) := by
  refine load_eq_lastWrite (kvsql_faithful (D := ℕ)) Nat.one_pos _ _ ⟨trivial, trivial, trivial, ?_,
    trivial⟩
  intro snapshot hsnapshot e he
  obtain rfl := Option.some.inj hsnapshot
  obtain rfl := List.mem_singleton.1 he
  exact Or.inr rfl

/-! ## A value that comes back -/

section Eviction

variable [DecidableEq K] [Inhabited D] {B : Backend K D β} {maxSize : ℕ}

/-- New keys go into a cache that has room for them, and what it holds stays. -/
theorem run_setLocked_new {keys : List K} (hnodup : keys.Nodup) {s : KVStore K D β}
    (hnew : ∀ k ∈ keys, k ∉ s.store) (hroom : s.size + keys.length ≤ maxSize) {last : Node K}
    (hlast : s.lruQueue.getLast? = some last) (value : ValueWrapper D) :
    let t := Runs.run (fun s k => setLocked B maxSize s k value) s keys
    t.size = s.size + keys.length ∧ t.lruQueue.getLast? = some last ∧ t.backend = s.backend ∧
      (∀ k, k ∈ t.store ↔ k ∈ s.store ∨ k ∈ keys) ∧
        ∀ k, k ∉ keys → t.store.lookup k = s.store.lookup k := by
  induction keys generalizing s with
  | nil => exact ⟨rfl, hlast, rfl, by simp, fun _ _ => rfl⟩
  | cons key keys ih =>
    obtain ⟨hkey, hnodup⟩ := List.nodup_cons.1 hnodup
    have hnone := hnew key List.mem_cons_self
    have hset : setLocked B maxSize s key value = pushFront s key value := by
      unfold setLocked
      rw [AList.lookup_eq_none.2 hnone]
      dsimp only
      rw [if_neg (by simp only [List.length_cons] at hroom; omega)]
    have hsize : (pushFront s key value).size = s.size + 1 := by
      simp only [KVStore.size, pushFront, AList.keys_insert, List.length_cons]
      rw [List.erase_of_not_mem fun h => hnone (AList.mem_keys.1 h)]
    have hmem : ∀ k, k ∈ (pushFront s key value).store ↔ k = key ∨ k ∈ s.store := by
      intro k
      exact AList.mem_insert s.store
    have hpushlast : (pushFront s key value).lruQueue.getLast? = some last := by
      rw [pushFront, List.getLast?_cons, hlast]
      rfl
    have hrest := ih hnodup (s := pushFront s key value) ?_ ?_ hpushlast
    · obtain ⟨ht, hq, hb, hmem', hlookup⟩ := hrest
      rw [Runs.run_cons, hset]
      refine ⟨?_, hq, hb, fun k => ?_, fun k hk => ?_⟩
      · rw [ht, hsize, List.length_cons]
        omega
      · rw [hmem', hmem, List.mem_cons]
        tauto
      · obtain ⟨hne, hk⟩ := not_or.1 (List.mem_cons.not.1 hk)
        rw [hlookup k hk, pushFront, AList.lookup_insert_ne hne]
    · intro k hk hin
      rcases (hmem k).1 hin with rfl | hin
      · exact hkey hk
      · exact hnew k (List.mem_cons_of_mem _ hk) hin
    · rw [hsize]
      simp only [List.length_cons] at hroom
      omega

/-- Requests to set keys are runs of the store. -/
theorem run_request_set (keys : List K) (value : ValueWrapper D) (s : Saving K D β) :
    Runs.run (saveStep B maxSize) s (keys.map fun k => .request (.set k value)) =
      ⟨Runs.run (fun s k => setLocked B maxSize s k value) s.store keys, s.snapshots⟩ := by
  induction keys generalizing s with
  | nil => rfl
  | cons k keys ih => exact ih _

theorem lastWrite_append (l l' : List (Request K D)) (k : K) :
    lastWrite (l ++ l') k = (lastWrite l' k).or (lastWrite l k) := by
  induction l with
  | nil => simp [lastWrite]
  | cons r l ih => rw [List.cons_append, lastWrite, ih, Option.or_assoc, lastWrite]

theorem lastWrite_set_of_notMem {keys : List K} {k : K} (hk : k ∉ keys) (value : ValueWrapper D) :
    lastWrite (keys.map fun k => .set k value) k = none := by
  induction keys with
  | nil => rfl
  | cons key keys ih =>
    obtain ⟨hne, hk⟩ := not_or.1 (List.mem_cons.not.1 hk)
    rw [List.map_cons, lastWrite, ih hk, Request.written, if_neg (Ne.symm hne)]
    rfl

end Eviction

/-- The `i`-th of the keys `k`, `kk`, `kkk` and so on. -/
def keyOf (i : ℕ) : String := String.ofList (List.replicate (i + 1) 'k')

/-- A `saveAll` takes its snapshot between two values of a key; so many other keys are set that this
one is evicted with the second value; and then the snapshot is written. -/
def lostUpdate (maxSize : ℕ) : List (SaveOp String ℕ) :=
  [.request (.set (keyOf 0) ⟨7, 1, false⟩), .snapshot, .request (.set (keyOf 0) ⟨8, 2, false⟩)] ++
    ((List.range' 1 maxSize).map fun i => .request (.set (keyOf i) ⟨0, 3, false⟩)) ++ [.write 0]

theorem keyOf_injective : Function.Injective keyOf := by
  intro i j h
  have hlen := congrArg (fun s : String => s.toList.length) h
  simpa [keyOf] using hlen

/-- The keys from the first on, without that of the number 0. -/
theorem keyOf_notMem (n : ℕ) : keyOf 0 ∉ (List.range' 1 n).map keyOf := by
  intro h
  obtain ⟨i, hi, heq⟩ := List.mem_map.1 h
  have hpos := (List.mem_range'_1.1 hi).1
  have hzero := keyOf_injective heq
  omega

/-- **What the cache and the database hold after the lost update**, in a cache of any size: the key
is evicted with its second value, and the database has the first. -/
theorem run_lostUpdate (m : ℕ) :
    let s := Runs.run (saveStep kvsql (m + 1)) (Saving.start fun _ => none) (lostUpdate (m + 1))
    s.snapshots = [] ∧ keyOf 0 ∉ s.store.store ∧
      s.store.backend (keyOf 0) = some ⟨1, 7⟩ := by
  have hlookup : ∀ c : Cached ℕ, (AList.singleton (β := fun _ => Cached ℕ) (keyOf 0) c).lookup
      (keyOf 0) = some c := by
    intro c
    rw [← AList.insert_empty]
    exact AList.lookup_insert _
  -- the key has its second value in the cache, and its first in the snapshot
  have hfirst : Runs.run (saveStep kvsql (m + 1)) (Saving.start fun _ => none)
      [.request (.set (keyOf 0) ⟨7, 1, false⟩), .snapshot, .request (.set (keyOf 0) ⟨8, 2, false⟩)] =
        ⟨⟨AList.singleton (keyOf 0) ⟨⟨8, 2, false⟩, 0⟩, [⟨0, keyOf 0⟩], 1, fun _ => none⟩,
          [[(keyOf 0, ⟨7, 1, false⟩)]]⟩ := by
    simp only [Runs.run_cons, Runs.run_nil, saveStep, Request.toOp, step]
    have hset : setLocked kvsql (m + 1) (Saving.start fun _ => none).store (keyOf 0) ⟨7, 1, false⟩ =
        ⟨AList.singleton (keyOf 0) ⟨⟨7, 1, false⟩, 0⟩, [⟨0, keyOf 0⟩], 1, fun _ => none⟩ := by
      simp [setLocked, KVStore.size, KVStore.empty, Saving.start, pushFront]
    rw [hset, setLocked, hlookup]
    dsimp only
    rw [AList.insert_singleton_eq]
    rfl
  -- the other keys fill the cache up to its size, and the next one evicts the key
  let s : KVStore String ℕ (String → Option (Row ℕ)) :=
    ⟨AList.singleton (keyOf 0) ⟨⟨8, 2, false⟩, 0⟩, [⟨0, keyOf 0⟩], 1, fun _ => none⟩
  have hkeys : ((List.range' 1 m).map keyOf).Nodup := List.Nodup.map keyOf_injective List.nodup_range'
  have hnew : ∀ k ∈ (List.range' 1 m).map keyOf, k ∉ s.store := by
    rintro k hk hin
    have hin' : k ∈ [keyOf 0] := AList.mem_keys.1 hin
    obtain rfl := List.mem_singleton.1 hin'
    exact keyOf_notMem m hk
  have hone : s.size = 1 := rfl
  have hroom : s.size + ((List.range' 1 m).map keyOf).length ≤ m + 1 := by
    simp only [hone, List.length_map, List.length_range']
    omega
  have hlast : s.lruQueue.getLast? = some ⟨0, keyOf 0⟩ := rfl
  obtain ⟨ht, hlast, hbackend, hmem, hkept⟩ := run_setLocked_new (B := kvsql) hkeys hnew hroom hlast
    ⟨0, 3, false⟩
  set t := Runs.run (fun s k => setLocked kvsql (m + 1) s k ⟨0, 3, false⟩) s
    ((List.range' 1 m).map keyOf) with htdef
  have hnext : keyOf (m + 1) ∉ t.store := by
    intro h
    rcases (hmem _).1 h with h | h
    · have h' : keyOf (m + 1) ∈ [keyOf 0] := AList.mem_keys.1 h
      exact absurd (keyOf_injective (List.mem_singleton.1 h')) (Nat.succ_ne_zero m)
    · obtain ⟨i, hi, heq⟩ := List.mem_map.1 h
      have hlt := (List.mem_range'_1.1 hi).2
      have hsame := keyOf_injective heq
      omega
  have hwrite : writeBack t = some (keyOf 0, ⟨8, 2, false⟩) := by
    rw [writeBack, hlast]
    dsimp only [Option.map_some]
    rw [hkept _ (keyOf_notMem m), hlookup]
    rfl
  have hset : setLocked kvsql (m + 1) t (keyOf (m + 1)) ⟨0, 3, false⟩ =
      pushFront { t with
        backend := kvsql.save t.backend (keyOf 0) ⟨8, 2, false⟩
        store := t.store.erase (keyOf 0)
        lruQueue := t.lruQueue.dropLast } (keyOf (m + 1)) ⟨0, 3, false⟩ := by
    have hfull : m + 1 ≤ t.size := by
      simp only [ht, hone, List.length_map, List.length_range']
      omega
    rw [setLocked, AList.lookup_eq_none.2 hnext]
    dsimp only
    rw [if_pos hfull, evictLast, hwrite]
  have hops : lostUpdate (m + 1) = [.request (.set (keyOf 0) ⟨7, 1, false⟩), .snapshot,
      .request (.set (keyOf 0) ⟨8, 2, false⟩)] ++
        ((List.range' 1 m).map keyOf).map (fun k => .request (.set k ⟨0, 3, false⟩)) ++
          [.request (.set (keyOf (m + 1)) ⟨0, 3, false⟩), .write 0] := by
    simp [lostUpdate, List.range'_concat, Function.comp_def, Nat.add_comm 1 m]
  dsimp only
  rw [hops, Runs.run_append, Runs.run_append, hfirst, run_request_set, Runs.run_cons, Runs.run_cons,
    Runs.run_nil]
  simp only [saveStep, Request.toOp, step]
  rw [← htdef, hset]
  have hne : keyOf 0 ≠ keyOf (m + 1) := fun h => absurd (keyOf_injective h) (Nat.succ_ne_zero m).symm
  refine ⟨rfl, ?_, ?_⟩
  · show keyOf 0 ∉ (t.store.erase (keyOf 0)).insert (keyOf (m + 1)) _
    simp [AList.mem_insert, AList.mem_erase, hne]
  · simp [writeSnapshot, pushFront, kvsql]

theorem lastWrite_lostUpdate (maxSize : ℕ) :
    lastWrite (requests (lostUpdate maxSize)) (keyOf 0) = some ⟨8, 2, false⟩ := by
  have hrequests : requests (lostUpdate maxSize) =
      [.set (keyOf 0) ⟨7, 1, false⟩, .set (keyOf 0) ⟨8, 2, false⟩] ++
        ((List.range' 1 maxSize).map keyOf).map fun k => .set k ⟨0, 3, false⟩ := by
    simp [requests, lostUpdate, List.filterMap_map, Function.comp_def]
  rw [hrequests, lastWrite_append, lastWrite_set_of_notMem (keyOf_notMem maxSize)]
  simp [lastWrite, Request.written]

/-- **A snapshot is written over a newer value**: the key is not in the cache, no `saveAll` is under
way, and the database has the value before the last one. -/
theorem not_load_eq_lastWrite_saveAll :
    let s := Runs.run (saveStep kvsql MAX_SIZE) (Saving.start fun _ => none) (lostUpdate MAX_SIZE)
    s.snapshots = [] ∧ ¬ Saved kvsql (fun _ => none) (lostUpdate MAX_SIZE) s := by
  have hsize : MAX_SIZE = 999999 + 1 := rfl
  rw [hsize]
  generalize 999999 = m
  obtain ⟨hsnapshots, hkey, hrow⟩ := run_lostUpdate m
  refine ⟨hsnapshots, fun h => ?_⟩
  have hload := h (keyOf 0) hkey
  rw [lastWrite_lostUpdate] at hload
  have hload' := congrArg
    (Option.map fun r : Row ℕ => (⟨r.value, r.timestamp, false⟩ : ValueWrapper ℕ)) hrow
  have heq := hload'.symm.trans hload
  simp [live] at heq

end TiabloServer.KV
