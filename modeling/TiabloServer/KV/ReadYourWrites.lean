import TiabloServer.KV.Store

/-!
# The key-value store reads its own writes

Seen from outside, the cache in front of a faithful backend is a plain map: the answer for a key is
the cached value, or what the backend holds when the key is not cached. This view changes only by
writes; a read, a reload and an eviction leave it alone.

## Main definitions

* `KV.view` — the map that a store stands for, and `KV.specStep`, a write to such a map.
* `KV.Handle` — the root store or a `ScopedKV` of it.

## Main results

* `KV.view_setLocked`, `KV.view_get` — what the operations do to the view.
* `KV.view_run` — the store refines the plain map.
* `KV.get_eq_lastWrite` — a `get`, through any scope, answers with the last write.
-/

namespace TiabloServer.KV

variable {K D β : Type}

/-! ## Faithful backends -/

/-- A backend that never fails and loads what was last saved; a saved tombstone deletes. -/
structure Faithful (B : Backend K D β) : Prop where
  load_save_self : ∀ b k v, B.load (B.save b k v) k = if v.isDeleted then none else some v
  load_save_of_ne : ∀ b k v k', k' ≠ k → B.load (B.save b k v) k' = B.load b k'
  not_isDeleted : ∀ b k v, B.load b k = some v → v.isDeleted = false

/-- A row of the table `kv_store`. -/
structure Row (D : Type) where
  timestamp : ℕ
  value : D

/-- `KVSQL::load` and `KVSQL::save` on the rows of `kv_store`: a tombstone deletes the row, any
other value replaces it, and a loaded value is never a tombstone. -/
def kvsql [DecidableEq K] : Backend K D (K → Option (Row D)) where
  load rows k := (rows k).map fun r => ⟨r.value, r.timestamp, false⟩
  save rows k v :=
    Function.update rows k (if v.isDeleted then none else some ⟨v.timestamp, v.data⟩)

theorem kvsql_faithful [DecidableEq K] : Faithful (kvsql : Backend K D (K → Option (Row D))) where
  load_save_self rows k v := by
    rcases v with ⟨d, t, _ | _⟩ <;> simp [kvsql]
  load_save_of_ne rows k v k' h := by simp [kvsql, h]
  not_isDeleted rows k v h := by
    obtain ⟨r, -, rfl⟩ := Option.map_eq_some_iff.1 h
    rfl

/-! ## The map behind the cache -/

/-- A value as a reader sees it: a tombstone is no value. -/
def live (v : ValueWrapper D) : Option (ValueWrapper D) := if v.isDeleted then none else some v

section View

variable [DecidableEq K] [Inhabited D] {maxSize : ℕ} {B : Backend K D β}

/-- The map that a store stands for. -/
def view (B : Backend K D β) (s : KVStore K D β) (k : K) : Option (ValueWrapper D) :=
  match s.store.lookup k with
  | some c => live c.value
  | none => B.load s.backend k

/-- The requests whose answers are specified: no forced reload and no `flush`. -/
inductive Request (K D : Type) where
  | set (key : K) (value : ValueWrapper D)
  | remove (key : K)
  | get (key : K)

/-- The operation of the store behind a request. -/
def Request.toOp : Request K D → Op K D
  | .set key value => .set key value
  | .remove key => .remove key
  | .get key => .get key false

/-- A request to a plain map. -/
def specStep (m : K → Option (ValueWrapper D)) : Request K D → K → Option (ValueWrapper D)
  | .set key value => Function.update m key (live value)
  | .remove key => Function.update m key none
  | .get _ => m

/-- An eviction does not change the view: what leaves the cache is in the backend. -/
theorem view_evictLast (hB : Faithful B) {s : KVStore K D β} (hs : Consistent maxSize s) :
    view B (evictLast B s) = view B s := by
  funext k
  cases hw : writeBack s with
  | none => simp [evictLast, hw]
  | some kv =>
    obtain ⟨last, v⟩ := kv
    obtain ⟨c, hc, rfl⟩ := hs.lookup_of_writeBack hw
    by_cases e : k = last
    · subst e
      simp [view, evictLast, hw, hc, hB.load_save_self, live]
    · simp [view, evictLast, hw, AList.lookup_erase_ne e, hB.load_save_of_ne _ _ _ _ e]

/-- **`setLocked` writes one key of the view**, whatever it evicts. -/
theorem view_setLocked (hB : Faithful B) {s : KVStore K D β} (hs : Consistent maxSize s) (key : K)
    (value : ValueWrapper D) :
    view B (setLocked B maxSize s key value) = Function.update (view B s) key (live value) := by
  funext k
  by_cases e : k = key
  · subst e
    obtain ⟨c, hc, rfl⟩ := lookup_setLocked_self B maxSize s k value
    simp [view, hc]
  · rw [Function.update_of_ne e]
    unfold setLocked
    split
    · simp [view, AList.lookup_insert_ne e]
    · have hpush : ∀ t : KVStore K D β, view B (pushFront t key value) k = view B t k := by
        intro t
        simp [view, pushFront, AList.lookup_insert_ne e]
      rw [hpush]
      split_ifs
      · rw [view_evictLast hB hs]
      · rfl

/-- **`get` answers from the view and leaves it alone.** -/
theorem view_get (hB : Faithful B) {s : KVStore K D β} (hs : Consistent maxSize s) (key : K) :
    (get B maxSize s key false).1 = view B s key ∧ view B (get B maxSize s key false).2 = view B s := by
  cases hc : s.store.lookup key with
  | some c =>
    rw [get_of_lookup B maxSize hc]
    split_ifs with hdel
    · exact ⟨by simp [view, hc, live, hdel], rfl⟩
    · exact ⟨by simp [view, hc, live, hdel], rfl⟩
  | none =>
    rw [get_of_load B maxSize (Or.inr (AList.lookup_eq_none.1 hc))]
    cases hl : B.load s.backend key with
    | none => exact ⟨by simp [view, hc, hl], rfl⟩
    | some value =>
      have hview : view B s key = some value := by simp [view, hc, hl]
      refine ⟨hview.symm, ?_⟩
      have hlive : live value = view B s key := by
        simp [hview, live, hB.not_isDeleted _ _ _ hl]
      simp only [view_setLocked hB hs, hlive, Function.update_eq_self]

/-- **The store refines the plain map**: over any requests from an empty cache it stays consistent
and its view moves as the map does. -/
theorem view_run (hB : Faithful B) (hmax : 0 < maxSize) (b : β) (reqs : List (Request K D)) :
    Consistent maxSize (Runs.run (step B maxSize) (KVStore.empty b) (reqs.map Request.toOp)) ∧
      view B (Runs.run (step B maxSize) (KVStore.empty b) (reqs.map Request.toOp)) =
        Runs.run specStep (B.load b) reqs := by
  induction reqs using List.reverseRecOn with
  | nil => exact ⟨consistent_empty b, by funext k; simp [view, KVStore.empty]⟩
  | append_singleton reqs r ih =>
    obtain ⟨hcons, hview⟩ := ih
    rw [List.map_append, Runs.run_append, Runs.run_append, ← hview]
    refine ⟨consistent_step B hmax _ r.toOp hcons (by cases r <;> trivial), ?_⟩
    cases r with
    | set key value => exact view_setLocked hB hcons key value
    | remove key => exact view_setLocked hB hcons key _
    | get key => exact (view_get hB hcons key).2

/-- The value that a request writes to a key, if it does. -/
def Request.written : Request K D → K → Option (ValueWrapper D)
  | .set key value, k => if key = k then some value else none
  | .remove key, k => if key = k then some ValueWrapper.deleted else none
  | .get _, _ => none

/-- The last value written to a key by a list of requests. -/
def lastWrite : List (Request K D) → K → Option (ValueWrapper D)
  | [], _ => none
  | r :: reqs, k => (lastWrite reqs k).or (r.written k)

/-- The plain map holds the last write, or what it held at the start. -/
theorem run_specStep (m : K → Option (ValueWrapper D)) (reqs : List (Request K D)) (k : K) :
    Runs.run specStep m reqs k = (lastWrite reqs k).elim (m k) live := by
  induction reqs generalizing m with
  | nil => rfl
  | cons r reqs ih =>
    rw [Runs.run_cons, ih, lastWrite]
    cases lastWrite reqs k with
    | some v => rfl
    | none =>
      cases r with
      | set key value =>
        by_cases e : key = k
        · subst e
          simp [specStep, Request.written]
        · simp [specStep, Request.written, e, Ne.symm e]
      | remove key =>
        by_cases e : key = k
        · subst e
          simp [specStep, Request.written, live, ValueWrapper.deleted]
        · simp [specStep, Request.written, e, Ne.symm e]
      | get key => rfl

end View

/-! ## Scopes -/

/-- `ScopedKV::buildKey`. -/
def buildKey (pre key : String) : String := pre ++ "." ++ key

/-- A `KV` of the program: the root store, or a `ScopedKV` with its prefix. -/
inductive Handle where
  | root
  | scopedKV (pre : String)

/-- `KVStore::scoped` and `ScopedKV::scoped`. -/
def Handle.scoped : Handle → String → Handle
  | .root, scope => .scopedKV scope
  | .scopedKV pre, scope => .scopedKV (buildKey pre scope)

/-- The key of the root store that a key of a handle stands for. -/
def Handle.rootKey : Handle → String → String
  | .root, key => key
  | .scopedKV pre, key => buildKey pre key

/-- The request to the root store that a request to a handle is forwarded as. -/
def Handle.forward (h : Handle) : Request String D → Request String D
  | .set key value => .set (h.rootKey key) value
  | .remove key => .remove (h.rootKey key)
  | .get key => .get (h.rootKey key)

/-- The key of the root store for a key under nested scopes, outermost first. -/
def joinedKey : List String → String → String
  | [], key => key
  | scope :: scopes, key => buildKey scope (joinedKey scopes key)

theorem rootKey_foldl_scopedKV (pre : String) (scopes : List String) (key : String) :
    (scopes.foldl Handle.scoped (.scopedKV pre)).rootKey key = buildKey pre (joinedKey scopes key) := by
  induction scopes generalizing pre with
  | nil => rfl
  | cons scope scopes ih =>
    rw [List.foldl_cons, Handle.scoped, ih, joinedKey]
    simp only [buildKey, String.append_assoc]

/-- A key under nested scopes is joined with all of them. -/
theorem rootKey_foldl_scoped (scopes : List String) (key : String) :
    (scopes.foldl Handle.scoped .root).rootKey key = joinedKey scopes key := by
  cases scopes with
  | nil => rfl
  | cons scope scopes => exact rootKey_foldl_scopedKV scope scopes key

variable [Inhabited D] {B : Backend String D β} {maxSize : ℕ}

/-- The store after requests through handles. -/
def runHandles (B : Backend String D β) (maxSize : ℕ) (b : β)
    (reqs : List (Handle × Request String D)) : KVStore String D β :=
  Runs.run (step B maxSize) (KVStore.empty b) (reqs.map fun r => (r.1.forward r.2).toOp)

/-- **Read your writes.** After any requests to the root store and to scopes of it, a `get` through
nested scopes is a `get` of the joined key from the root store, and it answers with the last value
written to that key: nothing when that was a tombstone, and what the backend held at the start when
the key was never written.

**Proof sketch.** The requests reach the root store under joined keys; the store refines the plain
map (`view_run`), which holds the last write (`run_specStep`). -/
theorem get_eq_lastWrite (hB : Faithful B) (hmax : 0 < maxSize) (b : β)
    (reqs : List (Handle × Request String D)) (scopes : List String) (key : String) :
    (get B maxSize (runHandles B maxSize b reqs)
        ((scopes.foldl Handle.scoped .root).rootKey key) false).1 =
      (get B maxSize (runHandles B maxSize b reqs) (joinedKey scopes key) false).1 ∧
    (get B maxSize (runHandles B maxSize b reqs) (joinedKey scopes key) false).1 =
      (lastWrite (reqs.map fun r => r.1.forward r.2) (joinedKey scopes key)).elim
        (B.load b (joinedKey scopes key)) live := by
  refine ⟨by rw [rootKey_foldl_scoped], ?_⟩
  have hrun : runHandles B maxSize b reqs = Runs.run (step B maxSize) (KVStore.empty b)
      ((reqs.map fun r => r.1.forward r.2).map Request.toOp) := by
    rw [runHandles, List.map_map]
    rfl
  obtain ⟨hcons, hview⟩ := view_run hB hmax b (reqs.map fun r => r.1.forward r.2)
  rw [hrun, (view_get hB hcons _).1, hview, run_specStep]

/-- The rule applied to the rows of `kv_store`, a cache of one key and two scopes: the removed key
was evicted as a tombstone and stays removed. -/
theorem get_eq_lastWrite_kvsql :
    (get kvsql 1 (runHandles kvsql 1 (fun _ => some ⟨3, 0⟩)
        [(.scopedKV "a", .set "k" ⟨7, 4, false⟩), (.root, .remove "a.k"),
          (.root, .set "b" ⟨8, 5, false⟩)])
      (joinedKey ["a"] "k") false).1 = (none : Option (ValueWrapper ℕ)) := by
  have h := (get_eq_lastWrite (kvsql_faithful (D := ℕ)) Nat.one_pos
    (fun _ => some ⟨3, 0⟩)
    [(.scopedKV "a", .set "k" ⟨7, 4, false⟩), (.root, .remove "a.k"),
      (.root, .set "b" ⟨8, 5, false⟩)] ["a"] "k").2
  exact h.trans (by decide)

end TiabloServer.KV
