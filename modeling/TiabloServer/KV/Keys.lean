import TiabloServer.KV.Store
import TiabloServer.Lib.Loop

/-!
# Listing keys

`KVStore::keys` (`kv/kv.cpp`) with `KVSQL::loadPrefix` (`kv/kv_sql.cpp`) and `replaceString`
(`utils/tools.cpp`). The names of the keys in the cache come together with those of the rows that
the database finds by a `LIKE` pattern.

The column `key_name` is `utf8`, whose collation gives each character a weight: letters that differ
in case only have the same. `LIKE` compares the weights one by one; `=` does so, too, but leaves out
the spaces at the end.

## Main definitions

* `KV.KeysExact` — a listing ends with the names of just the keys that have a value.
* `KV.cut` — a key without a string, wherever it stands.
* `KV.Clean` — no tombstone is in reach, and no key that is to be listed is only in the database.

## Main results

* `KV.without_cut` — what `replaceString` leaves of a key.
* `KV.keysExact_iff` — the listing is exact just in clean states.
-/

namespace TiabloServer.KV

/-! ## The functions of the source -/

/-- A `std::string`. -/
abbrev Name := List Char

section Collation

variable (weight : Char → ℕ)

/-- `LIKE`: `%` stands for any characters, `_` for one, and `\` makes the next one stand for
itself. -/
def like : Name → Name → Bool
  | [], s => s = []
  | '%' :: p, s => s.tails.any (like p)
  | '_' :: p, s =>
    match s with
    | [] => false
    | _ :: s => like p s
  | '\\' :: c :: p, s =>
    match s with
    | [] => false
    | d :: s => weight c = weight d ∧ like p s
  | c :: p, s =>
    match s with
    | [] => false
    | d :: s => weight c = weight d ∧ like p s

/-- The weights that `=` compares. -/
def weights (s : Name) : List ℕ := (s.map weight).rdropWhile (· = weight ' ')

end Collation

/-- `std::string::find`: the first position from `startPos` on. -/
def find (str sought : Name) (startPos : ℕ) : Option ℕ :=
  (List.range (str.length + 1)).find? fun pos => startPos ≤ pos ∧ sought <+: str.drop pos

/-- A round of the loop of `replaceString`, on the string and the position. -/
def replaceRound (sought replacement : Name) (s : Name × ℕ) : Loop.Round (Name × ℕ) Name :=
  match find s.1 sought s.2 with
  | none => .done s.1
  | some startPos => .next (s.1.take startPos ++ replacement ++ s.1.drop (startPos + sought.length),
      startPos + replacement.length)

/-- `replaceString`, with fuel for its loop. -/
def replaceString (str sought replacement : Name) (fuel : ℕ) : Option Name :=
  if str = [] then some [] else Loop.run (replaceRound sought replacement) fuel (str, 0)

/-- What is left of a string when `sought` is taken out wherever it stands, from the left to the
right; `skip` characters are to be left out at once. -/
def cut (sought : Name) : ℕ → Name → Name
  | _, [] => []
  | skip + 1, _ :: s => cut sought skip s
  | 0, c :: s => if sought <+: c :: s then cut sought (sought.length - 1) s else c :: cut sought 0 s

/-- A row of the table `kv_store`: a key, and its value when it can be read. -/
structure StoreRow (D : Type) where
  keyName : Name
  value : Option (ValueWrapper D)

variable {D : Type} (weight : Char → ℕ)

/-- `KVSQL::load`. -/
def load (rows : List (StoreRow D)) (key : Name) : Option (ValueWrapper D) :=
  (rows.find? fun row => weights weight row.keyName = weights weight key).bind StoreRow.value

/-- `KVSQL::loadPrefix`. -/
def loadPrefix (rows : List (StoreRow D)) (start : Name) (fuel : ℕ) : Option (List Name) :=
  match rows with
  | [] => some []
  | row :: rows =>
    if like weight (start ++ ['%']) row.keyName then do
      let key ← replaceString row.keyName start [] fuel
      let keys ← loadPrefix rows start fuel
      some (key :: keys)
    else loadPrefix rows start fuel

/-- `KVStore::keys`. -/
def keys (s : KVStore Name D (List (StoreRow D))) (start : Name) (fuel : ℕ) : Option (List Name) :=
  let cached := (s.store.keys.filter fun key => start <+: key).map fun key => key.drop start.length
  (loadPrefix weight s.backend start fuel).map fun loaded => cached ++ loaded

/-- The database behind the store. What `save` does plays no part. -/
def sqlBackend (save : List (StoreRow D) → Name → ValueWrapper D → List (StoreRow D)) :
    Backend Name D (List (StoreRow D)) := ⟨load weight, save⟩

/-! ## What a listing is to be -/

section Spec

variable [Inhabited D]

/-- A listing ends with the names behind `start` of just the keys for which `get` answers a
value. -/
def KeysExact (save : List (StoreRow D) → Name → ValueWrapper D → List (StoreRow D)) (maxSize : ℕ)
    (s : KVStore Name D (List (StoreRow D))) (start : Name) : Prop :=
  ∃ names fuel, (∀ fuel', fuel ≤ fuel' → keys weight s start fuel' = some names) ∧
    ∀ suffix, suffix ∈ names ↔
      (get (sqlBackend weight save) maxSize s (start ++ suffix) false).1.isSome = true

end Spec

/-- A key has a value: one in the cache that is not deleted, or else one in the database. -/
def HasValue (s : KVStore Name D (List (StoreRow D))) (key : Name) : Prop :=
  match s.store.lookup key with
  | some c => c.value.isDeleted = false
  | none => (load weight s.backend key).isSome = true

/-- The states in which a listing is exact. -/
structure Clean (s : KVStore Name D (List (StoreRow D))) (start : Name) : Prop where
  /-- Nothing is sought in a key that has something. -/
  ends : start = [] → ∀ row ∈ s.backend, row.keyName = []
  /-- No tombstone is in reach. -/
  live : ∀ key c, s.store.lookup key = some c → start <+: key → c.value.isDeleted = false
  /-- The database has no value for a key that begins with `start`: it would have it with any number
  of spaces behind the key, too. -/
  unstored : ∀ suffix, load weight s.backend (start ++ suffix) = none
  /-- A row that matches has a key that is cached under what is left of it. -/
  cached : ∀ row ∈ s.backend, like weight (start ++ ['%']) row.keyName = true →
    start ++ cut start 0 row.keyName ∈ s.store

/-! ## Replacing -/

section Replacing

variable {str sought : Name} {startPos : ℕ}

theorem find_eq_none (h : ∀ pos, startPos ≤ pos → ¬ sought <+: str.drop pos) : find str sought startPos = none := by
  refine List.find?_eq_none.2 fun pos _ hpos => ?_
  simp only [decide_eq_true_eq] at hpos
  exact h pos hpos.1 hpos.2

/-- What begins at the position is found there. -/
theorem find_self (hpos : startPos ≤ str.length) (h : sought <+: str.drop startPos) :
    find str sought startPos = some startPos := by
  rw [find, List.find?_range_eq_some]
  refine ⟨by simpa using h, List.mem_range.2 (Nat.lt_succ_of_le hpos), fun pos hlt => ?_⟩
  simp [Nat.not_le.2 hlt]

/-- The search goes on where it finds nothing. -/
theorem find_succ (h : ¬ sought <+: str.drop startPos) :
    find str sought startPos = find str sought (startPos + 1) := by
  unfold find
  congr 1
  funext pos
  rcases Nat.lt_trichotomy startPos pos with hlt | rfl | hlt
  · simp [hlt, hlt.le]
  · simp [h]
  · simp [Nat.not_le.2 hlt, Nat.not_le.2 (Nat.lt_succ_of_lt hlt)]

theorem cut_drop (sought : Name) (skip : ℕ) (s : Name) : cut sought skip s = cut sought 0 (s.drop skip) := by
  induction skip generalizing s with
  | zero => rfl
  | succ skip ih =>
    cases s with
    | nil => rfl
    | cons c s => exact ih s

/-- **The loop takes out what is sought**, from its position on.

**Proof sketch.** Induction on what is behind the position. Where what is sought begins there, the
round takes it out and stays; elsewhere the round is the one from the next position. -/
theorem run_replaceRound (hsought : sought ≠ []) (n : ℕ) (left rest : Name) (hn : rest.length = n) (fuel : ℕ)
    (hfuel : n < fuel) :
    Loop.run (replaceRound sought []) fuel (left ++ rest, left.length) = some (left ++ cut sought 0 rest) := by
  induction n using Nat.strong_induction_on generalizing left rest fuel with
  | _ n ih =>
  obtain ⟨fuel, rfl⟩ : ∃ m, fuel = m + 1 := ⟨fuel - 1, by omega⟩
  cases rest with
  | nil =>
    have hround : replaceRound sought [] (left ++ [], left.length) = .done left := by
      rw [replaceRound, find_eq_none]
      · rw [List.append_nil]
      · intro pos hpos hfound
        rw [List.append_nil, List.drop_eq_nil_of_le hpos] at hfound
        exact hsought (List.prefix_nil.1 hfound)
    rw [Loop.run_of_done hround, cut, List.append_nil]
  | cons c rest =>
    rw [List.length_cons] at hn
    by_cases hfound : sought <+: c :: rest
    · have hpos := List.length_pos_of_ne_nil hsought
      have hround : replaceRound sought [] (left ++ c :: rest, left.length) =
          .next (left ++ rest.drop (sought.length - 1), left.length) := by
        have hdrop : (c :: rest).drop sought.length = rest.drop (sought.length - 1) := by
          obtain ⟨m, hm⟩ : ∃ m, sought.length = m + 1 := ⟨sought.length - 1, by omega⟩
          rw [hm, List.drop_succ_cons, Nat.add_sub_cancel]
        rw [replaceRound, find_self (by simp) (by rwa [List.drop_left])]
        simp only [List.take_left, List.append_nil, List.length_nil, Nat.add_zero]
        rw [← List.drop_drop, List.drop_left, hdrop]
      rw [Loop.run_of_next hround, cut, if_pos hfound, cut_drop]
      refine ih _ ?_ left _ rfl fuel ?_
      · rw [List.length_drop]
        omega
      · rw [List.length_drop]
        omega
    · have hround : replaceRound sought [] (left ++ c :: rest, left.length) =
          replaceRound sought [] ((left ++ [c]) ++ rest, (left ++ [c]).length) := by
        simp only [replaceRound, List.append_assoc, List.singleton_append, List.length_append,
          List.length_singleton]
        rw [find_succ (by rwa [List.drop_left])]
      have hrun : Loop.run (replaceRound sought []) (fuel + 1) (left ++ c :: rest, left.length) =
          Loop.run (replaceRound sought []) (fuel + 1) ((left ++ [c]) ++ rest, (left ++ [c]).length) := by
        rw [Loop.run, Loop.run, hround]
      rw [hrun, ih rest.length (by omega) (left ++ [c]) rest rfl (fuel + 1) (by omega), cut, if_neg hfound,
        List.append_assoc, List.singleton_append]

/-- What `replaceString` leaves. -/
theorem replaceString_eq_cut (h : sought = [] → str = []) {fuel : ℕ} (hfuel : str.length < fuel) :
    replaceString str sought [] fuel = some (cut sought 0 str) := by
  unfold replaceString
  split_ifs with hstr
  · rw [hstr, cut]
  · exact run_replaceRound (fun hsought => hstr (h hsought)) _ [] str rfl fuel hfuel

/-- **Nothing is sought forever** in a string that has something. -/
theorem replaceString_nil (hstr : str ≠ []) (fuel : ℕ) : replaceString str [] [] fuel = none := by
  rw [replaceString, if_neg hstr]
  induction fuel with
  | zero => rfl
  | succ fuel ih =>
    have hround : replaceRound [] [] (str, 0) = .next (str, 0) := by
      simp [replaceRound, find_self]
    rw [Loop.run_of_next hround]
    exact ih

end Replacing

/-! ## Spaces at the end -/

theorem weights_append (s : Name) (n : ℕ) : weights weight (s ++ List.replicate n ' ') = weights weight s := by
  induction n with
  | zero => rw [List.replicate_zero, List.append_nil]
  | succ n ih =>
    rw [List.replicate_succ', ← List.append_assoc, weights, List.map_append, List.map_singleton,
      List.rdropWhile_concat_pos _ _ _ (by simp)]
    exact ih

/-- `=` does not see the spaces behind a key. -/
theorem load_append (rows : List (StoreRow D)) (key : Name) (n : ℕ) :
    load weight rows (key ++ List.replicate n ' ') = load weight rows key := by
  simp only [load, weights_append]

/-- Of the keys with spaces behind some is in no list. -/
theorem exists_notMem (names : List Name) (suffix : Name) : ∃ n, suffix ++ List.replicate n ' ' ∉ names := by
  by_contra hall
  push Not at hall
  have hinj : Function.Injective fun n => suffix ++ List.replicate n ' ' := fun m n h => by
    simpa using congrArg List.length h
  exact Set.infinite_range_of_injective hinj ((List.finite_toSet names).subset
    (Set.range_subset_iff.2 hall))

/-! ## Listings -/

section Listings

variable {weight} {rows : List (StoreRow D)} {start : Name}

/-- **The rows that match** leave what is left of their keys. -/
theorem loadPrefix_eq (h : start = [] → ∀ row ∈ rows, row.keyName = []) :
    ∃ fuel, ∀ fuel', fuel ≤ fuel' → loadPrefix weight rows start fuel' =
      some ((rows.filter fun row => like weight (start ++ ['%']) row.keyName).map
        fun row => cut start 0 row.keyName) := by
  induction rows with
  | nil => exact ⟨0, fun _ _ => rfl⟩
  | cons row rows ih =>
    obtain ⟨fuel, hrun⟩ := ih fun hstart row hrow => h hstart row (List.mem_cons_of_mem _ hrow)
    refine ⟨max fuel (row.keyName.length + 1), fun n hn => ?_⟩
    rw [loadPrefix, hrun n (by omega),
      replaceString_eq_cut (fun hstart => h hstart row List.mem_cons_self) (by omega), List.filter_cons]
    split_ifs <;> rfl

/-- A listing that ends has replaced in all keys that match. -/
theorem replaceString_of_loadPrefix {fuel : ℕ} {names : List Name} (h : loadPrefix weight rows start fuel = some names) :
    ∀ row ∈ rows, like weight (start ++ ['%']) row.keyName = true →
      (replaceString row.keyName start [] fuel).isSome = true := by
  induction rows generalizing names with
  | nil => exact fun row hrow => absurd hrow List.not_mem_nil
  | cons row rows ih =>
    unfold loadPrefix at h
    intro row' hrow' hlike'
    split_ifs at h with hlike
    · cases hkey : replaceString row.keyName start [] fuel with
      | none => simp [hkey] at h
      | some key =>
        cases hkeys : loadPrefix weight rows start fuel with
        | none => simp [hkeys] at h
        | some keys =>
          rcases List.mem_cons.1 hrow' with rfl | hrow'
          · rw [hkey]
            rfl
          · exact ih hkeys row' hrow' hlike'
    · rcases List.mem_cons.1 hrow' with rfl | hrow'
      · exact absurd hlike' hlike
      · exact ih h row' hrow' hlike'

theorem like_percent (s : Name) : like weight ['%'] s = true := by
  simp [like]

variable {s : KVStore Name D (List (StoreRow D))}

theorem mem_cached (suffix : Name) :
    suffix ∈ (s.store.keys.filter fun key => start <+: key).map (fun key => key.drop start.length) ↔
      start ++ suffix ∈ s.store := by
  rw [List.mem_map]
  constructor
  · rintro ⟨key, hkey, rfl⟩
    obtain ⟨hmem, hstart⟩ := List.mem_filter.1 hkey
    obtain ⟨t, rfl⟩ := of_decide_eq_true hstart
    rwa [List.drop_left, AList.mem_keys]
  · intro h
    refine ⟨start ++ suffix, List.mem_filter.2 ⟨h, ?_⟩, List.drop_left⟩
    simp

theorem mem_store_iff (key : Name) : key ∈ s.store ↔ ∃ c, s.store.lookup key = some c := by
  rw [← AList.lookup_isSome, Option.isSome_iff_exists]

/-- What a listing has, when nothing is sought in vain: the cached keys and what the pattern
finds. -/
theorem keys_spec (hends : start = [] → ∀ row ∈ s.backend, row.keyName = []) :
    ∃ names fuel, (∀ fuel', fuel ≤ fuel' → keys weight s start fuel' = some names) ∧
      ∀ suffix, suffix ∈ names ↔ start ++ suffix ∈ s.store ∨
        ∃ row ∈ s.backend, like weight (start ++ ['%']) row.keyName = true ∧
          cut start 0 row.keyName = suffix := by
  obtain ⟨fuel, hrun⟩ := loadPrefix_eq hends
  refine ⟨_, fuel, fun fuel' hle => by rw [keys, hrun fuel' hle, Option.map_some], fun suffix => ?_⟩
  rw [List.mem_append, mem_cached, List.mem_map]
  simp only [List.mem_filter, and_assoc]

/-- A listing ends only if nothing is not sought in keys that have something. -/
theorem ends_of_keys {names : List Name} {fuel : ℕ} (h : keys weight s start fuel = some names) :
    start = [] → ∀ row ∈ s.backend, row.keyName = [] := by
  rintro rfl row hrow
  by_contra hne
  unfold keys at h
  obtain ⟨loaded, hloaded, -⟩ := Option.map_eq_some_iff.1 h
  have hreplaced := replaceString_of_loadPrefix hloaded row hrow (like_percent _)
  rw [replaceString_nil hne] at hreplaced
  exact nomatch hreplaced

/-- Without a value in the database a key has one just in the cache. -/
theorem hasValue_iff {key : Name} (h : load weight s.backend key = none) :
    HasValue weight s key ↔ ∃ c, s.store.lookup key = some c ∧ c.value.isDeleted = false := by
  unfold HasValue
  cases hlookup : s.store.lookup key with
  | some c => simp
  | none => simp [h]

variable [Inhabited D] {save : List (StoreRow D) → Name → ValueWrapper D → List (StoreRow D)} {maxSize : ℕ}

/-- `get` answers the value of a key that has one. -/
theorem get_isSome_iff (key : Name) :
    (get (sqlBackend weight save) maxSize s key false).1.isSome = true ↔ HasValue weight s key := by
  unfold HasValue
  cases hlookup : s.store.lookup key with
  | some c =>
    rw [get_of_lookup _ _ hlookup]
    cases hdeleted : c.value.isDeleted <;> simp [hdeleted]
  | none =>
    have hnot : key ∉ s.store := by
      rw [← AList.lookup_isSome, hlookup]
      simp
    rw [get_of_load _ _ (Or.inr hnot)]
    cases hload : load weight s.backend key with
    | none => simp [sqlBackend, hload]
    | some value => simp [sqlBackend, hload]

/-- **The listing is exact** just in clean states.

**Proof sketch.** Where a key has its value in the database, so it has with any number of spaces
behind it, and some of these are not in the listing. Without such keys just the cached ones have a
value. -/
theorem keysExact_iff (weight : Char → ℕ)
    (save : List (StoreRow D) → Name → ValueWrapper D → List (StoreRow D)) (maxSize : ℕ)
    (s : KVStore Name D (List (StoreRow D))) (start : Name) :
    KeysExact weight save maxSize s start ↔ Clean weight s start := by
  constructor
  · rintro ⟨names, fuel, hrun, hnames⟩
    simp only [get_isSome_iff] at hnames
    have hends := ends_of_keys (hrun fuel le_rfl)
    obtain ⟨names', fuel', hrun', hmem⟩ := keys_spec hends
    obtain rfl : names = names' := Option.some.inj
      ((hrun _ (le_max_left fuel fuel')).symm.trans (hrun' _ (le_max_right fuel fuel')))
    have hunstored : ∀ suffix, load weight s.backend (start ++ suffix) = none := by
      intro suffix
      by_contra hload
      obtain ⟨n, hn⟩ := exists_notMem names suffix
      -- The key with the spaces is not cached, as cached keys are listed.
      have hnone : s.store.lookup (start ++ (suffix ++ List.replicate n ' ')) = none := by
        by_contra hcached
        exact hn ((hmem _).2 (Or.inl (AList.lookup_isSome.1 (Option.isSome_iff_ne_none.2 hcached))))
      refine hn ((hnames _).2 ?_)
      rw [HasValue, hnone, ← List.append_assoc]
      simpa only [load_append] using Option.isSome_iff_ne_none.2 hload
    refine ⟨hends, fun key c hc hstart => ?_, hunstored, fun row hrow hlike => ?_⟩
    · obtain ⟨suffix, rfl⟩ := hstart
      have hvalue := (hnames suffix).1 ((hmem suffix).2 (Or.inl ((mem_store_iff _).2 ⟨c, hc⟩)))
      simpa [HasValue, hc] using hvalue
    · have hvalue := (hnames _).1 ((hmem _).2 (Or.inr ⟨row, hrow, hlike, rfl⟩))
      obtain ⟨c, hc, -⟩ := (hasValue_iff (hunstored _)).1 hvalue
      exact (mem_store_iff _).2 ⟨c, hc⟩
  · rintro ⟨hends, hlive, hunstored, hcached⟩
    obtain ⟨names, fuel, hrun, hmem⟩ := keys_spec hends
    refine ⟨names, fuel, hrun, fun suffix => ?_⟩
    rw [hmem, get_isSome_iff, hasValue_iff (hunstored suffix)]
    constructor
    · intro h
      have hin : start ++ suffix ∈ s.store := by
        rcases h with hin | ⟨row, hrow, hlike, rfl⟩
        · exact hin
        · exact hcached row hrow hlike
      obtain ⟨c, hc⟩ := (mem_store_iff _).1 hin
      exact ⟨c, hc, hlive _ c hc (List.prefix_append _ _)⟩
    · rintro ⟨c, hc, -⟩
      exact Or.inl ((mem_store_iff _).2 ⟨c, hc⟩)

end Listings

/-! ## Samples -/

/-- Letters weigh the same in upper and lower case. -/
def ignoreCase (c : Char) : ℕ := c.toUpper.toNat

/-- A tombstone in the cache, before it is written back. -/
def removed : KVStore Name ℕ (List (StoreRow ℕ)) where
  store := AList.singleton "ab".toList ⟨.deleted, 0⟩
  lruQueue := [⟨0, "ab".toList⟩]
  nextId := 1
  backend := []

/-- A row in the database, and nothing in the cache. -/
def stored (key : String) : KVStore Name ℕ (List (StoreRow ℕ)) :=
  KVStore.empty [⟨key.toList, some ⟨7, 0, false⟩⟩]

/-- **A removed key is listed**, although it has no value; the key of a row in capitals is listed
for a small letter, all of it; and with the empty string nothing is listed when the database has a
key. -/
theorem not_keysExact_removed :
    keys ignoreCase removed "a".toList 1 = some ["b".toList] ∧
      ¬ KeysExact ignoreCase (fun rows _ _ => rows) MAX_SIZE removed "a".toList ∧
      keys ignoreCase (stored "AB") "a".toList 3 = some ["AB".toList] ∧
      ¬ KeysExact ignoreCase (fun rows _ _ => rows) MAX_SIZE (stored "AB") "a".toList ∧
      ¬ KeysExact ignoreCase (fun rows _ _ => rows) MAX_SIZE (stored "a") [] := by
  have hload : ∀ names fuel, (∀ fuel', fuel ≤ fuel' →
      keys ignoreCase (stored "AB") "a".toList fuel' = some names) → names = ["AB".toList] := by
    intro names fuel hrun
    exact Option.some.inj ((hrun (fuel + 3) (Nat.le_add_right _ _)).symm.trans rfl)
  refine ⟨by decide +kernel, ?_, by decide +kernel, ?_, ?_⟩
  · rintro ⟨names, fuel, hrun, hnames⟩
    have hall : keys ignoreCase removed "a".toList fuel = some ["b".toList] := rfl
    obtain rfl := Option.some.inj ((hrun fuel le_rfl).symm.trans hall)
    have hvalue := (hnames "b".toList).1 List.mem_cons_self
    revert hvalue
    decide +kernel
  · rintro ⟨names, fuel, hrun, hnames⟩
    obtain rfl := hload names fuel hrun
    have hvalue := (hnames "AB".toList).1 List.mem_cons_self
    revert hvalue
    decide +kernel
  · rintro ⟨names, fuel, hrun, -⟩
    have hends := ends_of_keys (hrun fuel le_rfl) rfl _ List.mem_cons_self
    revert hends
    decide

end TiabloServer.KV
