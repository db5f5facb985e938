import TiabloServer.Lib.Runs
import TiabloServer.Lib.Text

/-!
# Batched inserts

The class `DBInsert` (`database/database.hpp`, `database/database.cpp`). Rows are collected in one
buffer. When their length passes the packet limit of the server, the buffer is executed before the
next row goes in; `execute` itself cuts the buffer into statements of at most `MAX_QUERY_SIZE`, each
after the last `),(` in reach. Neither the buffer nor its length is reset.

A `std::string` is the list of its characters, and a `size_t` is a number below `2 ^ 64`.

## Main definitions

* `Database.SendsOnce` — every row is sent once, and in order.
* `Database.InPacket`, `Database.Splits` — nothing is executed too early, and no row is cut.

## Main results

* `Database.sendsOnce_iff` — rows are sent once exactly when nothing is executed too early and no
  row is cut.
* `Database.not_sendsOnce_twoRows` — a row is sent twice.
-/

namespace TiabloServer.Database

open Text

/-- The characters of a `std::string`. -/
abbrev Str := List Char

/-- `Database::MAX_QUERY_SIZE`. -/
def MAX_QUERY_SIZE : ℕ := 8 * 1024 * 1024

/-- The value of `n` in a `size_t`. -/
def toSize (n : ℤ) : ℕ := (n % 2 ^ 64).toNat

structure DBInsert where
  upsertColumns : List Str
  query : Str
  values : Str
  length : ℕ

/-- The statements that have been sent, and whether the call was a success. -/
structure Executed where
  success : Bool
  sent : List Str

variable (answer : ℕ → Bool) (maxPacketSize : ℕ)

/-- `Database::executeQuery`: the server answers the `n`-th statement with `answer n`. -/
def executeQuery (query : Str) (sent : List Str) : Executed :=
  ⟨answer sent.length, sent ++ [query]⟩

/-! ## Executing -/

/-- The clause for rows that exist already. -/
def upsertQuery (upsertColumns : List Str) : Str :=
  if upsertColumns = [] then []
  else " ON DUPLICATE KEY UPDATE ".toList ++ (", ".toList).intercalate
    (upsertColumns.map fun c => "`".toList ++ c ++ "` = VALUES(`".toList ++ c ++ "`)".toList)

/-- Where `execute` cuts a batch: behind the comma of the last `),(` that starts at `limit` or
before it, or at its end when it is not longer. -/
def cutPosition (limit : ℕ) (currentBatch : Str) : Option ℕ :=
  if limit < currentBatch.length then (rfind currentBatch [')', ',', '('] limit).map (· + 2)
  else some currentBatch.length

/-- A cut is behind the start of the batch, so that `execute` comes to an end. -/
theorem cutPosition_pos {limit cutPos : ℕ} {currentBatch : Str} (hne : currentBatch ≠ [])
    (h : cutPosition limit currentBatch = some cutPos) : 0 < cutPos := by
  unfold cutPosition at h
  split_ifs at h
  · obtain ⟨pos, -, rfl⟩ := Option.map_eq_some_iff.1 h
    omega
  · obtain rfl := Option.some.inj h
    exact List.length_pos_iff.2 hne

/-- The values of a batch, without the comma at their end. -/
def batchValues (currentBatch : Str) (cutPos : ℕ) : Str :=
  let values := currentBatch.take cutPos
  if values.getLast? = some ',' then values.dropLast else values

/-- The loop of `DBInsert::execute`. -/
def sendBatches (baseQuery upsertQuery : Str) (limit : ℕ) (currentBatch : Str) (sent : List Str) :
    Executed :=
  if hne : currentBatch = [] then ⟨true, sent⟩
  else
    match h : cutPosition limit currentBatch with
    | none => ⟨false, sent⟩
    | some cutPos =>
      have : 0 < cutPos := cutPosition_pos hne h
      let r := executeQuery answer
        (baseQuery ++ [' '] ++ batchValues currentBatch cutPos ++ upsertQuery) sent
      if r.success then
        sendBatches baseQuery upsertQuery limit (currentBatch.drop cutPos) r.sent
      else r
termination_by currentBatch.length
decreasing_by
  have := List.length_pos_iff.2 hne
  simp only [List.length_drop]
  omega

/-- The longest values for a statement, in a `size_t`. -/
def cutLimit (query : Str) (upsertColumns : List Str) : ℕ :=
  toSize (MAX_QUERY_SIZE - query.length - (upsertQuery upsertColumns).length)

namespace DBInsert

/-- `DBInsert::DBInsert` and `DBInsert::upsert`. -/
def new (query : Str) (upsertColumns : List Str) : DBInsert where
  upsertColumns
  query
  values := []
  length := query.length

/-- `DBInsert::execute`. -/
def execute (d : DBInsert) (sent : List Str) : Executed :=
  sendBatches answer d.query (upsertQuery d.upsertColumns) (cutLimit d.query d.upsertColumns) d.values
    sent

/-- The buffer with a row more. -/
def append (d : DBInsert) (row : Str) : DBInsert :=
  let row := ['('] ++ row ++ [')']
  { d with values := if d.values = [] then row else d.values ++ [','] ++ row }

/-- `DBInsert::addRow`. -/
def addRow (d : DBInsert) (row : Str) (sent : List Str) : DBInsert × Executed :=
  let d := { d with length := toSize (d.length + row.length) }
  let r := if maxPacketSize < d.length then d.execute answer sent else ⟨true, sent⟩
  (if r.success then d.append row else d, r)

end DBInsert

/-! ## Sending rows -/

/-- A `DBInsert` in use: the statements that it has sent, and whether all its calls were a
success. -/
structure Insertion where
  insert : DBInsert
  executed : Executed

/-- A row is added. -/
def Insertion.addRow (s : Insertion) (row : Str) : Insertion :=
  let r := s.insert.addRow answer maxPacketSize row s.executed.sent
  ⟨r.1, ⟨s.executed.success && r.2.success, r.2.sent⟩⟩

/-- The rows are added one by one. -/
def addRows (query : Str) (upsertColumns : List Str) (rows : List Str) : Insertion :=
  Runs.run (Insertion.addRow answer maxPacketSize) ⟨.new query upsertColumns, ⟨true, []⟩⟩ rows

/-- The rows are added one by one, and then executed. -/
def send (query : Str) (upsertColumns : List Str) (rows : List Str) : Executed :=
  let s := addRows answer maxPacketSize query upsertColumns rows
  let r := s.insert.execute answer s.executed.sent
  ⟨s.executed.success && r.success, r.sent⟩

/-- The value list of some rows. -/
def valueList (rows : List Str) : Str :=
  [','].intercalate (rows.map fun row => ['('] ++ row ++ [')'])

/-- The statement that inserts some rows. -/
def statement (query : Str) (upsertColumns : List Str) (rows : List Str) : Str :=
  query ++ [' '] ++ valueList rows ++ upsertQuery upsertColumns

/-- Every row is sent once, and in order: no call fails, and the statements insert the rows, split
into groups. -/
def SendsOnce (query : Str) (upsertColumns : List Str) (rows : List Str) (r : Executed) : Prop :=
  r.success = true ∧ ∃ groups : List (List Str), groups.flatten = rows ∧ (∀ g ∈ groups, g ≠ []) ∧
    r.sent = groups.map (statement query upsertColumns)

/-- Nothing is executed while rows are still added: with every row after the first, the length stays
within the packet limit. -/
def InPacket (query : Str) (rows : List Str) : Prop :=
  ∀ added row, added ≠ [] → added ++ [row] <+: rows →
    toSize (query.length + (added ++ [row]).flatten.length) ≤ maxPacketSize

/-- No row is cut: the value list is short enough, or the last `),(` in reach is between two rows,
and so on for the rows behind it. -/
inductive Splits (limit : ℕ) : List Str → Prop
  | whole {rows : List Str} (h : (valueList rows).length ≤ limit) : Splits limit rows
  | cut {rows rest : List Str} (hrows : rows ≠ []) (hrest : rest ≠ [])
    (hlong : limit < (valueList (rows ++ rest)).length)
    (hreach : (valueList rows).length ≤ limit + 1)
    (hlast : ∀ pos, (valueList rows).length ≤ pos → pos ≤ limit →
      ¬ [')', ',', '('] <+: (valueList (rows ++ rest)).drop pos)
    (h : Splits limit rest) : Splits limit (rows ++ rest)

/-! ## Value lists -/

section ValueLists

variable {rows rows' : List Str}

theorem valueList_append (h : rows ≠ []) (h' : rows' ≠ []) :
    valueList (rows ++ rows') = valueList rows ++ ',' :: valueList rows' := by
  unfold valueList
  rw [List.map_append, intercalate_append [','] (by simpa using h) (by simpa using h')]
  simp

/-- A value list starts with a bracket and ends with one. -/
theorem valueList_eq (h : rows ≠ []) : (∃ s, valueList rows = '(' :: s) ∧ ∃ s, valueList rows = s ++ [')'] := by
  constructor
  · cases rows with
    | nil => exact absurd rfl h
    | cons r rows =>
      rcases eq_or_ne rows [] with rfl | hne
      · exact ⟨r ++ [')'], by simp [valueList]⟩
      · have happ := valueList_append (List.cons_ne_nil r []) hne
        rw [List.singleton_append] at happ
        exact ⟨_, by rw [happ]; simp [valueList]; rfl⟩
  · induction rows using List.reverseRecOn with
    | nil => exact absurd rfl h
    | append_singleton rows r _ =>
      rcases eq_or_ne rows [] with rfl | hne
      · exact ⟨'(' :: r, by simp [valueList]⟩
      · exact ⟨valueList rows ++ ',' :: '(' :: r, by
          rw [valueList_append hne (List.cons_ne_nil r [])]
          simp [valueList]⟩

theorem valueList_eq_nil : valueList rows = [] ↔ rows = [] := by
  constructor
  · intro h
    by_contra hne
    obtain ⟨⟨s, hs⟩, -⟩ := valueList_eq hne
    rw [h] at hs
    exact nomatch hs
  · rintro rfl
    rfl

theorem flatten_ne_nil {groups : List (List Str)} (hne : ∀ g ∈ groups, g ≠ []) (h : groups ≠ []) :
    groups.flatten ≠ [] := by
  obtain ⟨g, hg⟩ := List.exists_mem_of_ne_nil _ h
  exact fun hnil => hne g hg (List.flatten_eq_nil_iff.1 hnil g hg)

/-- The characters of a value list, with one more for each row. -/
theorem length_valueList {groups : List (List Str)} (hne : ∀ g ∈ groups, g ≠ []) (hrows : groups ≠ []) :
    (valueList groups.flatten).length + 1 = (groups.map fun g => (valueList g).length + 1).sum := by
  induction groups with
  | nil => exact absurd rfl hrows
  | cons g groups ih =>
    have hg : g ≠ [] := hne g List.mem_cons_self
    rcases eq_or_ne groups [] with rfl | hgroups
    · simp
    · have hrest := ih (fun g hg => hne g (List.mem_cons_of_mem _ hg)) hgroups
      have hflat := flatten_ne_nil (fun g hg => hne g (List.mem_cons_of_mem _ hg)) hgroups
      rw [List.flatten_cons, valueList_append hg hflat, List.map_cons, List.sum_cons, ← hrest]
      simp only [List.length_append, List.length_cons]
      omega

/-- A statement tells its value list. -/
theorem statement_inj {query b b' : Str} {cols : List Str}
    (h : query ++ [' '] ++ b ++ upsertQuery cols = query ++ [' '] ++ b' ++ upsertQuery cols) : b = b' := by
  simpa using h

end ValueLists

/-! ## Cutting -/

section Batches

variable {answer : ℕ → Bool} {query upsert batch : Str} {limit : ℕ} {sent : List Str}

/-- A batch at the last `),(` in reach. -/
theorem exists_cut {pos : ℕ} (h : rfind batch [')', ',', '('] limit = some pos) :
    ∃ values rest, batch = values ++ ')' :: ',' :: '(' :: rest ∧ values.length = pos := by
  obtain ⟨-, ⟨rest, hrest⟩, -⟩ := rfind_eq_some_iff.1 h
  refine ⟨batch.take pos, rest, ?_, ?_⟩
  · calc batch = batch.take pos ++ batch.drop pos := (List.take_append_drop pos batch).symm
      _ = batch.take pos ++ ')' :: ',' :: '(' :: rest := by rw [← hrest]; rfl
  · have hlt : pos < batch.length := by
      by_contra hge
      rw [List.drop_eq_nil_of_le (not_lt.1 hge)] at hrest
      exact nomatch hrest
    simp [hlt.le]

@[simp] theorem sendBatches_nil : sendBatches answer query upsert limit [] sent = ⟨true, sent⟩ := by
  rw [sendBatches, dif_pos rfl]

/-- A batch that is not too long is sent whole. -/
theorem sendBatches_whole (hanswer : ∀ n, answer n = true) {values : Str}
    (hbatch : batch = values ++ [')']) (h : batch.length ≤ limit) :
    sendBatches answer query upsert limit batch sent = ⟨true, sent ++ [query ++ [' '] ++ batch ++ upsert]⟩ := by
  have hcut : cutPosition limit batch = some batch.length := if_neg (not_lt.2 h)
  have hlast : batch.getLast? ≠ some ',' := by simp [hbatch]
  have hvalues : batchValues batch batch.length = batch := by
    rw [batchValues, List.take_length]
    exact if_neg hlast
  have hne : batch ≠ [] := by simp [hbatch]
  rw [sendBatches, dif_neg hne]
  split
  · rename_i hnone
    rw [hcut] at hnone
    exact nomatch hnone
  · rename_i cutPos hsome
    obtain rfl : batch.length = cutPos := Option.some.inj (hcut.symm.trans hsome)
    simp [executeQuery, hanswer, hvalues]

/-- Of a longer batch the part before the last `),(` in reach is sent, and the rest follows. -/
theorem sendBatches_cut (hanswer : ∀ n, answer n = true) {values rest : Str}
    (hbatch : batch = values ++ ')' :: ',' :: '(' :: rest) (hlong : limit < batch.length)
    (h : rfind batch [')', ',', '('] limit = some values.length) :
    sendBatches answer query upsert limit batch sent = sendBatches answer query upsert limit ('(' :: rest)
        (sent ++ [query ++ [' '] ++ (values ++ [')']) ++ upsert]) := by
  have hcut : cutPosition limit batch = some (values.length + 2) := by
    rw [cutPosition, if_pos hlong, h]
    rfl
  have htake : batch.take (values.length + 2) = values ++ [')', ','] := by
    rw [hbatch, List.take_length_add_append]
    rfl
  have hdrop : batch.drop (values.length + 2) = '(' :: rest := by
    rw [hbatch, List.drop_length_add_append]
    rfl
  have hvalues : batchValues batch (values.length + 2) = values ++ [')'] := by
    simp [batchValues, htake]
  have hne : batch ≠ [] := by simp [hbatch]
  rw [sendBatches, dif_neg hne]
  split
  · rename_i hnone
    rw [hcut] at hnone
    exact nomatch hnone
  · rename_i cutPos hsome
    obtain rfl : values.length + 2 = cutPos := Option.some.inj (hcut.symm.trans hsome)
    simp [executeQuery, hanswer, hvalues, hdrop]

/-- A longer batch without a `),(` in reach is a failure. -/
theorem sendBatches_none (hlong : limit < batch.length) (h : rfind batch [')', ',', '('] limit = none) :
    sendBatches answer query upsert limit batch sent = ⟨false, sent⟩ := by
  have hcut : cutPosition limit batch = none := by
    rw [cutPosition, if_pos hlong, h]
    rfl
  have hne : batch ≠ [] := by
    rintro rfl
    exact absurd hlong (Nat.not_lt_zero _)
  rw [sendBatches, dif_neg hne]
  split
  · rfl
  · rename_i cutPos hsome
    rw [hcut] at hsome
    exact nomatch hsome

/-- The rest of a batch that ends with a bracket ends with it, too. -/
theorem rest_of_cut {s values rest : Str} (h : s ++ [')'] = values ++ ')' :: ',' :: '(' :: rest) :
    ∃ s, '(' :: rest = s ++ [')'] := by
  rcases List.eq_nil_or_concat' rest with rfl | ⟨rest, c, rfl⟩
  · have hc := congrArg List.getLast? h
    simp at hc
  · have hc : s ++ [')'] = (values ++ ')' :: ',' :: '(' :: rest) ++ [c] := by
      rw [h]
      simp
    exact ⟨'(' :: rest, by rw [(List.append_inj' hc rfl).2]; rfl⟩

/-- **What is sent of a batch that ends with a bracket**: values that joined are the batch, when it
is a success. -/
theorem sendBatches_values (hanswer : ∀ n, answer n = true) (query upsert : Str) (limit : ℕ)
    (sent : List Str) (hbatch : ∃ s, batch = s ++ [')']) :
    ∃ bs : List Str, (sendBatches answer query upsert limit batch sent).sent =
        sent ++ bs.map (fun b => query ++ [' '] ++ b ++ upsert) ∧
      ((sendBatches answer query upsert limit batch sent).success = true →
        bs ≠ [] ∧ [','].intercalate bs = batch) := by
  obtain ⟨n, hn⟩ : ∃ n, batch.length ≤ n := ⟨_, le_rfl⟩
  induction n generalizing batch sent with
  | zero =>
    obtain ⟨s, rfl⟩ := hbatch
    simp at hn
  | succ n ih =>
    obtain ⟨s, hs⟩ := hbatch
    rcases Nat.lt_or_ge limit batch.length with hlong | hshort
    swap
    · rw [sendBatches_whole hanswer hs hshort]
      exact ⟨[batch], by simp, by simp⟩
    cases hpos : rfind batch [')', ',', '('] limit with
    | none =>
      rw [sendBatches_none hlong hpos]
      exact ⟨[], by simp, by simp⟩
    | some pos =>
      obtain ⟨values, rest, hbatch, rfl⟩ := exists_cut hpos
      rw [sendBatches_cut hanswer hbatch hlong hpos]
      have hrest : ∃ s, '(' :: rest = s ++ [')'] := rest_of_cut (hs.symm.trans hbatch)
      obtain ⟨bs, hsent, hjoin⟩ := ih _ hrest (by
        rw [hbatch] at hn
        simp only [List.length_append, List.length_cons] at hn ⊢
        omega)
      refine ⟨(values ++ [')']) :: bs, by rw [hsent]; simp, fun hsuccess => ⟨by simp, ?_⟩⟩
      obtain ⟨hne, hjoin⟩ := hjoin hsuccess
      rw [List.intercalate_cons_of_ne_nil hne, hjoin, hbatch]
      simp

/-- **Rows that are split are sent in groups.** -/
theorem Splits.sendBatches (hanswer : ∀ n, answer n = true) {rows : List Str} (h : Splits limit rows) :
    ∃ groups : List (List Str), groups.flatten = rows ∧ (∀ g ∈ groups, g ≠ []) ∧
      Database.sendBatches answer query upsert limit (valueList rows) sent =
        ⟨true, sent ++ groups.map fun g => query ++ [' '] ++ valueList g ++ upsert⟩ := by
  induction h generalizing sent with
  | @whole rows hshort =>
    rcases eq_or_ne rows [] with rfl | hne
    · refine ⟨[], rfl, nofun, ?_⟩
      rw [valueList_eq_nil.2 rfl, sendBatches_nil]
      simp
    · obtain ⟨s, hs⟩ := (valueList_eq hne).2
      exact ⟨[rows], by simp, by simpa using hne, by simpa using sendBatches_whole hanswer hs hshort⟩
  | @cut rows rest hrows hrest hlong hreach hlast _ ih =>
    obtain ⟨v, hv⟩ := (valueList_eq hrows).2
    obtain ⟨t, ht⟩ := (valueList_eq hrest).1
    have hbatch : valueList (rows ++ rest) = v ++ ')' :: ',' :: '(' :: t := by
      rw [valueList_append hrows hrest, hv, ht]
      simp
    rw [hv, List.length_append, List.length_singleton] at hreach hlast
    have hpos : rfind (valueList (rows ++ rest)) [')', ',', '('] limit = some v.length := by
      refine rfind_eq_some_iff.2 ⟨by omega, ⟨t, ?_⟩, fun j hj => hlast j (by omega)⟩
      rw [hbatch, List.drop_left]
      rfl
    obtain ⟨groups, hflat, hne, hsend⟩ :=
      @ih (sent ++ [query ++ [' '] ++ valueList rows ++ upsert])
    refine ⟨rows :: groups, by rw [List.flatten_cons, hflat], ?_, ?_⟩
    · rintro g (_ | ⟨_, hg⟩)
      · exact hrows
      · exact hne g hg
    · rw [sendBatches_cut hanswer hbatch hlong hpos, ← ht, ← hv, hsend]
      simp

/-- **Rows that are sent in groups are split.** -/
theorem splits_of_sendBatches (hanswer : ∀ n, answer n = true) {groups : List (List Str)}
    (hne : ∀ g ∈ groups, g ≠ [])
    (hsuccess : (sendBatches answer query upsert limit (valueList groups.flatten) sent).success = true)
    (hsent : (sendBatches answer query upsert limit (valueList groups.flatten) sent).sent =
      sent ++ groups.map fun g => query ++ [' '] ++ valueList g ++ upsert) : Splits limit groups.flatten := by
  induction groups generalizing sent with
  | nil => exact .whole (Nat.zero_le _)
  | cons g groups ih =>
    have hg : g ≠ [] := hne g List.mem_cons_self
    rw [List.flatten_cons] at hsuccess hsent ⊢
    rcases Nat.lt_or_ge limit (valueList (g ++ groups.flatten)).length with hlong | hshort
    swap
    · exact .whole hshort
    cases hpos : rfind (valueList (g ++ groups.flatten)) [')', ',', '('] limit with
    | none =>
      rw [sendBatches_none hlong hpos] at hsuccess
      exact nomatch hsuccess
    | some pos =>
      obtain ⟨values, rest, hbatch, rfl⟩ := exists_cut hpos
      rw [sendBatches_cut hanswer hbatch hlong hpos] at hsuccess hsent
      have hend : ∃ s, '(' :: rest = s ++ [')'] := by
        have hrows : g ++ groups.flatten ≠ [] := by simp [hg]
        obtain ⟨s, hs⟩ := (valueList_eq hrows).2
        exact rest_of_cut (hs.symm.trans hbatch)
      obtain ⟨bs, hbs, hjoin⟩ := sendBatches_values hanswer query upsert limit _ hend
      obtain ⟨hbs_ne, -⟩ := hjoin hsuccess
      have hfirst := hsent
      rw [hbs] at hfirst
      simp only [List.map_cons, List.append_assoc, List.singleton_append, List.append_cancel_left_eq,
        List.cons.injEq, List.append_cancel_right_eq] at hfirst
      obtain ⟨⟨-, hvalues⟩, hrest⟩ := hfirst
      -- the first statement has the values of the first group, so the rest has those of the others
      have hne' : ∀ g ∈ groups, g ≠ [] := fun g hg => hne g (List.mem_cons_of_mem _ hg)
      have hflat : groups.flatten ≠ [] := by
        refine flatten_ne_nil hne' fun hnil => hbs_ne ?_
        rw [hnil] at hrest
        exact List.map_eq_nil_iff.1 hrest
      have hothers : valueList groups.flatten = '(' :: rest := by
        rw [valueList_append hg hflat, ← hvalues] at hbatch
        simpa using hbatch
      obtain ⟨hreach, -, hlast⟩ := rfind_eq_some_iff.1 hpos
      have hsplits : Splits limit groups.flatten := by
        refine @ih (sent ++ [query ++ [' '] ++ (values ++ [')']) ++ upsert]) hne' ?_ ?_
        · rwa [hothers]
        · rw [hothers, hsent, hvalues]
          simp
      refine .cut hg hflat hlong ?_ (fun pos hpos hlimit => hlast pos ?_ hlimit) hsplits
      · rw [← hvalues, List.length_append, List.length_singleton]
        omega
      · rw [← hvalues, List.length_append, List.length_singleton] at hpos
        omega

end Batches

/-! ## Adding rows -/

section Rows

variable {answer : ℕ → Bool} {maxPacketSize : ℕ} {query : Str} {cols : List Str} {rows : List Str}

/-- One row more is within the packet limit when the rows before it are, and there are none or it
is, too. -/
theorem inPacket_concat {row : Str} :
    InPacket maxPacketSize query (rows ++ [row]) ↔ InPacket maxPacketSize query rows ∧
      (rows ≠ [] → toSize (query.length + (rows ++ [row]).flatten.length) ≤ maxPacketSize) := by
  constructor
  · exact fun h => ⟨fun added r hne hpre => h added r hne (hpre.trans (List.prefix_append _ _)),
      fun hne => h rows row hne (List.prefix_refl _)⟩
  · rintro ⟨h, hrow⟩ added r hne hpre
    rcases List.prefix_concat_iff.1 hpre with heq | hpre
    · obtain ⟨rfl, heq'⟩ := List.append_inj' heq rfl
      obtain rfl := List.singleton_inj.1 heq'
      exact hrow hne
    · exact h added r hne hpre

theorem toSize_add (a b : ℤ) : toSize (toSize a + b) = toSize (a + b) := by
  unfold toSize
  omega

theorem addRows_concat (row : Str) : addRows answer maxPacketSize query cols (rows ++ [row]) =
    (addRows answer maxPacketSize query cols rows).addRow answer maxPacketSize row := by
  simp [addRows]

/-- Within the packet limit a row goes into the buffer. -/
theorem addRow_of_le {s : Insertion} {row : Str} {n : ℕ}
    (hn : toSize (s.insert.length + row.length) = n) (h : n ≤ maxPacketSize) :
    s.addRow answer maxPacketSize row = ⟨{ s.insert with length := n }.append row, s.executed⟩ := by
  unfold Insertion.addRow DBInsert.addRow
  dsimp only
  rw [hn, if_neg (not_lt.2 h), if_pos rfl, Bool.and_true]

/-- Beyond the packet limit the buffer is executed before. -/
theorem addRow_of_lt {s : Insertion} {row : Str} {n : ℕ}
    (hn : toSize (s.insert.length + row.length) = n) (h : maxPacketSize < n) :
    let r := s.insert.execute answer s.executed.sent
    s.addRow answer maxPacketSize row =
      ⟨if r.success then { s.insert with length := n }.append row
        else { s.insert with length := n }, ⟨s.executed.success && r.success, r.sent⟩⟩ := by
  unfold Insertion.addRow DBInsert.addRow
  dsimp only
  rw [hn, if_pos h]
  rfl

/-- A `DBInsert` keeps its query and its columns, and counts all rows. -/
theorem fields_addRows (answer : ℕ → Bool) (maxPacketSize : ℕ) (query : Str) (cols rows : List Str) :
    let d := (addRows answer maxPacketSize query cols rows).insert
    d.query = query ∧ d.upsertColumns = cols ∧
      ∀ row : Str, toSize (d.length + row.length) =
        toSize (query.length + (rows ++ [row]).flatten.length) := by
  induction rows using List.reverseRecOn with
  | nil => exact ⟨rfl, rfl, fun row => by simp [addRows, DBInsert.new]⟩
  | append_singleton rows row ih =>
    obtain ⟨hquery, hcols, hlength⟩ := ih
    have hcount : ∀ row' : Str,
        toSize (toSize (query.length + (rows ++ [row]).flatten.length) + row'.length) =
          toSize (query.length + (rows ++ [row] ++ [row']).flatten.length) := by
      intro row'
      have happend : (rows ++ [row] ++ [row']).flatten = (rows ++ [row]).flatten ++ row' := by
        rw [List.flatten_append, List.flatten_singleton]
      rw [toSize_add, happend, List.length_append, Nat.cast_add, add_assoc]
    rw [addRows_concat]
    rcases Nat.lt_or_ge maxPacketSize (toSize (query.length + (rows ++ [row]).flatten.length)) with
      hlt | hle
    · rw [addRow_of_lt (hlength row) hlt]
      dsimp only
      split_ifs <;> exact ⟨hquery, hcols, hcount⟩
    · rw [addRow_of_le (hlength row) hle]
      exact ⟨hquery, hcols, hcount⟩

/-- The buffer with a row more. -/
theorem values_append {d : DBInsert} (h : d.values = valueList rows) (row : Str) :
    (d.append row).values = valueList (rows ++ [row]) := by
  have hone : valueList [row] = ['('] ++ row ++ [')'] := by simp [valueList]
  unfold DBInsert.append
  dsimp only
  rcases eq_or_ne rows [] with rfl | hne
  · have hnil : d.values = [] := h
    rw [hnil, if_pos rfl, List.nil_append, hone]
  · have hnil : d.values ≠ [] := by
      rw [h]
      exact valueList_eq_nil.not.2 hne
    rw [if_neg hnil, valueList_append hne (List.cons_ne_nil row []), h, hone]
    simp

/-- What is sent of the rows in a buffer. -/
theorem execute_eq (answer : ℕ → Bool) (s : Insertion) (hquery : s.insert.query = query)
    (hcols : s.insert.upsertColumns = cols) (hvalues : s.insert.values = valueList rows) :
    s.insert.execute answer s.executed.sent =
      sendBatches answer query (upsertQuery cols) (cutLimit query cols) (valueList rows) s.executed.sent := by
  rw [DBInsert.execute, hquery, hcols, hvalues]

/-- What holds of a `DBInsert` to which rows have been added: they are all in its buffer, and the
values `bs` have been sent, which are none as long as the rows are within the packet limit. -/
structure Holding (maxPacketSize : ℕ) (query : Str) (cols rows bs : List Str) (s : Insertion) :
    Prop where
  values : s.insert.values = valueList rows
  sent : s.executed.sent = bs.map fun b => query ++ [' '] ++ b ++ upsertQuery cols
  eq_nil_iff : bs = [] ↔ InPacket maxPacketSize query rows

/-- **The rows that have been added** without a failure are in the buffer. -/
theorem holding_addRows (hanswer : ∀ n, answer n = true)
    (hsuccess : (addRows answer maxPacketSize query cols rows).executed.success = true) :
    ∃ bs, Holding maxPacketSize query cols rows bs (addRows answer maxPacketSize query cols rows) := by
  induction rows using List.reverseRecOn with
  | nil => exact ⟨[], rfl, rfl, iff_of_true rfl fun added row _ hpre => by simp at hpre⟩
  | append_singleton rows row ih =>
    obtain ⟨hquery, hcols, hlength⟩ := fields_addRows answer maxPacketSize query cols rows
    rw [addRows_concat] at hsuccess ⊢
    rcases Nat.lt_or_ge maxPacketSize (toSize (query.length + (rows ++ [row]).flatten.length)) with
      hlt | hle
    · rw [addRow_of_lt (hlength row) hlt] at hsuccess ⊢
      obtain ⟨hbefore, hexecuted⟩ := Bool.and_eq_true_iff.1 hsuccess
      obtain ⟨bs, hbs⟩ := ih hbefore
      rw [if_pos hexecuted]
      rw [execute_eq answer _ hquery hcols hbs.values] at hexecuted ⊢
      rcases eq_or_ne rows [] with rfl | hne
      · rw [valueList_eq_nil.2 rfl, sendBatches_nil]
        exact ⟨bs, values_append hbs.values row, hbs.sent,
          hbs.eq_nil_iff.trans ⟨fun h => inPacket_concat.2 ⟨h, fun h => absurd rfl h⟩,
            fun h => (inPacket_concat.1 h).1⟩⟩
      · -- what was in the buffer has been sent, and stays in it
        obtain ⟨bs', hsent, hjoin⟩ := sendBatches_values hanswer query (upsertQuery cols)
          (cutLimit query cols) (addRows answer maxPacketSize query cols rows).executed.sent
          (valueList_eq hne).2
        refine ⟨bs ++ bs', values_append hbs.values row, ?_, iff_of_false ?_ fun h => ?_⟩
        · rw [hsent, hbs.sent, List.map_append]
        · simp [(hjoin hexecuted).1]
        · exact absurd ((inPacket_concat.1 h).2 hne) (not_le.2 hlt)
    · rw [addRow_of_le (hlength row) hle] at hsuccess ⊢
      obtain ⟨bs, hbs⟩ := ih hsuccess
      exact ⟨bs, values_append hbs.values row, hbs.sent,
        hbs.eq_nil_iff.trans ⟨fun h => inPacket_concat.2 ⟨h, fun _ => hle⟩,
          fun h => (inPacket_concat.1 h).1⟩⟩

/-- **Rows within the packet limit are added without a failure.** -/
theorem addRows_of_inPacket (answer : ℕ → Bool) (cols : List Str) (h : InPacket maxPacketSize query rows) :
    (addRows answer maxPacketSize query cols rows).executed = ⟨true, []⟩ ∧
      (addRows answer maxPacketSize query cols rows).insert.values = valueList rows := by
  induction rows using List.reverseRecOn with
  | nil => exact ⟨rfl, rfl⟩
  | append_singleton rows row ih =>
    obtain ⟨hquery, hcols, hlength⟩ := fields_addRows answer maxPacketSize query cols rows
    obtain ⟨hbefore, hrow⟩ := inPacket_concat.1 h
    obtain ⟨hexecuted, hvalues⟩ := ih hbefore
    rw [addRows_concat]
    rcases Nat.lt_or_ge maxPacketSize (toSize (query.length + (rows ++ [row]).flatten.length)) with
      hlt | hle
    · obtain rfl : rows = [] := by
        by_contra hne
        exact absurd (hrow hne) (not_le.2 hlt)
      rw [addRow_of_lt (hlength row) hlt, execute_eq answer _ hquery hcols hvalues, valueList_eq_nil.2 rfl,
        sendBatches_nil, hexecuted]
      exact ⟨rfl, values_append hvalues row⟩
    · rw [addRow_of_le (hlength row) hle]
      exact ⟨hexecuted, values_append hvalues row⟩

/-- **Rows that are sent once are within the packet limit.** -/
theorem inPacket_of_sendsOnce (hanswer : ∀ n, answer n = true)
    (h : SendsOnce query cols rows (send answer maxPacketSize query cols rows)) :
    InPacket maxPacketSize query rows := by
  obtain ⟨hsuccess, groups, rfl, hne, hsent⟩ := h
  obtain ⟨hadded, hexecuted⟩ := Bool.and_eq_true_iff.1 hsuccess
  obtain ⟨bs, hbs⟩ := holding_addRows hanswer hadded
  obtain ⟨hquery, hcols, -⟩ := fields_addRows answer maxPacketSize query cols groups.flatten
  rw [← hbs.eq_nil_iff]
  rcases eq_or_ne groups [] with rfl | hgroups
  · exact hbs.eq_nil_iff.2 fun added row _ hpre => by simp at hpre
  have hsent' : ((addRows answer maxPacketSize query cols groups.flatten).insert.execute answer
      (addRows answer maxPacketSize query cols groups.flatten).executed.sent).sent =
        groups.map (statement query cols) := hsent
  rw [execute_eq answer _ hquery hcols hbs.values] at hexecuted hsent'
  obtain ⟨bs', hbatches, hjoin⟩ := sendBatches_values hanswer query (upsertQuery cols)
    (cutLimit query cols) (addRows answer maxPacketSize query cols groups.flatten).executed.sent
    (valueList_eq (flatten_ne_nil hne hgroups)).2
  obtain ⟨hbs_ne, hjoin⟩ := hjoin hexecuted
  rw [hbatches, hbs.sent, ← List.map_append] at hsent'
  have hinj : Function.Injective fun b => query ++ [' '] ++ b ++ upsertQuery cols :=
    fun _ _ h => statement_inj h
  have hvalues : bs ++ bs' = groups.map valueList := by
    apply List.map_injective_iff.2 hinj
    rw [hsent', List.map_map]
    rfl
  -- the last execution alone sends as many characters as the groups have
  have hgroups := length_valueList hne hgroups
  have hlast := length_intercalate ',' hbs_ne
  have hall := congrArg (fun l => (l.map fun b : Str => b.length + 1).sum) hvalues
  simp only [List.map_append, List.sum_append, List.map_map, Function.comp_def] at hall
  rw [hjoin] at hlast
  cases bs with
  | nil => rfl
  | cons b bs =>
    simp only [List.map_cons, List.sum_cons] at hall
    have htotal := (hall.trans hgroups.symm).trans hlast
    change _ = (bs'.map fun b : Str => b.length + 1).sum at htotal
    omega

end Rows

/-! ## The batches of a run -/

section Send

variable {answer : ℕ → Bool} {query : Str} {cols rows : List Str}

/-- **Rows are sent once exactly when** nothing is executed too early and no row is cut, as long as
the server answers every statement. -/
theorem sendsOnce_iff (hanswer : ∀ n, answer n = true) (maxPacketSize : ℕ) (query : Str)
    (cols rows : List Str) :
    SendsOnce query cols rows (send answer maxPacketSize query cols rows) ↔
      InPacket maxPacketSize query rows ∧ Splits (cutLimit query cols) rows := by
  have hsend : InPacket maxPacketSize query rows →
      send answer maxPacketSize query cols rows = sendBatches answer query (upsertQuery cols)
        (cutLimit query cols) (valueList rows) [] := by
    intro h
    obtain ⟨hquery, hcols, -⟩ := fields_addRows answer maxPacketSize query cols rows
    obtain ⟨hexecuted, hvalues⟩ := addRows_of_inPacket answer cols h
    have heq := execute_eq answer _ hquery hcols hvalues
    rw [hexecuted] at heq
    rw [send, hexecuted]
    dsimp only
    rw [heq, Bool.true_and]
  constructor
  · intro h
    have hpacket := inPacket_of_sendsOnce hanswer h
    rw [hsend hpacket] at h
    obtain ⟨hsuccess, groups, rfl, hne, hsent⟩ := h
    refine ⟨hpacket, splits_of_sendBatches hanswer hne hsuccess ?_⟩
    rw [hsent]
    rfl
  · rintro ⟨hpacket, hsplits⟩
    rw [hsend hpacket]
    obtain ⟨groups, hflat, hne, hsend⟩ := hsplits.sendBatches hanswer
    exact ⟨by rw [hsend], groups, hflat, hne, by rw [hsend]; rfl⟩

end Send

/-! ## Two rows -/

/-- The query with which the key-value store writes its entries. -/
def kvQuery : Str := "INSERT INTO `kv_store` (`key_name`, `timestamp`, `value`) VALUES".toList

def kvColumns : List Str := ["key_name".toList, "timestamp".toList, "value".toList]

/-- An entry with a value of `n` characters. -/
def kvEntry (key : Char) (n : ℕ) : Str :=
  "'".toList ++ [key] ++ "', 1721000000, '".toList ++ List.replicate n 'x' ++ "'".toList

/-- Two entries that are small enough are sent once. -/
theorem sendsOnce_twoRows : SendsOnce kvQuery kvColumns [kvEntry 'a' 10, kvEntry 'b' 10]
    (send (fun _ => true) 1024 kvQuery kvColumns [kvEntry 'a' 10, kvEntry 'b' 10]) := by
  refine (sendsOnce_iff (fun _ => rfl) 1024 kvQuery kvColumns _).2 ⟨?_, .whole (by decide +kernel)⟩
  have hone : InPacket 1024 kvQuery ([] ++ [kvEntry 'a' 10]) :=
    inPacket_concat.2 ⟨fun added row _ hpre => by simp at hpre, fun h => absurd rfl h⟩
  exact inPacket_concat.2 ⟨hone, fun _ => by decide +kernel⟩

/-- **A row is sent twice** when the second of two entries passes the packet limit: the first has
been executed, and stays in the buffer. -/
theorem not_sendsOnce_twoRows : ¬ SendsOnce kvQuery kvColumns [kvEntry 'a' 600, kvEntry 'b' 600]
    (send (fun _ => true) 1024 kvQuery kvColumns [kvEntry 'a' 600, kvEntry 'b' 600]) := by
  intro h
  have hpacket : InPacket 1024 kvQuery ([kvEntry 'a' 600] ++ [kvEntry 'b' 600]) :=
    inPacket_of_sendsOnce (fun _ => rfl) h
  have hlimit := (inPacket_concat.1 hpacket).2 (List.cons_ne_nil _ _)
  exact absurd hlimit (by decide +kernel)

end TiabloServer.Database
