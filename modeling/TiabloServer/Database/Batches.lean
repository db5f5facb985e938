import TiabloServer.Database.Insert

/-!
# The batches of an insert

`DBInsert::execute` for every list of rows and every answer of the server: which statements it
builds, and when it fails. It comes to an end, since every cut is behind the start of its batch.

## Main definitions

* `Database.Batches` — the statements are made of complete rows and are not too long, and a failure
  has a reason.
* `Database.CutsWell` — every cut is made between two rows, and not too late.

## Main results

* `Database.batches_iff` — the batches are as they are to be exactly when the rows are cut well.
* `Database.not_batches_twoRows` — a statement is too long.
-/

namespace TiabloServer.Database

open Text

/-! ## What batches are to be -/

/-- A row fits in a statement of its own. -/
def Fits (query : Str) (cols : List Str) (row : Str) : Prop :=
  (statement query cols [row]).length ≤ MAX_QUERY_SIZE

/-- What `execute` is to do with some rows, whatever the server answers: the statements insert rows,
each of them some, in order; none is too long when every row fits; and it fails only when a row does
not fit or a statement fails. -/
def Batches (query : Str) (cols : List Str) (rows : List Str) : Prop :=
  ∀ (answer : ℕ → Bool) (length : ℕ),
    let r := DBInsert.execute answer ⟨cols, query, valueList rows, length⟩ []
    (∃ groups : List (List Str), (∀ g ∈ groups, g ≠ []) ∧ groups.flatten <+: rows ∧
      r.sent = groups.map (statement query cols)) ∧
    ((∀ row ∈ rows, Fits query cols row) → ∀ s ∈ r.sent, s.length ≤ MAX_QUERY_SIZE) ∧
    (r.success = false → (∃ row ∈ rows, ¬ Fits query cols row) ∨ ∃ n < r.sent.length, answer n = false)

/-- Rows are cut well: they go in one statement; or there is no `),(` in reach; or the last one in
reach is between two rows, and so on for the rows behind it. If all rows fit, no statement is too
long. -/
inductive CutsWell (query : Str) (cols : List Str) (fits : Prop) : List Str → Prop
  | whole {rows : List Str} (hshort : (valueList rows).length ≤ cutLimit query cols)
    (hsize : fits → (statement query cols rows).length ≤ MAX_QUERY_SIZE) : CutsWell query cols fits rows
  | stuck {rows : List Str} (hlong : cutLimit query cols < (valueList rows).length)
    (hnone : ∀ pos ≤ cutLimit query cols, ¬ [')', ',', '('] <+: (valueList rows).drop pos) :
    CutsWell query cols fits rows
  | between {rows rest : List Str} (hrows : rows ≠ []) (hrest : rest ≠ [])
    (hlong : cutLimit query cols < (valueList (rows ++ rest)).length)
    (hreach : (valueList rows).length ≤ cutLimit query cols + 1)
    (hlast : ∀ pos, (valueList rows).length ≤ pos → pos ≤ cutLimit query cols →
      ¬ [')', ',', '('] <+: (valueList (rows ++ rest)).drop pos)
    (hsize : fits → (statement query cols rows).length ≤ MAX_QUERY_SIZE)
    (h : CutsWell query cols fits rest) : CutsWell query cols fits (rows ++ rest)

/-! ## Rounds of the loop -/

section Rounds

variable {answer : ℕ → Bool} {query upsert batch : Str} {limit cutPos : ℕ} {sent : List Str}
  {cols : List Str} {rows rest : List Str}

/-- **A round** sends a statement, and goes on with the rest when that is a success. -/
theorem sendBatches_round (hne : batch ≠ []) (h : cutPosition limit batch = some cutPos) :
    sendBatches answer query upsert limit batch sent =
      if answer sent.length = true then
        sendBatches answer query upsert limit (batch.drop cutPos)
          (sent ++ [query ++ [' '] ++ batchValues batch cutPos ++ upsert])
      else ⟨false, sent ++ [query ++ [' '] ++ batchValues batch cutPos ++ upsert]⟩ := by
  rw [sendBatches, dif_neg hne]
  split
  · rename_i hnone
    rw [h] at hnone
    exact nomatch hnone
  · rename_i cutPos' hsome
    obtain rfl : cutPos = cutPos' := Option.some.inj (h.symm.trans hsome)
    cases hanswer : answer sent.length <;> simp [executeQuery, hanswer]

/-- Rows that are short enough are a batch. -/
theorem cut_whole (hrows : rows ≠ []) (hshort : (valueList rows).length ≤ limit) :
    cutPosition limit (valueList rows) = some (valueList rows).length ∧
      batchValues (valueList rows) (valueList rows).length = valueList rows := by
  obtain ⟨v, hv⟩ := (valueList_eq hrows).2
  refine ⟨if_neg (not_lt.2 hshort), ?_⟩
  rw [batchValues, List.take_length]
  exact if_neg (by simp [hv])

/-- A cut between two rows. -/
theorem cut_between (hrows : rows ≠ []) (hrest : rest ≠ [])
    (hlong : limit < (valueList (rows ++ rest)).length) (hreach : (valueList rows).length ≤ limit + 1)
    (hlast : ∀ pos, (valueList rows).length ≤ pos → pos ≤ limit →
      ¬ [')', ',', '('] <+: (valueList (rows ++ rest)).drop pos) :
    cutPosition limit (valueList (rows ++ rest)) = some ((valueList rows).length + 1) ∧
      batchValues (valueList (rows ++ rest)) ((valueList rows).length + 1) = valueList rows ∧
      (valueList (rows ++ rest)).drop ((valueList rows).length + 1) = valueList rest := by
  obtain ⟨v, hv⟩ := (valueList_eq hrows).2
  obtain ⟨t, ht⟩ := (valueList_eq hrest).1
  have hbatch := valueList_append hrows hrest
  have hlength : (valueList rows).length = v.length + 1 := by rw [hv, List.length_append]; rfl
  have hpos : rfind (valueList (rows ++ rest)) [')', ',', '('] limit = some v.length := by
    refine rfind_eq_some_iff.2 ⟨by omega, ⟨t, ?_⟩, fun j hj => hlast j (by omega)⟩
    rw [hbatch, hv, ht, List.append_assoc, List.drop_left]
    rfl
  refine ⟨?_, ?_, ?_⟩
  · rw [cutPosition, if_pos hlong, hpos, hlength]
    rfl
  · have htake : (valueList (rows ++ rest)).take ((valueList rows).length + 1) = valueList rows ++ [','] := by
      rw [hbatch, List.take_length_add_append]
      rfl
    simp [batchValues, htake]
  · rw [hbatch, List.drop_length_add_append]
    rfl

theorem length_statement (query : Str) (cols rows : List Str) : (statement query cols rows).length =
    query.length + 1 + (valueList rows).length + (upsertQuery cols).length := by
  simp only [statement, List.length_append, List.length_singleton]

/-- A row that fits ends before the limit. -/
theorem Fits.length_lt {row : Str} (h : Fits query cols row) : (valueList [row]).length < cutLimit query cols := by
  rw [Fits, length_statement] at h
  unfold cutLimit toSize
  unfold MAX_QUERY_SIZE at *
  omega

/-- **Rows that are cut well** are sent as they are to be, whatever has been sent before. -/
theorem CutsWell.sendBatches (answer : ℕ → Bool) {all : List Str}
    (h : CutsWell query cols (∀ row ∈ all, Fits query cols row) rows) (hrows : rows ≠ [])
    (hall : ∀ row ∈ rows, row ∈ all) (sent : List Str) :
    let r := Database.sendBatches answer query (upsertQuery cols) (cutLimit query cols) (valueList rows) sent
    (∃ groups : List (List Str), (∀ g ∈ groups, g ≠ []) ∧ groups.flatten <+: rows ∧
      r.sent = sent ++ groups.map (statement query cols) ∧
      ((∀ row ∈ all, Fits query cols row) →
        ∀ s ∈ groups.map (statement query cols), s.length ≤ MAX_QUERY_SIZE)) ∧
    (r.success = false → (∃ row ∈ all, ¬ Fits query cols row) ∨ ∃ n < r.sent.length, answer n = false) := by
  induction h generalizing sent with
  | @whole rows hshort hsize =>
    obtain ⟨hcut, hvalues⟩ := cut_whole hrows hshort
    have hne : valueList rows ≠ [] := fun h => hrows (valueList_eq_nil.1 h)
    rw [sendBatches_round hne hcut, hvalues, List.drop_length, sendBatches_nil]
    have hgroups : (∀ g ∈ [rows], g ≠ []) ∧ [rows].flatten <+: rows := ⟨by simpa using hrows, by simp⟩
    refine ⟨⟨[rows], hgroups.1, hgroups.2, ?_, fun hfits => by simpa using hsize hfits⟩, ?_⟩
    · split_ifs <;> rfl
    · cases hanswer : answer sent.length with
      | true => exact nofun
      | false => exact fun _ => Or.inr ⟨sent.length, by simp, hanswer⟩
  | @stuck rows hlong hnone =>
    rw [sendBatches_none hlong (rfind_eq_none_iff.2 hnone)]
    refine ⟨⟨[], by simp, by simp, by simp, by simp⟩, fun _ => Or.inl ?_⟩
    by_contra hfits
    -- the first row fits, and is then the only one or followed by a separator
    obtain ⟨row, rest, rfl⟩ := List.exists_cons_of_ne_nil hrows
    have hfit : Fits query cols row := by
      by_contra hnot
      exact hfits ⟨row, hall row List.mem_cons_self, hnot⟩
    have hlt := hfit.length_lt
    rcases eq_or_ne rest [] with rfl | hrest
    · omega
    · obtain ⟨v, hv⟩ := (valueList_eq (List.cons_ne_nil row [])).2
      obtain ⟨t, ht⟩ := (valueList_eq hrest).1
      have hlength : (valueList [row]).length = v.length + 1 := by rw [hv, List.length_append]; rfl
      refine hnone v.length (by omega) ⟨t, ?_⟩
      have hbatch : valueList (row :: rest) = _ := valueList_append (List.cons_ne_nil row []) hrest
      rw [hbatch, hv, ht, List.append_assoc, List.drop_left]
      rfl
  | @between rows rest hrows' hrest hlong hreach hlast hsize _ ih =>
    obtain ⟨hcut, hvalues, hdrop⟩ := cut_between hrows' hrest hlong hreach hlast
    have hne : valueList (rows ++ rest) ≠ [] := fun h => hrows (valueList_eq_nil.1 h)
    obtain ⟨⟨groups, hgroups, hinit, hsent, hsizes⟩, hrefused⟩ :=
      ih hrest (fun row hrow => hall row (List.mem_append_right _ hrow)) (sent ++ [statement query cols rows])
    rw [sendBatches_round hne hcut, hvalues, hdrop]
    cases hanswer : answer sent.length with
    | true =>
      refine ⟨⟨rows :: groups, List.forall_mem_cons.2 ⟨hrows', hgroups⟩, ?_, ?_,
        fun hfits => List.forall_mem_cons.2 ⟨hsize hfits, hsizes hfits⟩⟩, hrefused⟩
      · rw [List.flatten_cons]
        exact (List.prefix_append_right_inj rows).2 hinit
      · refine hsent.trans ?_
        rw [List.append_assoc]
        rfl
    | false =>
      refine ⟨⟨[rows], by simpa using hrows', by simp, rfl, fun hfits => by simpa using hsize hfits⟩,
        fun _ => Or.inr ⟨sent.length, by simp, hanswer⟩⟩

/-- What has been sent stays in front. -/
theorem sent_grows (answer : ℕ → Bool) (query upsert : Str) (limit : ℕ) (batch : Str) (sent : List Str) :
    sent <+: (sendBatches answer query upsert limit batch sent).sent := by
  induction hn : batch.length using Nat.strong_induction_on generalizing batch sent with
  | _ n ih =>
    subst hn
    rcases eq_or_ne batch [] with rfl | hne
    · rw [sendBatches_nil]
    cases hcut : cutPosition limit batch with
    | none =>
      have hlong : limit < batch.length := by
        by_contra hshort
        simp [cutPosition, hshort] at hcut
      have hnone : rfind batch [')', ',', '('] limit = none := by
        simpa [cutPosition, hlong] using hcut
      rw [sendBatches_none hlong hnone]
    | some cutPos =>
      rw [sendBatches_round hne hcut]
      split_ifs
      · refine (List.prefix_append _ _).trans (ih _ ?_ _ _ rfl)
        have hpos := cutPosition_pos hne hcut
        have hlength := List.length_pos_iff.2 hne
        rw [List.length_drop]
        omega
      · exact List.prefix_append _ _

/-- **Statements of complete rows** are cut between rows, when the server takes them all. -/
theorem cutsWell_of_sendBatches {fits : Prop} {groups : List (List Str)} {sent : List Str}
    (hinit : groups.flatten <+: rows) (hgroups : ∀ g ∈ groups, g ≠ []) (hrows : rows ≠ [])
    (hsent : (sendBatches (fun _ => true) query (upsertQuery cols) (cutLimit query cols) (valueList rows)
      sent).sent = sent ++ groups.map (statement query cols))
    (hsize : fits → ∀ s ∈ groups.map (statement query cols), s.length ≤ MAX_QUERY_SIZE) :
    CutsWell query cols fits rows := by
  induction groups generalizing rows sent with
  | nil =>
    -- nothing is sent, so there is nowhere to cut
    have hne : valueList rows ≠ [] := fun h => hrows (valueList_eq_nil.1 h)
    cases hcut : cutPosition (cutLimit query cols) (valueList rows) with
    | none =>
      have hlong : cutLimit query cols < (valueList rows).length := by
        by_contra hshort
        simp [cutPosition, hshort] at hcut
      exact .stuck hlong (rfind_eq_none_iff.1 (by simpa [cutPosition, hlong] using hcut))
    | some cutPos =>
      rw [sendBatches_round hne hcut, if_pos rfl] at hsent
      have hlength := (sent_grows (fun _ => true) query (upsertQuery cols) (cutLimit query cols)
        ((valueList rows).drop cutPos) (sent ++ [query ++ [' '] ++ batchValues (valueList rows) cutPos ++
          upsertQuery cols])).length_le
      rw [hsent] at hlength
      simp at hlength
  | cons g groups ih =>
    have hg : g ≠ [] := hgroups g List.mem_cons_self
    obtain ⟨t, rfl⟩ := hinit
    rw [List.flatten_cons, List.append_assoc] at *
    rcases Nat.lt_or_ge (cutLimit query cols) (valueList (g ++ (groups.flatten ++ t))).length with
      hlong | hshort
    · cases hpos : rfind (valueList (g ++ (groups.flatten ++ t))) [')', ',', '('] (cutLimit query cols) with
      | none => exact .stuck hlong (rfind_eq_none_iff.1 hpos)
      | some pos =>
        obtain ⟨values, tail, hbatch, rfl⟩ := exists_cut hpos
        rw [sendBatches_cut (fun _ => rfl) hbatch hlong hpos] at hsent
        -- the first statement has the values of the first group
        have hfirst : values ++ [')'] = valueList g := by
          obtain ⟨more, hmore⟩ := sent_grows (fun _ => true) query (upsertQuery cols) (cutLimit query cols)
            ('(' :: tail) (sent ++ [query ++ [' '] ++ (values ++ [')']) ++ upsertQuery cols])
          have heq := hmore.trans hsent
          rw [List.append_assoc, List.append_cancel_left_eq, List.map_cons, List.singleton_append,
            List.cons.injEq] at heq
          exact statement_inj heq.1
        have hrest : groups.flatten ++ t ≠ [] := by
          intro hnil
          have hlength := congrArg List.length hbatch
          rw [hnil, List.append_nil, ← hfirst] at hlength
          simp at hlength
        have hothers : valueList (groups.flatten ++ t) = '(' :: tail := by
          rw [valueList_append hg hrest, ← hfirst] at hbatch
          simpa using hbatch
        obtain ⟨hreach, -, hlast⟩ := rfind_eq_some_iff.1 hpos
        have hlength : (valueList g).length = values.length + 1 := by
          rw [← hfirst, List.length_append, List.length_singleton]
        refine .between hg hrest hlong (by omega) (fun pos hle hlimit => hlast pos (by omega) hlimit)
          (fun hfits => hsize hfits _ List.mem_cons_self) ?_
        have hsent' : (Database.sendBatches (fun _ => true) query (upsertQuery cols) (cutLimit query cols)
            (valueList (groups.flatten ++ t)) (sent ++ [statement query cols g])).sent =
              sent ++ [statement query cols g] ++ groups.map (statement query cols) := by
          rw [hothers, statement, ← hfirst, hsent, List.append_assoc, hfirst]
          rfl
        exact ih (List.prefix_append _ _) (fun g hg => hgroups g (List.mem_cons_of_mem _ hg)) hrest hsent'
          fun hfits s hs => hsize hfits s (List.mem_cons_of_mem _ hs)
    · refine .whole hshort fun hfits => hsize hfits _ ?_
      obtain ⟨hcut, hvalues⟩ := cut_whole hrows hshort
      have hne := fun h => hrows (valueList_eq_nil.1 h)
      rw [sendBatches_round hne hcut, if_pos rfl, hvalues, List.drop_length, sendBatches_nil] at hsent
      have heq := List.append_cancel_left hsent
      rw [← heq]
      exact List.mem_singleton_self _

end Rounds

/-! ## Exact batches -/

/-- **The batches are as they are to be** exactly when the rows are cut well. -/
theorem batches_iff (query : Str) (cols rows : List Str) :
    Batches query cols rows ↔
      rows = [] ∨ CutsWell query cols (∀ row ∈ rows, Fits query cols row) rows := by
  rcases eq_or_ne rows [] with rfl | hrows
  · refine iff_of_true (fun answer length => ?_) (Or.inl rfl)
    rw [DBInsert.execute, valueList_eq_nil.2 rfl, sendBatches_nil]
    exact ⟨⟨[], by simp, by simp, rfl⟩, by simp, by simp⟩
  rw [or_iff_right hrows]
  constructor
  · intro h
    obtain ⟨⟨groups, hgroups, hinit, hsent⟩, hsize, -⟩ := h (fun _ => true) 0
    rw [hsent] at hsize
    exact cutsWell_of_sendBatches hinit hgroups hrows (show _ = [] ++ _ from hsent) hsize
  · intro h answer length
    obtain ⟨⟨groups, hgroups, hinit, hsent, hsizes⟩, hrefused⟩ :=
      h.sendBatches answer hrows (fun _ hrow => hrow) []
    rw [List.nil_append] at hsent
    refine ⟨⟨groups, hgroups, hinit, hsent⟩, fun hfits => ?_, hrefused⟩
    rw [show (DBInsert.execute answer ⟨cols, query, valueList rows, length⟩ []).sent = _ from hsent]
    exact hsizes hfits

/-! ## Two long rows -/

/-- Two rows that fit, and go in one statement that is a byte too long. -/
theorem not_batches_of_length (n : ℕ) (hn : 2 * n + 6 = MAX_QUERY_SIZE) :
    (∀ row ∈ [List.replicate n 'a', List.replicate n 'a'], Fits ['X'] [] row) ∧
      ¬ Batches ['X'] [] [List.replicate n 'a', List.replicate n 'a'] := by
  generalize hrow : List.replicate n 'a' = row
  have hlength : row.length = n := by rw [← hrow, List.length_replicate]
  have hfits : ∀ r ∈ [row, row], Fits ['X'] [] r := by
    intro r hr
    have hsame : r = row := by simpa using hr
    rw [hsame, Fits, length_statement, ← hn]
    simp [valueList, upsertQuery, hlength]
    omega
  refine ⟨hfits, fun h => ?_⟩
  have hvalues : (valueList [row, row]).length = 2 * n + 5 := by
    have happend : valueList ([row] ++ [row]) = _ := valueList_append (by simp) (by simp)
    rw [show [row, row] = [row] ++ [row] from rfl, happend]
    simp [valueList, hlength]
    omega
  have hlimit : cutLimit ['X'] [] = 2 * n + 5 := by
    unfold cutLimit toSize
    rw [← hn]
    unfold MAX_QUERY_SIZE at hn
    simp [upsertQuery]
    omega
  have hrows : [row, row] ≠ [] := List.cons_ne_nil _ _
  obtain ⟨-, hsize, -⟩ := h (fun _ => true) 0
  obtain ⟨hcut, hbatch⟩ := cut_whole hrows (hvalues.trans hlimit.symm).le
  rw [DBInsert.execute, sendBatches_round (fun h => hrows (valueList_eq_nil.1 h)) hcut, if_pos rfl, hbatch,
    List.drop_length, sendBatches_nil] at hsize
  have hle := hsize hfits _ (List.mem_singleton_self _)
  rw [← hn] at hle
  simp only [List.length_append, hvalues, List.length_singleton, upsertQuery] at hle
  simp at hle
  omega

/-- **A statement is a byte too long**, although both of its rows fit. -/
theorem not_batches_twoRows :
    (∀ row ∈ [List.replicate 4194301 'a', List.replicate 4194301 'a'], Fits ['X'] [] row) ∧
      ¬ Batches ['X'] [] [List.replicate 4194301 'a', List.replicate 4194301 'a'] :=
  not_batches_of_length 4194301 rfl

end TiabloServer.Database
