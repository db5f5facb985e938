import Mathlib

/-!
# Transactions

The class `DBTransaction` (`database/database.hpp`) over the three functions of `Database` that it
uses (`database/database.cpp`). A body is any sequence of statements, each of which may depend on
the results of those before it; it ends by returning or by throwing. It is committed when it
returns, whatever it returns, and rolled back when it throws; what `begin` and `commit` answer is
not looked at.

## Main definitions

* `Database.Atomic` — all statements are committed, or the content is as it was before.
* `Database.KeepsAtomic` — when this is so.

## Main results

* `Database.Body.execute_eq` — a body does the same in a transaction and without one.
* `Database.atomic_iff` — a transaction is atomic exactly when it keeps so.
* `Database.not_atomic_halfSave` — a save that fails in the middle is committed.
-/

namespace TiabloServer.Database

/-! ## The server -/

/-- The server, as one connection sees it: the committed content, and what the open transaction
sees, if there is one. `locks` is how many times the connection holds `databaseLock`. -/
structure Server (S : Type) where
  content : S
  transaction : Option S
  locks : ℤ

/-- How a call to the server ends: it is done, it is refused, or it throws before anything is
done. -/
inductive Answer where
  | done
  | refused
  | raised
deriving DecidableEq

section Server

variable {S R : Type}

/-- The content that statements see. -/
def Server.view (s : Server S) : S := s.transaction.getD s.content

/-- A statement. Without an open transaction it is committed at once. -/
def Server.execute (s : Server S) (statement : S → S × R) : Server S × R :=
  let r := statement s.view
  match s.transaction with
  | some _ => ({ s with transaction := some r.1 }, r.2)
  | none => ({ s with content := r.1 }, r.2)

/-- `Database::beginTransaction`. A transaction that is still open is committed by the server. -/
def Server.beginTransaction (s : Server S) : Answer → Server S × Answer
  | .done => ({ content := s.view, transaction := some s.view, locks := s.locks + 1 }, .done)
  | a => (s, a)

/-- `Database::rollback`. -/
def Server.rollback (s : Server S) : Answer → Server S × Answer
  | .done => ({ s with transaction := none, locks := s.locks - 1 }, .done)
  | .refused => ({ s with locks := s.locks - 1 }, .refused)
  | .raised => (s, .raised)

/-- `Database::commit`. -/
def Server.commit (s : Server S) : Answer → Server S × Answer
  | .done => ({ content := s.view, transaction := none, locks := s.locks - 1 }, .done)
  | .refused => ({ s with locks := s.locks - 1 }, .refused)
  | .raised => (s, .raised)

end Server

/-! ## Bodies -/

/-- How a body ends: it returns, or it throws, a `std::exception` or something else. -/
inductive Outcome where
  | returned (result : Bool)
  | thrown (isException : Bool)
deriving DecidableEq

/-- The body of a transaction: it ends, or issues a statement and goes on with its result. A
statement changes the content and has a result, which may be that it failed; none begins or ends a
transaction. -/
inductive Body (S R : Type) where
  | finish (outcome : Outcome)
  | statement (statement : S → S × R) (next : R → Body S R)

section Body

variable {S R : Type}

/-- What the statements of a body make of some content, and how the body ends. -/
def Body.run : Body S R → S → S × Outcome
  | .finish outcome, c => (c, outcome)
  | .statement f next, c => (next (f c).2).run (f c).1

/-- A body on a server. -/
def Body.execute : Body S R → Server S → Server S × Outcome
  | .finish outcome, s => (s, outcome)
  | .statement f next, s => (next (s.execute f).2).execute (s.execute f).1

/-- The server with other content for the connection: in the open transaction, or committed. -/
def Server.put (s : Server S) (c : S) : Server S :=
  match s.transaction with
  | some _ => { s with transaction := some c }
  | none => { s with content := c }

@[simp] theorem Server.view_put (s : Server S) (c : S) : (s.put c).view = c := by
  unfold Server.put Server.view
  cases h : s.transaction <;> simp

@[simp] theorem Server.put_put (s : Server S) (c d : S) : (s.put c).put d = s.put d := by
  unfold Server.put
  cases h : s.transaction <;> simp

theorem Server.put_view (s : Server S) : s.put s.view = s := by
  obtain ⟨content, transaction, locks⟩ := s
  cases transaction <;> rfl

theorem Server.execute_eq (s : Server S) (f : S → S × R) : s.execute f = (s.put (f s.view).1, (f s.view).2) := by
  unfold Server.execute Server.put
  cases h : s.transaction <;> rfl

/-- **A body does the same in a transaction and without one**: its statements see what those before
them have done. -/
theorem Body.execute_eq (body : Body S R) (s : Server S) :
    body.execute s = (s.put (body.run s.view).1, (body.run s.view).2) := by
  induction body generalizing s with
  | finish outcome => simp [Body.execute, Body.run, Server.put_view]
  | statement f next ih => simp [Body.execute, Body.run, Server.execute_eq, ih]

end Body

/-! ## Transactions -/

/-- `TransactionStates_t`. -/
inductive TransactionState where
  | STATE_NO_START
  | STATE_START
  | STATE_COMMIT
deriving DecidableEq

open TransactionState

/-- A `DBTransaction`, with the server that it runs on. -/
structure DBTransaction (S : Type) where
  state : TransactionState
  server : Server S

namespace DBTransaction

variable {S R : Type}

/-- `DBTransaction::begin`. Its result is looked at nowhere. -/
def begin (t : DBTransaction S) (answer : Answer) : DBTransaction S × Bool :=
  if t.state ≠ STATE_NO_START then (t, false)
  else
    let r := t.server.beginTransaction answer
    (⟨if r.2 = .raised then STATE_NO_START else STATE_START, r.1⟩, r.2 = .done)

/-- `DBTransaction::rollback`. -/
def rollback (t : DBTransaction S) (answer : Answer) : DBTransaction S :=
  if t.state ≠ STATE_START then t
  else ⟨STATE_NO_START, (t.server.rollback answer).1⟩

/-- `DBTransaction::commit`. -/
def commit (t : DBTransaction S) (answer : Answer) : DBTransaction S :=
  if t.state ≠ STATE_START then t
  else
    let r := t.server.commit answer
    ⟨if r.2 = .raised then STATE_NO_START else STATE_COMMIT, r.1⟩

/-- A commit, if it is done, commits what the connection sees. -/
theorem content_commit (t : DBTransaction S) (answer : Answer) :
    (t.commit answer).server.content =
      if t.state = STATE_START ∧ answer = .done then t.server.view else t.server.content := by
  unfold commit
  by_cases hstate : t.state = STATE_START
  · rw [if_neg (not_not.2 hstate)]
    cases answer <;> simp [hstate, Server.commit]
  · rw [if_pos hstate, if_neg fun h => hstate h.1]

/-- A rollback commits nothing. -/
theorem content_rollback (t : DBTransaction S) (answer : Answer) :
    (t.rollback answer).server.content = t.server.content := by
  unfold rollback
  split_ifs
  · rfl
  · cases answer <;> rfl

end DBTransaction

/-- How the server answers the calls of a transaction. -/
structure Answers where
  begin : Answer
  commit : Answer
  rollback : Answer

section Transaction

variable {S R : Type}

/-- `DBTransaction::executeWithinTransaction`: the server after it, and what it returns; nothing
when something that is no `std::exception` goes through it. -/
def executeWithinTransaction (answers : Answers) (toBeExecuted : Body S R) (s : Server S) :
    Server S × Option Bool :=
  let transaction := ((DBTransaction.mk STATE_NO_START s).begin answers.begin).1
  let r := toBeExecuted.execute transaction.server
  let transaction := { transaction with server := r.1 }
  match r.2 with
  | .returned result => ((transaction.commit answers.commit).server, some result)
  | .thrown true => ((transaction.rollback answers.rollback).server, some false)
  | .thrown false => (transaction.server, none)

/-- All statements of a body are committed when its transaction returns `true`, and the content is
as it was when it returns `false`. -/
def Atomic (body : Body S R) (content : S) (r : Server S × Option Bool) : Prop :=
  match r.2 with
  | some true => r.1.content = (body.run content).1
  | some false => r.1.content = content
  | none => True

/-- When a transaction is atomic: its statements change nothing in the end, or its body
* returns `true`, and `COMMIT` is done, or the statements were committed as they were issued,
* returns `false`, and `BEGIN` is done, but `COMMIT` is not,
* throws a `std::exception`, and `BEGIN` is done,
* or throws something else. -/
def KeepsAtomic (answers : Answers) (body : Body S R) (content : S) : Prop :=
  (body.run content).1 = content ∨
    match (body.run content).2 with
    | .returned true => answers.begin = .done → answers.commit = .done
    | .returned false => answers.begin = .done ∧ answers.commit ≠ .done
    | .thrown true => answers.begin = .done
    | .thrown false => True

/-- **What a transaction leaves committed**, and what it returns. Without `BEGIN` every statement is
committed as it is issued. -/
theorem executeWithinTransaction_eq (answers : Answers) (body : Body S R) (content : S) (locks : ℤ) :
    (executeWithinTransaction answers body ⟨content, none, locks⟩).1.content =
        (match (body.run content).2 with
        | .returned _ =>
          if answers.begin = .done ∧ answers.commit ≠ .done then content else (body.run content).1
        | .thrown _ => if answers.begin = .done then content else (body.run content).1) ∧
      (executeWithinTransaction answers body ⟨content, none, locks⟩).2 =
        (match (body.run content).2 with
        | .returned result => some result
        | .thrown true => some false
        | .thrown false => none) := by
  -- what the body leaves, after `begin`
  have hbody : ∃ state server,
      ((DBTransaction.mk STATE_NO_START (Server.mk content none locks)).begin answers.begin).1 =
        ⟨state, server⟩ ∧
      body.execute server = (server.put (body.run content).1, (body.run content).2) ∧
      (server.put (body.run content).1).content =
        (if answers.begin = .done then content else (body.run content).1) ∧
      (answers.begin = .done → state = STATE_START) := by
    cases answers.begin with
    | done => exact ⟨_, _, rfl, body.execute_eq _, rfl, fun _ => rfl⟩
    | refused => exact ⟨_, _, rfl, body.execute_eq _, rfl, nofun⟩
    | raised => exact ⟨_, _, rfl, body.execute_eq _, rfl, nofun⟩
  obtain ⟨state, server, hbegin, hbody, hcontent, hstate⟩ := hbody
  unfold executeWithinTransaction
  rw [hbegin]
  dsimp only
  rw [hbody]
  cases (body.run content).2 with
  | returned result =>
    refine ⟨?_, rfl⟩
    dsimp only
    rw [DBTransaction.content_commit, Server.view_put, hcontent]
    by_cases hdone : answers.begin = .done
    · by_cases hcommit : answers.commit = .done
      · simp [hstate hdone, hcommit]
      · simp [hdone, hcommit]
    · simp [hdone]
  | thrown isException =>
    cases isException with
    | true => exact ⟨(DBTransaction.content_rollback _ _).trans hcontent, rfl⟩
    | false => exact ⟨hcontent, rfl⟩

/-- **A transaction is atomic exactly when it keeps so.** -/
theorem atomic_iff (answers : Answers) (body : Body S R) (content : S) (locks : ℤ) :
    Atomic body content (executeWithinTransaction answers body ⟨content, none, locks⟩) ↔
      KeepsAtomic answers body content := by
  obtain ⟨hcontent, hresult⟩ := executeWithinTransaction_eq answers body content locks
  unfold Atomic KeepsAtomic
  rw [hresult]
  cases hrun : (body.run content).2 with
  | returned result =>
    rw [hrun] at hcontent
    dsimp only at hcontent
    cases result with
    | true =>
      dsimp only
      rw [hcontent]
      by_cases hcommit : answers.begin = .done → answers.commit = .done
      · rw [if_neg (by tauto)]
        exact iff_of_true rfl (Or.inr hcommit)
      · rw [if_pos (by tauto)]
        exact ⟨fun h => Or.inl h.symm, fun h => (h.resolve_right hcommit).symm⟩
    | false =>
      dsimp only
      rw [hcontent]
      split_ifs with hcommit
      · exact iff_of_true rfl (Or.inr hcommit)
      · exact ⟨Or.inl, fun h => h.resolve_right hcommit⟩
  | thrown isException =>
    rw [hrun] at hcontent
    dsimp only at hcontent
    cases isException with
    | true =>
      dsimp only
      rw [hcontent]
      split_ifs with hbegin
      · exact iff_of_true rfl (Or.inr hbegin)
      · exact ⟨Or.inl, fun h => h.resolve_right hbegin⟩
    | false => exact iff_of_true trivial (Or.inr trivial)

end Transaction

/-! ## Half a save -/

section HalfSave

/-- A save of two rows, of which the second fails: it writes the first, and returns `false`. -/
def halfSave : Body (List String) Bool :=
  .statement (fun rows => (rows ++ ["a"], true)) fun _ =>
    .statement (fun rows => (rows, false)) fun success => .finish (.returned success)

/-- The server does whatever it is asked to do. -/
def allDone : Answers := ⟨.done, .done, .done⟩

/-- **Half a save is committed**, although it is reported as failed. -/
theorem not_atomic_halfSave :
    ¬ Atomic halfSave [] (executeWithinTransaction allDone halfSave ⟨[], none, 0⟩) := by
  intro h
  have hcontent : ["a"] = [] := h
  exact nomatch hcontent

end HalfSave

end TiabloServer.Database
