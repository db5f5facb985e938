import TiabloServer.Lib.Runs

/-!
# Saves of players

`SaveManager` (`game/scheduling/save_manager.cpp`): a request records its time in `m_playerMap` and
enqueues a job. The job saves the player unless the map has another time by then, and a save erases
the entry before it writes. Jobs and saves run on any threads in any order; requests, the checks of
jobs and saves are atomic.

A player object has a GUID, by which the map is keyed and under which it is written. A character is
online with one object at a time.

## Main definitions

* `SaveManager.step` — an atomic step of a thread.
* `SaveManager.Pending` — a job that will write a player.

## Main results

* `SaveManager.step_covered` — a step writes a player or keeps a job for it.
* `SaveManager.run_request_written` — a request is covered by a write that started after it.
-/

namespace TiabloServer.SaveManager

variable {P G T : Type*}

/-- A job of the thread pool that is not finished. -/
structure Job (P T : Type*) where
  player : P
  scheduledAt : T
  /-- The check has passed, and `doSavePlayer` follows. -/
  checked : Bool
  deriving DecidableEq

/-- The state of the save manager. -/
structure State (P G T : Type*) where
  /-- The players that are online, which are loaded. -/
  online : List P
  playerMap : G → Option T
  jobs : List (Job P T)
  /-- The GUIDs of the players that have been written, in the order of the writes. -/
  writes : List G

/-- Nothing is online and nothing has been written. -/
def State.init : State P G T := ⟨[], fun _ => none, [], []⟩

/-- A step of any thread. -/
inductive Action (P T : Type*) where
  | login (player : P)
  | logout (player : P)
  /-- `savePlayer` at a time, with the saves of online players as jobs or at once. -/
  | savePlayer (player : P) (now : T) (async : Bool)
  /-- The check of a job. A player who is not online may still be there to be locked. -/
  | check (i : ℕ) (alive : Bool)
  /-- `doSavePlayer` of a job. -/
  | save (i : ℕ)
  /-- `doSavePlayer` of a player in `saveAll`. -/
  | saveAll (player : P)

section Steps

variable [DecidableEq P] [DecidableEq G] [DecidableEq T] (guid : P → G) (epoch : T)

/-- `doSavePlayer`: the entry is erased, then the player is written. -/
def doSavePlayer (s : State P G T) (player : P) : State P G T :=
  { s with
    playerMap := Function.update s.playerMap (guid player) none
    writes := s.writes ++ [guid player] }

/-- `schedulePlayer`, of a player who is loaded. -/
def schedulePlayer (s : State P G T) (player : P) (now : T) (async : Bool) : State P G T :=
  if !async then doSavePlayer guid s player
  else
    { s with
      playerMap := Function.update s.playerMap (guid player) (some now)
      jobs := s.jobs ++ [⟨player, now, false⟩] }

def savePlayer (s : State P G T) (player : P) (now : T) (async : Bool) : State P G T :=
  if player ∈ s.online then schedulePlayer guid s player now async else doSavePlayer guid s player

/-- The check of the job `i`. The comparison creates the entry of the player if there is none. -/
def checkJob (s : State P G T) (i : ℕ) (job : Job P T) (alive : Bool) : State P G T :=
  if ¬ (job.player ∈ s.online ∨ alive = true) then { s with jobs := s.jobs.eraseIdx i }
  else
    let scheduled := (s.playerMap (guid job.player)).getD epoch
    let playerMap := Function.update s.playerMap (guid job.player) (some scheduled)
    if scheduled ≠ job.scheduledAt then
      { s with playerMap := playerMap, jobs := s.jobs.eraseIdx i }
    else { s with playerMap := playerMap, jobs := s.jobs.set i { job with checked := true } }

/-- A step. A character who is online does not log in with another object. -/
def step (s : State P G T) : Action P T → State P G T
  | .login player =>
    if s.online.all fun other => guid other != guid player then
      { s with online := player :: s.online }
    else s
  | .logout player => { s with online := s.online.filter (· ≠ player) }
  | .savePlayer player now async => savePlayer guid s player now async
  | .check i alive =>
    match s.jobs[i]? with
    | some job => if job.checked then s else checkJob guid epoch s i job alive
    | none => s
  | .save i =>
    match s.jobs[i]? with
    | some job =>
      if job.checked then { doSavePlayer guid s job.player with jobs := s.jobs.eraseIdx i } else s
    | none => s
  | .saveAll player => doSavePlayer guid s player

/-! ## Covered requests -/

/-- A job will write the player: it has been checked, or its check will pass. -/
def Pending (s : State P G T) (player : P) : Prop :=
  ∃ job ∈ s.jobs, guid job.player = guid player ∧
    (job.checked = true ∨
      job.player = player ∧ s.playerMap (guid player) = some job.scheduledAt)

/-- The player has been written since the writes `before`. -/
def WrittenSince (before : List G) (s : State P G T) (player : P) : Prop :=
  ∃ later, s.writes = before ++ later ∧ guid player ∈ later

/-- Players who are online have GUIDs of their own. -/
def OnlineUnique (s : State P G T) : Prop :=
  ∀ p ∈ s.online, ∀ q ∈ s.online, guid p = guid q → p = q

/-- A player who is online since a request has been written after it, or a job will write him. -/
structure Covered (before : List G) (player : P) (s : State P G T) : Prop where
  unique : OnlineUnique guid s
  online : player ∈ s.online
  since : before <+: s.writes
  covered : WrittenSince guid before s player ∨ Pending guid s player

variable {guid epoch} {before : List G} {s : State P G T} {player : P}

omit [DecidableEq P] [DecidableEq G] [DecidableEq T] in
theorem WrittenSince.append (h : WrittenSince guid before s player) (g : G) :
    ∃ later, s.writes ++ [g] = before ++ later ∧ guid player ∈ later := by
  obtain ⟨later, heq, hmem⟩ := h
  exact ⟨later ++ [g], by rw [heq, List.append_assoc], List.mem_append_left _ hmem⟩

omit [DecidableEq P] [DecidableEq T] in
/-- A save of the player's character writes him; other saves leave his entry and his jobs. -/
theorem covered_doSavePlayer (h : Covered guid before player s) (q : P) :
    WrittenSince guid before (doSavePlayer guid s q) player ∨
      guid q ≠ guid player ∧ (doSavePlayer guid s q).playerMap (guid player) = s.playerMap (guid player) := by
  by_cases hq : guid q = guid player
  · obtain ⟨later, hlater⟩ := h.since
    refine Or.inl ⟨later ++ [guid q], ?_, by rw [hq]; simp⟩
    rw [doSavePlayer, ← hlater, List.append_assoc]
  · exact Or.inr ⟨hq, Function.update_of_ne (Ne.symm hq) _ _⟩

theorem mem_eraseIdx {α : Type*} {l : List α} {i : ℕ} {x y : α} (hx : x ∈ l) (hy : l[i]? = some y)
    (hne : x ≠ y) : x ∈ l.eraseIdx i := by
  obtain ⟨j, hj⟩ := List.mem_iff_getElem?.1 hx
  refine List.mem_eraseIdx_iff_getElem?.2 ⟨j, ?_, hj⟩
  rintro rfl
  exact hne (Option.some.inj (hj.symm.trans hy))

theorem mem_set {α : Type*} {l : List α} {i : ℕ} {x y z : α} (hx : x ∈ l) (hy : l[i]? = some y)
    (hne : x ≠ y) : x ∈ l.set i z := by
  obtain ⟨j, hj⟩ := List.mem_iff_getElem?.1 hx
  refine List.mem_iff_getElem?.2 ⟨j, ?_⟩
  rw [List.getElem?_set_ne, hj]
  rintro rfl
  exact hne (Option.some.inj (hj.symm.trans hy))

omit [DecidableEq P] [DecidableEq T] in
theorem covered_save (h : Covered guid before player s) (q : P) :
    Covered guid before player (doSavePlayer guid s q) := by
  refine ⟨h.unique, h.online, h.since.trans (List.prefix_append _ _), ?_⟩
  rcases covered_doSavePlayer h q with hwritten | ⟨-, hmap⟩
  · exact Or.inl hwritten
  · rcases h.covered with hwritten | ⟨job, hjob, hguid, hpending⟩
    · exact Or.inl (hwritten.append _)
    · exact Or.inr ⟨job, hjob, hguid, by rwa [hmap]⟩

/-- The check of a job leaves the player covered. -/
theorem covered_check (h : Covered guid before player s) {i : ℕ} {job : Job P T}
    (hget : s.jobs[i]? = some job) (hchecked : job.checked = false) (alive : Bool) :
    Covered guid before player (checkJob guid epoch s i job alive) := by
  rcases h.covered with hwritten | ⟨job', hjob, hguid, hpending⟩
  · unfold checkJob
    dsimp only
    split_ifs <;> exact ⟨h.unique, h.online, h.since, Or.inl hwritten⟩
  · by_cases heq : job' = job
    · -- the job that covers the request is the one that is checked, and it passes
      subst heq
      obtain ⟨rfl, hmap⟩ : job'.player = player ∧ s.playerMap (guid player) = some job'.scheduledAt := by
        rcases hpending with hpending | hpending
        · rw [hchecked] at hpending
          cases hpending
        · exact hpending
      have hlt : i < s.jobs.length := (List.getElem?_eq_some_iff.1 hget).1
      rw [checkJob, if_neg (not_not.2 (Or.inl h.online)), hmap]
      simp only [Option.getD_some, ne_eq, not_true_eq_false, if_false]
      exact ⟨h.unique, h.online, h.since, Or.inr ⟨_, List.mem_set hlt _, rfl, Or.inl rfl⟩⟩
    · -- another job is checked, which does not change an entry that is there
      have hkeep {scheduled : T} (hs : scheduled = (s.playerMap (guid job.player)).getD epoch)
          (hmap : s.playerMap (guid player) = some job'.scheduledAt) :
          Function.update s.playerMap (guid job.player) (some scheduled) (guid player) =
            some job'.scheduledAt := by
        by_cases hsame : guid job.player = guid player
        · rw [hs, hsame, Function.update_self, hmap, Option.getD_some]
        · rw [Function.update_of_ne (Ne.symm hsame), hmap]
      unfold checkJob
      dsimp only
      split_ifs
      · exact ⟨h.unique, h.online, h.since, Or.inr ⟨job', mem_eraseIdx hjob hget heq, hguid,
          hpending.imp_right fun hp => ⟨hp.1, hkeep rfl hp.2⟩⟩⟩
      · exact ⟨h.unique, h.online, h.since, Or.inr ⟨job', mem_set hjob hget heq, hguid,
          hpending.imp_right fun hp => ⟨hp.1, hkeep rfl hp.2⟩⟩⟩
      · exact ⟨h.unique, h.online, h.since,
          Or.inr ⟨job', mem_eraseIdx hjob hget heq, hguid, hpending⟩⟩

omit [DecidableEq P] [DecidableEq T] in
/-- A request of the player himself covers him. -/
theorem covered_schedulePlayer (hunique : OnlineUnique guid s) (honline : player ∈ s.online)
    (hbefore : before <+: s.writes) (now : T) (async : Bool) :
    Covered guid before player (schedulePlayer guid s player now async) := by
  cases async with
  | false =>
    obtain ⟨later, hlater⟩ := hbefore
    have hwrites : (schedulePlayer guid s player now false).writes =
        before ++ (later ++ [guid player]) := by
      rw [← List.append_assoc, hlater]
      rfl
    exact ⟨hunique, honline, ⟨_, hwrites.symm⟩, Or.inl ⟨_, hwrites, by simp⟩⟩
  | true =>
    refine ⟨hunique, honline, hbefore, Or.inr ⟨⟨player, now, false⟩, ?_, rfl, Or.inr ⟨rfl, ?_⟩⟩⟩
    · exact List.mem_append_right _ (List.mem_singleton_self _)
    · exact Function.update_self _ _ _

/-- A step keeps the players who are online from having one GUID. -/
theorem step_onlineUnique (h : OnlineUnique guid s) (a : Action P T) : OnlineUnique guid (step guid epoch s a) := by
  cases a with
  | login q =>
    rw [step]
    split_ifs with hfree
    · intro p hp q' hq' heq
      rw [List.all_eq_true] at hfree
      rcases List.mem_cons.1 hp with rfl | hpold
      · rcases List.mem_cons.1 hq' with rfl | hold
        · rfl
        · exact absurd heq.symm (bne_iff_ne.1 (hfree q' hold))
      · rcases List.mem_cons.1 hq' with rfl | hold
        · exact absurd heq (bne_iff_ne.1 (hfree p hpold))
        · exact h p hpold q' hold heq
    · exact h
  | logout q =>
    intro p hp q' hq' heq
    exact h p (List.mem_filter.1 hp).1 q' (List.mem_filter.1 hq').1 heq
  | savePlayer q now async =>
    rw [step, savePlayer, schedulePlayer]
    split_ifs <;> exact h
  | check i alive =>
    simp only [step, checkJob]
    split
    · split_ifs <;> exact h
    · exact h
  | save i =>
    simp only [step]
    split
    · split_ifs <;> exact h
    · exact h
  | saveAll q => exact h

/-- A step keeps the player covered as long as he stays online. -/
theorem step_covered (h : Covered guid before player s) (a : Action P T) (ha : a ≠ .logout player) :
    Covered guid before player (step guid epoch s a) := by
  have hunique : OnlineUnique guid (step guid epoch s a) := step_onlineUnique h.unique a
  cases a with
  | login q =>
    rw [step] at hunique ⊢
    split_ifs at hunique ⊢
    · exact ⟨hunique, List.mem_cons_of_mem _ h.online, h.since, h.covered⟩
    · exact h
  | logout q =>
    have hne : player ≠ q := fun heq => ha (by rw [heq])
    exact ⟨hunique, List.mem_filter.2 ⟨h.online, by simpa using hne⟩, h.since, h.covered⟩
  | savePlayer q now async =>
    rw [step, savePlayer]
    split_ifs with hq
    · by_cases hsame : guid q = guid player
      · obtain rfl := h.unique q hq player h.online hsame
        exact covered_schedulePlayer h.unique h.online h.since now async
      · cases async with
        | false => exact covered_save h q
        | true =>
          refine ⟨h.unique, h.online, h.since, h.covered.imp_right ?_⟩
          rintro ⟨job, hjob, hguid, hpending⟩
          refine ⟨job, List.mem_append_left _ hjob, hguid, hpending.imp_right fun hp => ⟨hp.1, ?_⟩⟩
          exact (Function.update_of_ne (Ne.symm hsame) _ _).trans hp.2
    · exact covered_save h q
  | check i alive =>
    simp only [step]
    cases hget : s.jobs[i]? with
    | none => exact h
    | some job =>
      cases hchecked : job.checked with
      | true => simpa [hchecked] using h
      | false => simpa [hchecked] using covered_check h hget hchecked alive
  | save i =>
    simp only [step]
    cases hget : s.jobs[i]? with
    | none => exact h
    | some job =>
      cases hchecked : job.checked with
      | false => simpa [hchecked] using h
      | true =>
        have hsave := covered_save h job.player
        refine ⟨?_, ?_, ?_, ?_⟩
        all_goals simp only [hchecked, if_true]
        · exact h.unique
        · exact h.online
        · exact hsave.since
        -- the job that covers the player either writes him now or is still there
        rcases covered_doSavePlayer h job.player with hwritten | ⟨hne, hmap⟩
        · exact Or.inl hwritten
        · rcases h.covered with hwritten | ⟨job', hjob, hguid, hpending⟩
          · exact Or.inl (hwritten.append _)
          · have hother : job' ≠ job := by
              rintro rfl
              exact hne hguid
            exact Or.inr ⟨job', mem_eraseIdx hjob hget hother, hguid, by rwa [← hmap] at hpending⟩
  | saveAll q => exact covered_save h q

/-! ## Runs -/

variable (guid epoch) in
/-- **Skipped saves are covered.** After any run from the start, the request of a player who is
online, and any further run in which he stays online and at the end of which no job is left, the
player has been written since the request.

**Proof sketch.** The last request that has recorded its time has a job whose check passes, until
some save erases the entry, which then writes the player. -/
theorem run_request_written (earlier : List (Action P T)) (player : P) (now : T) (async : Bool)
    (later : List (Action P T))
    (honline : player ∈ (Runs.run (step guid epoch) State.init earlier).online)
    (hstays : .logout player ∉ later)
    (hjobs : (Runs.run (step guid epoch) State.init
      (earlier ++ .savePlayer player now async :: later)).jobs = []) :
    WrittenSince guid (Runs.run (step guid epoch) State.init earlier).writes
      (Runs.run (step guid epoch) State.init (earlier ++ .savePlayer player now async :: later))
      player := by
  rw [Runs.run_append, Runs.run_cons] at hjobs ⊢
  have hunique : OnlineUnique guid (Runs.run (step guid epoch) State.init earlier) :=
    Runs.invariant_of_step (step guid epoch) (P := OnlineUnique guid)
      (fun _ a h => step_onlineUnique h a) (fun p hp => absurd hp List.not_mem_nil) earlier
  have hrequest : Covered guid (Runs.run (step guid epoch) State.init earlier).writes player
      (step guid epoch (Runs.run (step guid epoch) State.init earlier)
        (.savePlayer player now async)) := by
    rw [step, savePlayer, if_pos honline]
    exact covered_schedulePlayer hunique honline (List.prefix_refl _) now async
  have hother (a : Action P T) (ha : a ∈ later) : a ≠ .logout player := by
    rintro rfl
    exact hstays ha
  have hstay : Runs.Meets (step guid epoch) (fun _ a => a ≠ .logout player)
      (step guid epoch (Runs.run (step guid epoch) State.init earlier)
        (.savePlayer player now async)) later :=
    Runs.meets_of_mem (step guid epoch) hother _
  have hend := Runs.invariant (step guid epoch)
    (P := Covered guid (Runs.run (step guid epoch) State.init earlier).writes player)
    (fun _ a h ha => step_covered h a ha) hrequest hstay
  rcases hend.covered with hwritten | ⟨job, hjob, -⟩
  · exact hwritten
  · rw [hjobs] at hjob
    cases hjob

end Steps

/-- The job of the first request is skipped, and that of the second one saves the player. -/
theorem run_request_written_skipped :
    ((Runs.run (step (fun p : ℕ => p) 0) (State.init : State ℕ ℕ ℕ)
      ([.login 7] ++ .savePlayer 7 100 true ::
        [.savePlayer 7 200 true, .check 0 true, .check 0 true, .save 0])).jobs = []) ∧
    WrittenSince (fun p : ℕ => p)
      (Runs.run (step (fun p : ℕ => p) 0) (State.init : State ℕ ℕ ℕ) [.login 7]).writes
      (Runs.run (step (fun p : ℕ => p) 0) (State.init : State ℕ ℕ ℕ)
        ([.login 7] ++ .savePlayer 7 100 true ::
          [.savePlayer 7 200 true, .check 0 true, .check 0 true, .save 0])) 7 :=
  ⟨by decide, run_request_written (fun p : ℕ => p) 0 [.login 7] 7 100 true
    [.savePlayer 7 200 true, .check 0 true, .check 0 true, .save 0] (by decide) (by simp)
    (by decide)⟩

end TiabloServer.SaveManager
