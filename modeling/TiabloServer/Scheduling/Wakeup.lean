import TiabloServer.Lib.Runs

/-!
# Waking the dispatcher

The thread of the `Dispatcher` (`dispatcher.cpp`) executes its tasks, merges the lists of all
threads into its own and sleeps until it is notified or the next scheduled task is due. The other
threads push tasks to their own lists and notify it. The flag `hasPendingTasks` is set by the
notification and cleared after the merge, outside the mutexes of the lists.

## Main definitions

* `Wakeup.Awake` — the dispatcher does not wait on queued work.
* `Wakeup.Timely` — no task is pushed to a list that has been merged, unless the dispatcher has
  other work.

## Main results

* `Wakeup.step_inv` — a timely step keeps the invariant.
* `Wakeup.run_awake` — in a run of timely steps the dispatcher does not wait on queued work.
-/

namespace TiabloServer.Wakeup

/-! ## State -/

/-- The lists of a thread. -/
inductive Kind where
  | serial
  | parallel
  | scheduled
  deriving DecidableEq

/-- Where a producer stands in a push: it holds the mutex of its lists until it is idle again. -/
inductive Producer where
  | idle
  /-- The task is in the list, and `notify` begins. -/
  | pushed
  /-- `notify` has found the flag unset. -/
  | tested
  /-- `notify` has set the flag, and will signal. -/
  | flagSet
  deriving DecidableEq

/-- Where the dispatcher stands in its loop. -/
inductive Pc where
  | execute
  /-- The lists of the threads below `k` are merged. -/
  | merge (k : ℕ)
  | scan
  | test
  /-- The flag was unset, and `wait_for` begins. -/
  | sleep
  | waiting
  deriving DecidableEq

/-- The lists of a thread. -/
structure ThreadTask (α : Type*) where
  serial : List α
  parallel : List α
  scheduledTasks : List α

/-- No tasks. -/
def ThreadTask.Empty {α : Type*} (t : ThreadTask α) : Prop :=
  t.serial = [] ∧ t.parallel = [] ∧ t.scheduledTasks = []

variable {n : ℕ} {α : Type*}

/-- The threads of the dispatcher. -/
structure State (n : ℕ) (α : Type*) where
  threads : Fin n → ThreadTask α
  producer : Fin n → Producer
  hasPendingTasks : Bool
  /-- The serial list of `m_tasks`. -/
  serial : List α
  /-- The parallel list of `m_tasks`. -/
  parallel : List α
  scheduledTasks : List α
  pc : Pc

/-- A step: of the dispatcher, of its timer, or of the producer `i`. -/
inductive Action (n : ℕ) (α : Type*) where
  /-- `executeEvents` and `executeScheduledEvents`: the tasks add `serial` and `scheduled` to the
  lists of the dispatcher's own thread, and `async` says whether they add asynchronous events. -/
  | execute (due : α → Bool) (serial scheduled : List α) (async : Bool)
  | merge
  | clear
  | scan
  | test
  | sleep
  | wake
  | push (i : Fin n) (kind : Kind) (task : α)
  | notifyTest (i : Fin n)
  | notifySet (i : Fin n)
  | notifySignal (i : Fin n)

/-! ## Steps -/

/-- `executeEvents` and `executeScheduledEvents`, of the dispatcher on the thread `d`. They take the
parallel lists of all threads, and the tasks notify the dispatcher of what they add. -/
def execute (d : Fin n) (s : State n α) (due : α → Bool) (serial scheduled : List α) (async : Bool) :
    State n α :=
  { s with
    threads := fun i =>
      let t := s.threads i
      if i = d then ⟨t.serial ++ serial, [], t.scheduledTasks ++ scheduled⟩
      else { t with parallel := [] }
    hasPendingTasks := s.hasPendingTasks || !serial.isEmpty || !scheduled.isEmpty || async
    serial := []
    parallel := []
    scheduledTasks := s.scheduledTasks.filter fun task => !due task
    pc := .merge 0 }

/-- The part of `mergeEvents` for the thread `i`. -/
def merge (s : State n α) (i : Fin n) : State n α :=
  let t := s.threads i
  { s with
    threads := Function.update s.threads i { t with serial := [], scheduledTasks := [] }
    serial := s.serial ++ t.serial
    scheduledTasks := s.scheduledTasks ++ t.scheduledTasks
    pc := .merge (i + 1) }

/-- A task at the end of a list. -/
def ThreadTask.push (t : ThreadTask α) (task : α) : Kind → ThreadTask α
  | .serial => { t with serial := t.serial ++ [task] }
  | .parallel => { t with parallel := t.parallel ++ [task] }
  | .scheduled => { t with scheduledTasks := t.scheduledTasks ++ [task] }

/-- The state after a step, of which only those change something that the threads can make. -/
def step (d : Fin n) (s : State n α) : Action n α → State n α
  | .execute due serial scheduled async =>
    if s.pc = .execute then execute d s due serial scheduled async else s
  | .merge =>
    match s.pc with
    | .merge k => if h : k < n then if s.producer ⟨k, h⟩ = .idle then merge s ⟨k, h⟩ else s else s
    | _ => s
  | .clear => if s.pc = .merge n then { s with hasPendingTasks := false, pc := .scan } else s
  | .scan =>
    if s.pc = .scan then
      { s with
        hasPendingTasks := s.hasPendingTasks || !s.serial.isEmpty || !s.parallel.isEmpty
        pc := .test }
    else s
  | .test =>
    if s.pc = .test then { s with pc := if s.hasPendingTasks then .execute else .sleep } else s
  | .sleep => if s.pc = .sleep then { s with pc := .waiting } else s
  | .wake => if s.pc = .waiting then { s with pc := .execute } else s
  | .push i kind task =>
    if i ≠ d ∧ s.producer i = .idle then
      { s with
        threads := Function.update s.threads i ((s.threads i).push task kind)
        producer := Function.update s.producer i .pushed }
    else s
  | .notifyTest i =>
    if s.producer i = .pushed then
      { s with
        producer := Function.update s.producer i (if s.hasPendingTasks then .idle else .tested) }
    else s
  | .notifySet i =>
    if s.producer i = .tested then
      { s with hasPendingTasks := true, producer := Function.update s.producer i .flagSet }
    else s
  | .notifySignal i =>
    if s.producer i = .flagSet then
      { s with
        producer := Function.update s.producer i .idle
        pc := if s.pc = .waiting then .execute else s.pc }
    else s

/-- The dispatcher begins with empty lists. -/
def init : State n α := ⟨fun _ => ⟨[], [], []⟩, fun _ => .idle, false, [], [], [], .execute⟩

/-! ## Sleep -/

/-- A producer will signal: it has found the flag unset, or will find it so. -/
def SignalToCome (s : State n α) : Prop :=
  ∃ i, s.producer i = .flagSet ∨ s.producer i = .tested ∨
    (s.producer i = .pushed ∧ s.hasPendingTasks = false)

/-- The dispatcher waits only while all lists are empty, or a signal is still to come. -/
def Awake (s : State n α) : Prop :=
  s.pc = .waiting →
    ((∀ i, (s.threads i).Empty) ∧ s.serial = [] ∧ s.parallel = []) ∨ SignalToCome s

/-- The dispatcher has other work: in `m_tasks`, or in a list that it is about to merge. -/
def Busy (s : State n α) (k : ℕ) : Prop :=
  s.serial ≠ [] ∨ s.parallel ≠ [] ∨ ∃ i : Fin n, k ≤ i ∧ (s.threads i).serial ≠ []

/-- A push comes before its list is merged, or while the dispatcher waits, or the dispatcher has
other work anyway. -/
def PushedInTime (s : State n α) (i : Fin n) (kind : Kind) : Pc → Prop
  | .execute => True
  | .merge k => (kind ≠ .parallel ∧ k ≤ i) ∨ Busy s k
  | .waiting => True
  | _ => Busy s n

/-- A step that pushes no task too late. -/
def Timely (s : State n α) : Action n α → Prop
  | .push i kind _ => PushedInTime s i kind s.pc
  | _ => True

/-! ## The invariant -/

/-- The lists of the threads below `k` are empty and their mutexes free, and so are all parallel
lists. -/
structure Quiet (s : State n α) (k : ℕ) : Prop where
  parallel : ∀ i, (s.threads i).parallel = []
  serial : ∀ i : Fin n, i < k → (s.threads i).serial = []
  scheduledTasks : ∀ i : Fin n, i < k → (s.threads i).scheduledTasks = []
  idle : ∀ i : Fin n, i < k → s.producer i = .idle

/-- What the dispatcher waits on: nothing is in its lists; where the flag is set a producer will
signal, and where it is unset only a producer that will test it has added tasks. -/
structure Waits (s : State n α) : Prop where
  serial : s.serial = []
  parallel : s.parallel = []
  signal : s.hasPendingTasks = true → ∃ i, s.producer i = .flagSet
  empty : s.hasPendingTasks = false → ∀ i, s.producer i = .idle → (s.threads i).Empty

/-- What holds where the dispatcher stands: from the merge on, it has other work, or nothing is left
behind in the lists that it has merged. -/
def InvAt (s : State n α) : Pc → Prop
  | .execute => True
  | .merge k => Busy s k ∨ Quiet s k
  | .scan => Busy s n ∨ Quiet s n
  | .test => (Busy s n ∧ s.hasPendingTasks = true) ∨ (Quiet s n ∧ s.serial = [] ∧ s.parallel = [])
  | .sleep => s.hasPendingTasks = false ∧ s.serial = [] ∧ s.parallel = [] ∧ Quiet s n
  | .waiting => Waits s

/-- What holds after every step. -/
def Inv (s : State n α) : Prop := InvAt s s.pc

variable {s : State n α} {d : Fin n}

theorem busy_n : Busy s n ↔ s.serial ≠ [] ∨ s.parallel ≠ [] := by
  refine ⟨?_, ?_⟩
  · rintro (h | h | ⟨i, hi, -⟩)
    · exact Or.inl h
    · exact Or.inr h
    · exact absurd i.isLt (not_lt.2 hi)
  · rintro (h | h)
    · exact Or.inl h
    · exact Or.inr (Or.inl h)

/-- A dispatcher that waits as the invariant says is awake. -/
theorem awake_of_inv (h : Inv s) : Awake s := by
  intro hpc
  rw [Inv, hpc] at h
  cases hflag : s.hasPendingTasks with
  | true =>
    obtain ⟨i, hi⟩ := h.signal hflag
    exact Or.inr ⟨i, Or.inl hi⟩
  | false =>
    by_cases hidle : ∀ i, s.producer i = .idle
    · exact Or.inl ⟨fun i => h.empty hflag i (hidle i), h.serial, h.parallel⟩
    · push Not at hidle
      obtain ⟨i, hi⟩ := hidle
      refine Or.inr ⟨i, ?_⟩
      cases hproducer : s.producer i with
      | idle => exact absurd hproducer hi
      | pushed => exact Or.inr (Or.inr ⟨rfl, hflag⟩)
      | tested => exact Or.inr (Or.inl rfl)
      | flagSet => exact Or.inl rfl

/-! ## Steps of the dispatcher -/

theorem inv_execute (hpc : s.pc = .execute) (due : α → Bool) (serial scheduled : List α)
    (async : Bool) : Inv (step d s (.execute due serial scheduled async)) := by
  rw [step, if_pos hpc]
  refine Or.inr ⟨fun i => ?_, fun i hi => absurd hi (Nat.not_lt_zero _),
    fun i hi => absurd hi (Nat.not_lt_zero _), fun i hi => absurd hi (Nat.not_lt_zero _)⟩
  simp only [execute]
  split_ifs <;> rfl

/-- A merge moves the tasks of a thread to the dispatcher, and finds the mutex free. -/
theorem inv_merge {k : ℕ} (h : Busy s k ∨ Quiet s k) (hk : k < n)
    (hidle : s.producer ⟨k, hk⟩ = .idle) : Inv (merge s ⟨k, hk⟩) := by
  change Busy _ (k + 1) ∨ Quiet _ (k + 1)
  by_cases hserial : (s.threads ⟨k, hk⟩).serial = []
  · rcases h with (hs | hp | ⟨i, hi, hne⟩) | hquiet
    · refine Or.inl (Or.inl ?_)
      simp [merge, hs]
    · exact Or.inl (Or.inr (Or.inl hp))
    · have hik : i ≠ ⟨k, hk⟩ := by
        rintro rfl
        exact hne hserial
      refine Or.inl (Or.inr (Or.inr ⟨i, ?_, ?_⟩))
      · exact Nat.lt_of_le_of_ne hi fun heq => hik (Fin.ext heq.symm)
      · simpa [merge, Function.update_of_ne hik] using hne
    · have hupdate : ∀ i : Fin n, i < k + 1 → i ≠ ⟨k, hk⟩ → i < k := by
        intro i hi hik
        exact Nat.lt_of_le_of_ne (Nat.lt_succ_iff.1 hi) fun heq => hik (Fin.ext heq)
      refine Or.inr ⟨fun i => ?_, fun i hi => ?_, fun i hi => ?_, fun i hi => ?_⟩
      all_goals by_cases hik : i = ⟨k, hk⟩
      · subst hik
        simpa [merge] using hquiet.parallel ⟨k, hk⟩
      · simpa [merge, Function.update_of_ne hik] using hquiet.parallel i
      · subst hik
        simp [merge]
      · simpa [merge, Function.update_of_ne hik] using hquiet.serial i (hupdate i hi hik)
      · subst hik
        simp [merge]
      · simpa [merge, Function.update_of_ne hik] using hquiet.scheduledTasks i (hupdate i hi hik)
      · exact hik ▸ hidle
      · exact hquiet.idle i (hupdate i hi hik)
  · refine Or.inl (Or.inl ?_)
    simp [merge, hserial]

/-- The scan finds the other work of the dispatcher, if there is any. -/
theorem inv_scan (hpc : s.pc = .scan) (h : Busy s n ∨ Quiet s n) : Inv (step d s .scan) := by
  rw [step, if_pos hpc]
  change (Busy _ n ∧ _) ∨ (Quiet _ n ∧ _)
  by_cases hbusy : Busy s n
  · refine Or.inl ⟨busy_n.2 (busy_n.1 hbusy), ?_⟩
    rcases busy_n.1 hbusy with hne | hne
    · simp [hne]
    · simp [hne]
  · have hquiet := h.resolve_left hbusy
    rw [busy_n, not_or, not_not, not_not] at hbusy
    exact Or.inr ⟨⟨hquiet.parallel, hquiet.serial, hquiet.scheduledTasks, hquiet.idle⟩, hbusy⟩

/-- The dispatcher goes to sleep with the flag unset, so without other work. -/
theorem inv_test (hpc : s.pc = .test) (h : Inv s) : Inv (step d s .test) := by
  rw [Inv, hpc] at h
  rw [step, if_pos hpc]
  cases hflag : s.hasPendingTasks with
  | true => trivial
  | false =>
    rcases h with ⟨-, htrue⟩ | ⟨hquiet, hserial, hparallel⟩
    · rw [hflag] at htrue
      cases htrue
    · exact ⟨rfl, hserial, hparallel, hquiet.parallel, hquiet.serial, hquiet.scheduledTasks,
        hquiet.idle⟩

theorem inv_sleep (hpc : s.pc = .sleep) (h : Inv s) : Inv (step d s .sleep) := by
  rw [Inv, hpc] at h
  obtain ⟨hflag, hserial, hparallel, hquiet⟩ := h
  rw [step, if_pos hpc]
  refine ⟨hserial, hparallel, fun htrue => ?_, fun _ i _ =>
    ⟨hquiet.serial i i.isLt, hquiet.parallel i, hquiet.scheduledTasks i i.isLt⟩⟩
  dsimp only at htrue
  rw [hflag] at htrue
  cases htrue

/-! ## Steps of the producers -/

/-- What the dispatcher relies on when a producer that holds its mutex goes on, and perhaps sets the
flag. -/
theorem inv_notify {pc : Pc} (h : InvAt s pc) (hpc : pc ≠ .waiting) {i : Fin n}
    (hi : s.producer i ≠ .idle) (v : Producer) {flag : Bool}
    (hflag : s.hasPendingTasks = true → flag = true) :
    InvAt { s with hasPendingTasks := flag, producer := Function.update s.producer i v } pc := by
  have hquiet : ∀ k, Quiet s k →
      Quiet { s with hasPendingTasks := flag, producer := Function.update s.producer i v } k := by
    intro k hk
    refine ⟨hk.parallel, hk.serial, hk.scheduledTasks, fun j hj => ?_⟩
    have hji : j ≠ i := by
      rintro rfl
      exact hi (hk.idle j hj)
    simpa [Function.update_of_ne hji] using hk.idle j hj
  cases pc with
  | execute => trivial
  | merge k => exact h.imp id (hquiet k)
  | scan => exact h.imp id (hquiet n)
  | test => exact h.imp (fun hbusy => ⟨hbusy.1, hflag hbusy.2⟩) fun hq => ⟨hquiet n hq.1, hq.2⟩
  | sleep => exact absurd (h.2.2.2.idle i i.isLt) hi
  | waiting => exact absurd rfl hpc

/-- A task that is pushed to a list that is not merged yet, or that the dispatcher will not sleep
on. -/
theorem inv_push_working {pc : Pc} (h : InvAt s pc) {i : Fin n} {kind : Kind} {task : α}
    (htimely : PushedInTime s i kind pc) (hpc : pc ≠ .waiting) :
    InvAt { s with
      threads := Function.update s.threads i ((s.threads i).push task kind)
      producer := Function.update s.producer i .pushed } pc := by
  have hbusy : ∀ k, Busy s k → Busy { s with
      threads := Function.update s.threads i ((s.threads i).push task kind)
      producer := Function.update s.producer i .pushed } k := by
    rintro k (hs | hp | ⟨j, hj, hne⟩)
    · exact Or.inl hs
    · exact Or.inr (Or.inl hp)
    · refine Or.inr (Or.inr ⟨j, hj, ?_⟩)
      dsimp only
      by_cases hji : j = i
      · subst hji
        rw [Function.update_self]
        cases kind <;> simp [ThreadTask.push, hne]
      · rwa [Function.update_of_ne hji]
  cases pc with
  | execute => trivial
  | merge k =>
    rcases h with hk | hquiet
    · exact Or.inl (hbusy k hk)
    · rcases htimely with ⟨hkind, hki⟩ | hk
      · refine Or.inr ⟨fun j => ?_, fun j hj => ?_, fun j hj => ?_, fun j hj => ?_⟩ <;> dsimp only
        · by_cases hji : j = i
          · subst hji
            rw [Function.update_self]
            cases kind with
            | serial => exact hquiet.parallel j
            | parallel => exact absurd rfl hkind
            | scheduled => exact hquiet.parallel j
          · rw [Function.update_of_ne hji]
            exact hquiet.parallel j
        all_goals
          have hji : j ≠ i := by
            rintro rfl
            exact absurd hj (not_lt.2 hki)
          rw [Function.update_of_ne hji]
        · exact hquiet.serial j hj
        · exact hquiet.scheduledTasks j hj
        · exact hquiet.idle j hj
      · exact Or.inl (hbusy k hk)
  | scan => exact Or.inl (hbusy n htimely)
  | test =>
    refine Or.inl ⟨hbusy n htimely, ?_⟩
    rcases h with ⟨-, hflag⟩ | ⟨-, hserial, hparallel⟩
    · exact hflag
    · exact absurd (busy_n.1 htimely) (by simp [hserial, hparallel])
  | sleep => exact absurd (busy_n.1 htimely) (by simp [h.2.1, h.2.2.1])
  | waiting => exact absurd rfl hpc

/-- While the dispatcher waits, a producer that pushes a task or goes on with the notification keeps
what the dispatcher waits on. -/
theorem waits_producer (h : Waits s) {i : Fin n} {v : Producer} {flag : Bool}
    {threads : Fin n → ThreadTask α} (hthreads : ∀ j, j ≠ i → threads j = s.threads j)
    (hidle : v = .idle → flag = true)
    (hsignal : flag = true →
      v = .flagSet ∨ (s.hasPendingTasks = true ∧ s.producer i ≠ .flagSet))
    (hflag : flag = false → s.hasPendingTasks = false) :
    Waits { s with
      threads := threads, producer := Function.update s.producer i v, hasPendingTasks := flag } := by
  refine ⟨h.serial, h.parallel, fun htrue => ?_, fun hfalse j hj => ?_⟩ <;> dsimp only at *
  · rcases hsignal htrue with rfl | ⟨hpending, hnot⟩
    · exact ⟨i, Function.update_self ..⟩
    · obtain ⟨j, hj⟩ := h.signal hpending
      have hji : j ≠ i := by
        rintro rfl
        exact hnot hj
      exact ⟨j, by rwa [Function.update_of_ne hji]⟩
  · by_cases hji : j = i
    · subst hji
      rw [Function.update_self] at hj
      rw [hidle hj] at hfalse
      cases hfalse
    · rw [Function.update_of_ne hji] at hj
      rw [hthreads j hji]
      exact h.empty (hflag hfalse) j hj

/-- The rule for a step of a producer that leaves the dispatcher where it stands. -/
theorem inv_of_pc {s' : State n α} (hpc : s'.pc = s.pc)
    (hworking : s.pc ≠ .waiting → InvAt s' s.pc) (hwaiting : s.pc = .waiting → Waits s') : Inv s' := by
  rw [Inv, hpc]
  by_cases hcase : s.pc = .waiting
  · rw [hcase]
    exact hwaiting hcase
  · exact hworking hcase

theorem inv_push (h : Inv s) {i : Fin n} {kind : Kind} {task : α} (ha : Timely s (.push i kind task)) :
    Inv (step d s (.push i kind task)) := by
  rw [step]
  split_ifs with hpush
  · refine inv_of_pc (s := s) rfl (inv_push_working h ha) fun hpc => ?_
    rw [Inv, hpc] at h
    refine waits_producer h (fun j hj => Function.update_of_ne hj ..) (fun hv => ?_)
      (fun htrue => Or.inr ⟨htrue, ?_⟩) id
    · cases hv
    · rw [hpush.2]
      simp
  · exact h

theorem inv_notifyTest (h : Inv s) (i : Fin n) : Inv (step d s (.notifyTest i)) := by
  rw [step]
  by_cases hi : s.producer i = .pushed
  · rw [if_pos hi]
    have hidle : s.producer i ≠ .idle := by simp [hi]
    refine inv_of_pc (s := s) rfl (fun hpc => inv_notify h hpc hidle _ id) fun hpc => ?_
    rw [Inv, hpc] at h
    refine waits_producer h (fun _ _ => rfl) (fun hv => ?_) (fun htrue => Or.inr ⟨htrue, ?_⟩) id
    · by_contra hfalse
      rw [if_neg hfalse] at hv
      cases hv
    · rw [hi]
      simp
  · rw [if_neg hi]
    exact h

theorem inv_notifySet (h : Inv s) (i : Fin n) : Inv (step d s (.notifySet i)) := by
  rw [step]
  split_ifs with hi
  · have hidle : s.producer i ≠ .idle := by simp [hi]
    refine inv_of_pc (s := s) rfl (fun hpc => inv_notify h hpc hidle _ fun _ => rfl) fun hpc => ?_
    rw [Inv, hpc] at h
    exact waits_producer h (fun _ _ => rfl) (fun _ => rfl) (fun _ => Or.inl rfl) fun hflag => (by cases hflag)
  · exact h

/-- The signal wakes the dispatcher if it waits. -/
theorem inv_notifySignal (h : Inv s) (i : Fin n) : Inv (step d s (.notifySignal i)) := by
  rw [step]
  by_cases hi : s.producer i = .flagSet
  · rw [if_pos hi]
    have hidle : s.producer i ≠ .idle := by simp [hi]
    rw [Inv]
    dsimp only
    by_cases hpc : s.pc = .waiting
    · rw [if_pos hpc]
      trivial
    · rw [if_neg hpc]
      exact inv_notify h hpc hidle _ id
  · rw [if_neg hi]
    exact h

/-! ## Runs -/

/-- **A timely step** keeps the invariant. -/
theorem step_inv (h : Inv s) {a : Action n α} (ha : Timely s a) : Inv (step d s a) := by
  cases a with
  | execute due serial scheduled async =>
    by_cases hpc : s.pc = .execute
    · exact inv_execute hpc due serial scheduled async
    · rwa [step, if_neg hpc]
  | merge =>
    rw [step]
    cases hpc : s.pc with
    | merge k =>
      dsimp only
      split_ifs with hk hidle
      · rw [Inv, hpc] at h
        exact inv_merge h hk hidle
      · exact h
      · exact h
    | execute => exact h
    | scan => exact h
    | test => exact h
    | sleep => exact h
    | waiting => exact h
  | clear =>
    rw [step]
    split_ifs with hpc
    · rw [Inv, hpc] at h
      exact h.imp id fun hq => ⟨hq.parallel, hq.serial, hq.scheduledTasks, hq.idle⟩
    · exact h
  | scan =>
    by_cases hpc : s.pc = .scan
    · rw [Inv, hpc] at h
      exact inv_scan hpc h
    · rwa [step, if_neg hpc]
  | test =>
    by_cases hpc : s.pc = .test
    · exact inv_test hpc h
    · rwa [step, if_neg hpc]
  | sleep =>
    by_cases hpc : s.pc = .sleep
    · exact inv_sleep hpc h
    · rwa [step, if_neg hpc]
  | wake =>
    rw [step]
    split_ifs
    · trivial
    · exact h
  | push i kind task => exact inv_push h ha
  | notifyTest i => exact inv_notifyTest h i
  | notifySet i => exact inv_notifySet h i
  | notifySignal i => exact inv_notifySignal h i

theorem inv_init : Inv (init : State n α) := trivial

/-- **A run of timely steps**: the dispatcher does not wait on queued work, unless a signal is still
to come. -/
theorem run_awake (d : Fin n) {l : List (Action n α)} (hl : Runs.Meets (step d) Timely init l) :
    Awake (Runs.run (step d) init l) :=
  awake_of_inv (Runs.invariant (P := Inv) (step d) (fun _ _ h ha => step_inv h ha) inv_init hl)

/-- The second of two threads pushes a task. -/
def pushTask : List (Action 2 ℕ) := [.push 1 .serial 7, .notifyTest 1, .notifySet 1, .notifySignal 1]

/-- The dispatcher, on the first thread, executes and merges its own list. -/
def mergeOwn : List (Action 2 ℕ) := [.execute (fun _ => true) [] [] false, .merge]

/-- The dispatcher goes to sleep, if it can. -/
def goToSleep : List (Action 2 ℕ) := [.clear, .scan, .test, .sleep]

theorem run_awake_push : Awake (Runs.run (step 0) init (mergeOwn ++ pushTask ++ [.merge] ++ goToSleep)) :=
  run_awake 0 ⟨trivial, trivial, Or.inl ⟨by decide, by decide⟩, trivial, trivial, trivial, trivial,
    trivial, trivial, trivial, trivial, trivial⟩

/-- A task that is pushed after the merge and before the flag is cleared. -/
theorem not_run_awake :
    ¬ ∀ l : List (Action 2 ℕ), Awake (Runs.run (step 0) init l) := by
  intro h
  rcases h (mergeOwn ++ [.merge] ++ pushTask ++ goToSleep) rfl with ⟨hempty, -, -⟩ | ⟨i, hi⟩
  · have hserial := (hempty 1).1
    revert hserial
    decide
  · revert hi
    revert i
    decide

end TiabloServer.Wakeup
