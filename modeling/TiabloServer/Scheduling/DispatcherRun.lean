import TiabloServer.Scheduling.Dispatcher

/-!
# Runs of the dispatcher

In a run in which every scheduled task gets an id of its own, the events and the tasks are executed
as they were asked for. Two threads that schedule tasks at the same time may both raise
`LAST_EVENT_ID` before either reads it, and then both read the same id.

## Main definitions

* `Dispatcher.Inv` — what the steps keep.

## Main results

* `Dispatcher.step_inv` — every careful step keeps the invariant.
* `Dispatcher.run_orderly` — the dispatcher is orderly in every state of a run of careful steps.
-/

namespace TiabloServer.Dispatcher

/-- What careful steps keep. -/
structure Inv (s : State) : Prop where
  events : ∀ thread, ((s.finished.map Prod.fst ++ (s.mainEvents ++ s.threadEvents)).filter
    fun e => e.thread = thread) = s.added.filter fun e => e.thread = thread
  expired : ∀ p ∈ s.finished, p.2 = false → p.1.expiration ≠ 0 ∧ p.1.expiration < s.now
  drained : ∀ current, s.phase = .tasks current → s.mainEvents = []
  once : s.waiting.Nodup
  entered : ∀ t ∈ s.waiting, (s.tasks t).id ≠ 0
  distinct : ∀ t t', (s.tasks t).id ≠ 0 → (s.tasks t).id = (s.tasks t').id → t = t'
  kept : ∀ t, (s.tasks t).id ≠ 0 → t ∈ s.waiting ∨ (s.tasks t).canceled ∨
    ((s.tasks t).cycle = false ∧ ∃ p ∈ s.executions, p.1 = t)
  sorted : s.scheduledTasks.Pairwise fun t t' => (s.tasks t).utime ≤ (s.tasks t').utime
  times : ∀ t ∈ s.waiting, (s.tasks t).due ≤ (s.tasks t).utime
  inTime : ∀ p ∈ s.executions, (s.tasks p.1).due ≤ p.2 ∧ p.2 ≤ s.now ∧ (s.tasks p.1).id ≠ 0
  again : s.executions.Pairwise fun (later earlier : ℕ × ℤ) => later.1 = earlier.1 →
    (s.tasks later.1).cycle = true ∧ earlier.2 + ((s.tasks later.1).delay : ℤ) ≤ later.2
  next : ∀ p ∈ s.executions, p.1 ∈ s.waiting → s.current = some p.1 ∨
    ((s.tasks p.1).cycle = true ∧ p.2 + ((s.tasks p.1).delay : ℤ) ≤ (s.tasks p.1).utime)
  running : ∀ t, s.current = some t → ∃ p ∈ s.executions, p.1 = t
  stopped : ∀ t ∈ s.stops, (s.tasks t).id ≠ 0 ∧ (t ∈ s.waiting → (s.tasks t).canceled)
  ref : ∀ id t, (id, t) ∈ s.scheduledTasksRef ↔
    (s.tasks t).id = id ∧ id ≠ 0 ∧ (s.tasks t).canceled = false ∧ t ∈ s.waiting
  numbering : ∀ p ∈ s.numbering, (s.tasks p.2).id = 0 ∧ p.2 < s.created ∧
    (s.tasks p.2).canceled = false ∧ (s.tasks p.2).due ≤ (s.tasks p.2).utime
  fresh : ∀ t, s.created ≤ t → (s.tasks t).id = 0
  lastEventId : s.numbering ≠ [] → s.lastEventId ≠ 0

namespace Inv

variable {s : State}

/-- The loop leaves the tasks when the first of them is not due. -/
theorem punctual (h : Inv s) {threads : List ℕ} (hphase : s.phase = .tasks none)
    (hend : (step s .endTasks).phase = .merge threads) : ∀ t ∈ s.scheduledTasks, s.now < (s.tasks t).utime := by
  rw [step] at hend
  split_ifs at hend with hdue
  · intro t ht
    have hsorted := h.sorted
    cases hl : s.scheduledTasks with
    | nil =>
      rw [hl] at ht
      cases ht
    | cons first rest =>
      have hfirst := hdue.2 first (by rw [hl]; rfl)
      rw [hl] at ht hsorted
      rcases List.mem_cons.1 ht with rfl | ht
      · exact hfirst
      · exact hfirst.trans_le ((List.pairwise_cons.1 hsorted).1 t ht)
  · rw [hphase] at hend
    cases hend

theorem orderly (h : Inv s) : Orderly s := by
  refine ⟨h.events, h.expired, h.drained, h.once, h.kept, fun _ => h.punctual, fun p hp => (h.inTime p hp).1,
    h.again, ?_, h.ref⟩
  intro t ht time heq
  rw [step] at heq
  split at heq
  · rename_i t' rest hphase hl
    split_ifs at heq
    · rw [executeTask] at heq
      simp only at heq
      split_ifs at heq with hcanceled
      · exact absurd (congrArg List.length heq) (by simp)
      · obtain ⟨rfl, -⟩ := Prod.ext_iff.1 (List.cons.inj heq).1
        exact hcanceled ((h.stopped t' ht).2 (by rw [State.waiting, hl]; simp))
    · exact absurd (congrArg List.length heq) (by simp)
  · exact absurd (congrArg List.length heq) (by simp)

/-- The loop goes on, and no task is being executed. -/
theorem turn {phase : Phase} (now : ℤ) (h : Inv s) (hcurrent : s.current = none)
    (hnone : ∀ t, phase ≠ .tasks (some t)) (hnow : s.now ≤ now)
    (hdrained : ∀ current, phase = .tasks current → s.mainEvents = []) :
    Inv { s with now := now, phase := phase } := by
  have hcurrent' : ({ s with now := now, phase := phase } : State).current = none := by
    cases phase with
    | tasks current =>
      cases current with
      | none => rfl
      | some t => exact absurd rfl (hnone t)
    | _ => rfl
  have hwaiting : ({ s with now := now, phase := phase } : State).waiting = s.waiting := by
    rw [State.waiting, State.waiting, hcurrent, hcurrent']
  refine ⟨h.events, ?_, hdrained, hwaiting ▸ h.once, hwaiting ▸ h.entered, h.distinct, ?_, h.sorted,
    hwaiting ▸ h.times, ?_, h.again, ?_, ?_, ?_, ?_, h.numbering, h.fresh, h.lastEventId⟩
  · intro p hp hran
    exact ⟨(h.expired p hp hran).1, (h.expired p hp hran).2.trans_le hnow⟩
  · rw [hwaiting]
    exact h.kept
  · intro p hp
    obtain ⟨hdue, hle, hid⟩ := h.inTime p hp
    exact ⟨hdue, hle.trans hnow, hid⟩
  · rw [hwaiting, hcurrent', ← hcurrent]
    exact h.next
  · intro t ht
    rw [hcurrent'] at ht
    cases ht
  · rw [hwaiting]
    exact h.stopped
  · rw [hwaiting]
    exact h.ref

end Inv

/-! ## Events -/

theorem executeEvent_inv {s : State} (h : Inv s) : Inv (step s .executeEvent) := by
  rw [step]
  split
  · rename_i e rest hphase hmain
    refine ⟨?_, ?_, ?_, h.once, h.entered, h.distinct, h.kept, h.sorted, h.times, h.inTime, h.again,
      h.next, h.running, h.stopped, h.ref, h.numbering, h.fresh, h.lastEventId⟩
    · intro thread
      have hevents := h.events thread
      rw [hmain] at hevents
      rw [← hevents]
      simp
    · intro p hp hran
      rcases List.mem_append.1 hp with hp | hp
      · exact h.expired p hp hran
      · rw [List.mem_singleton] at hp
        subst hp
        simpa [Event.hasExpired] using hran
    · intro current htasks
      change s.phase = _ at htasks
      rw [hphase] at htasks
      cases htasks
  · exact h

theorem addEvent_inv {s : State} (h : Inv s) (thread expiresAfterMs : ℕ) :
    Inv (step s (.addEvent thread expiresAfterMs)) := by
  refine ⟨?_, h.expired, h.drained, h.once, h.entered, h.distinct, h.kept, h.sorted, h.times,
    h.inTime, h.again, h.next, h.running, h.stopped, h.ref, h.numbering, h.fresh, h.lastEventId⟩
  intro thread'
  rw [step]
  simp only
  rw [List.filter_append s.added, ← h.events thread']
  simp only [List.filter_append, List.append_assoc]

/-! ## The tasks of the loop -/

/-- A field that a new value of a task leaves is the same for all tasks. -/
theorem field_update {β : Type} (g : Task → β) {tasks : ℕ → Task} {t : ℕ} {task : Task}
    (h : g task = g (tasks t)) (t' : ℕ) : g (Function.update tasks t task t') = g (tasks t') := by
  by_cases heq : t' = t
  · rw [heq, Function.update_self, h]
  · rw [Function.update_of_ne heq]

/-- Without the references of a task that has an id, those of the others are left. -/
theorem mem_filter_ref {s : State} (h : Inv s) {t : ℕ} (ht : (s.tasks t).id ≠ 0) (id t' : ℕ) :
    (id, t') ∈ (s.scheduledTasksRef.filter fun p => p.1 ≠ (s.tasks t).id) ↔
      ((s.tasks t').id = id ∧ id ≠ 0 ∧ (s.tasks t').canceled = false ∧ t' ∈ s.waiting) ∧ t' ≠ t := by
  rw [List.mem_filter, h.ref]
  simp only [ne_eq, decide_not, Bool.not_eq_true', decide_eq_false_iff_not]
  refine and_congr_right ?_
  rintro ⟨hid, -, -, -⟩
  refine not_congr ⟨?_, ?_⟩
  · intro heq
    exact (h.distinct t t' ht (heq.symm.trans hid.symm)).symm
  · rintro rfl
    exact hid.symm

/-- A task that was stopped is forgotten when its turn comes. -/
theorem forgetTask_inv {s : State} {t : ℕ} {rest : List ℕ} (h : Inv s)
    (hphase : s.phase = .tasks none) (hl : s.scheduledTasks = t :: rest)
    (hcanceled : (s.tasks t).canceled = true) : Inv (executeTask s t rest) := by
  have hcurrent : s.current = none := by rw [State.current, hphase]
  have hwaiting : s.waiting = s.threadTasks.map Prod.snd ++ (t :: rest) := by
    rw [State.waiting, hcurrent, hl]
    simp
  have ht : t ∈ s.waiting := by
    rw [hwaiting]
    simp
  have hsorted := h.sorted
  rw [hl, List.pairwise_cons] at hsorted
  rw [executeTask]
  simp only
  rw [if_pos hcanceled]
  have hwaiting' : ∀ ref, ({ s with scheduledTasks := rest, scheduledTasksRef := ref } : State).waiting
      = s.threadTasks.map Prod.snd ++ rest := by
    intro ref
    show _ ++ (rest ++ s.current.toList) = _
    rw [hcurrent]
    simp
  have hsub : (s.threadTasks.map Prod.snd ++ rest).Sublist s.waiting := by
    rw [hwaiting]
    exact (List.Sublist.refl _).append (List.sublist_cons_self _ _)
  have hmem : ∀ t', t' ∈ s.waiting ↔ t' = t ∨ t' ∈ s.threadTasks.map Prod.snd ++ rest := by
    intro t'
    rw [hwaiting, List.perm_middle.mem_iff, List.mem_cons]
  refine ⟨h.events, h.expired, h.drained, ?_, ?_, h.distinct, ?_, hsorted.2, ?_, h.inTime, h.again,
    ?_, h.running, ?_, ?_, h.numbering, h.fresh, h.lastEventId⟩
  · rw [hwaiting']
    exact h.once.sublist hsub
  · rw [hwaiting']
    intro t' ht'
    exact h.entered t' (hsub.subset ht')
  · rw [hwaiting']
    intro t' hid
    rcases h.kept t' hid with hw | hk
    · rcases (hmem t').1 hw with rfl | hw
      · exact Or.inr (Or.inl hcanceled)
      · exact Or.inl hw
    · exact Or.inr hk
  · rw [hwaiting']
    intro t' ht'
    exact h.times t' (hsub.subset ht')
  · rw [hwaiting']
    intro p hp hw
    exact h.next p hp (hsub.subset hw)
  · rw [hwaiting']
    intro t' ht'
    exact ⟨(h.stopped t' ht').1, fun hw => (h.stopped t' ht').2 (hsub.subset hw)⟩
  · rw [hwaiting']
    intro id t'
    rw [mem_filter_ref h (h.entered t ht)]
    constructor
    · rintro ⟨⟨hid, hne, hnot, hw⟩, hother⟩
      exact ⟨hid, hne, hnot, ((hmem t').1 hw).resolve_left hother⟩
    · rintro ⟨hid, hne, hnot, hw⟩
      refine ⟨⟨hid, hne, hnot, hsub.subset hw⟩, ?_⟩
      rintro rfl
      rw [hcanceled] at hnot
      cases hnot

/-- A task that was not stopped is executed when its turn comes. -/
theorem startTask_inv {s : State} {t : ℕ} {rest : List ℕ} (h : Inv s)
    (hphase : s.phase = .tasks none) (hl : s.scheduledTasks = t :: rest)
    (hdue : (s.tasks t).utime ≤ s.now) (hcanceled : ¬ (s.tasks t).canceled = true) :
    Inv (executeTask s t rest) := by
  have hcurrent : s.current = none := by rw [State.current, hphase]
  have hwaiting : s.waiting = s.threadTasks.map Prod.snd ++ (t :: rest) := by
    rw [State.waiting, hcurrent, hl]
    simp
  have ht : t ∈ s.waiting := by
    rw [hwaiting]
    simp
  have hsorted := h.sorted
  rw [hl, List.pairwise_cons] at hsorted
  rw [executeTask]
  simp only
  rw [if_neg hcanceled]
  have hwaiting' : ∀ e, ({ s with
      scheduledTasks := rest, phase := .tasks (some t), executions := e } : State).waiting
        = s.threadTasks.map Prod.snd ++ (rest ++ [t]) := fun _ => rfl
  have hperm : (s.threadTasks.map Prod.snd ++ (rest ++ [t])).Perm s.waiting := by
    rw [hwaiting]
    exact (List.perm_append_singleton t rest).append_left _
  have hnext : ∀ p ∈ s.executions, p.1 ∈ s.waiting → (s.tasks p.1).cycle = true ∧
      p.2 + ((s.tasks p.1).delay : ℤ) ≤ (s.tasks p.1).utime := by
    intro p hp hw
    refine (h.next p hp hw).resolve_left ?_
    rw [hcurrent]
    exact (Option.some_ne_none p.1).symm
  refine ⟨h.events, h.expired, ?_, ?_, ?_, h.distinct, ?_, hsorted.2, ?_, ?_, ?_, ?_, ?_, ?_, ?_,
    h.numbering, h.fresh, h.lastEventId⟩
  · intro _ _
    exact h.drained none hphase
  · rw [hwaiting']
    exact hperm.nodup_iff.2 h.once
  · rw [hwaiting']
    intro t' ht'
    exact h.entered t' (hperm.mem_iff.1 ht')
  · rw [hwaiting']
    intro t' hid
    rcases h.kept t' hid with hw | hc | ⟨hcycle, p, hp, heq⟩
    · exact Or.inl (hperm.mem_iff.2 hw)
    · exact Or.inr (Or.inl hc)
    · exact Or.inr (Or.inr ⟨hcycle, p, List.mem_cons_of_mem _ hp, heq⟩)
  · rw [hwaiting']
    intro t' ht'
    exact h.times t' (hperm.mem_iff.1 ht')
  · intro p hp
    rcases List.mem_cons.1 hp with rfl | hp
    · exact ⟨(h.times t ht).trans hdue, le_rfl, h.entered t ht⟩
    · exact h.inTime p hp
  · refine List.pairwise_cons.2 ⟨?_, h.again⟩
    intro p hp heq
    change t = p.1 at heq
    subst heq
    obtain ⟨hcycle, hle⟩ := hnext p hp ht
    exact ⟨hcycle, hle.trans hdue⟩
  · rw [hwaiting']
    intro p hp hw
    rcases List.mem_cons.1 hp with rfl | hp
    · exact Or.inl rfl
    · exact Or.inr (hnext p hp (hperm.mem_iff.1 hw))
  · intro t' ht'
    cases ht'
    exact ⟨(t, s.now), List.mem_cons_self, rfl⟩
  · rw [hwaiting']
    intro t' ht'
    exact ⟨(h.stopped t' ht').1, fun hw => (h.stopped t' ht').2 (hperm.mem_iff.1 hw)⟩
  · rw [hwaiting']
    intro id t'
    rw [hperm.mem_iff]
    exact h.ref id t'

/-- **The next task** is executed if it was not stopped, and forgotten otherwise. -/
theorem executeTask_inv {s : State} {t : ℕ} {rest : List ℕ} (h : Inv s)
    (hphase : s.phase = .tasks none) (hl : s.scheduledTasks = t :: rest)
    (hdue : (s.tasks t).utime ≤ s.now) : Inv (executeTask s t rest) := by
  by_cases hcanceled : (s.tasks t).canceled = true
  · exact forgetTask_inv h hphase hl hcanceled
  · exact startTask_inv h hphase hl hdue hcanceled

theorem waiting_of_running {s : State} {t : ℕ} (hphase : s.phase = .tasks (some t)) :
    s.waiting = s.threadTasks.map Prod.snd ++ (s.scheduledTasks ++ [t]) := by
  rw [State.waiting, State.current, hphase]
  rfl

/-- The task that is executed waits nowhere else. -/
theorem not_mem_of_running {s : State} {t : ℕ} (h : Inv s) (hphase : s.phase = .tasks (some t)) :
    t ∉ s.threadTasks.map Prod.snd ++ s.scheduledTasks := by
  have honce := h.once
  rw [waiting_of_running hphase, ← List.append_assoc, List.nodup_append] at honce
  exact fun hmem => honce.2.2 t hmem t (List.mem_singleton_self t) rfl

/-- A cycle waits for its delay when it was executed. -/
theorem finishCycle_inv {s : State} {t : ℕ} (h : Inv s) (hphase : s.phase = .tasks (some t))
    (hcycle : (s.tasks t).cycle = true) : Inv (finishTask s t) := by
  have hcurrent : s.current = some t := by rw [State.current, hphase]
  have hwaiting := waiting_of_running hphase
  have hnot := not_mem_of_running h hphase
  obtain ⟨p₀, hp₀, heq₀⟩ := h.running t hcurrent
  rw [finishTask]
  simp only
  rw [if_pos hcycle]
  have ht : t ∈ s.waiting := by
    rw [hwaiting]
    simp
  generalize htask : ({ s.tasks t with utime := s.now + (s.tasks t).delay } : Task) = task
  have hid := field_update Task.id (show task.id = (s.tasks t).id by rw [← htask])
  have hcanceled := field_update Task.canceled
    (show task.canceled = (s.tasks t).canceled by rw [← htask])
  have hcycles := field_update Task.cycle (show task.cycle = (s.tasks t).cycle by rw [← htask])
  have hdues := field_update Task.due (show task.due = (s.tasks t).due by rw [← htask])
  have hdelays := field_update Task.delay (show task.delay = (s.tasks t).delay by rw [← htask])
  have hutime : ∀ t', t' ≠ t → (Function.update s.tasks t task t').utime = (s.tasks t').utime :=
    fun t' heq => by rw [Function.update_of_ne heq]
  have hself : (Function.update s.tasks t task t).utime = s.now + (s.tasks t).delay := by
    rw [Function.update_self, ← htask]
  have hperm : ((s.threadTasks ++ [((0 : ℕ), t)]).map Prod.snd ++ (s.scheduledTasks ++ [])).Perm
      s.waiting := by
    rw [hwaiting, List.map_append, List.append_nil, List.append_assoc]
    exact (List.perm_append_comm).append_left _
  refine ⟨h.events, h.expired, ?_, hperm.nodup_iff.2 h.once, ?_, ?_, ?_, ?_, ?_, ?_, ?_, ?_, ?_, ?_,
    ?_, ?_, ?_, h.lastEventId⟩
  · intro _ _
    exact h.drained _ hphase
  · intro t' ht'
    exact (hid t').symm ▸ h.entered t' (hperm.mem_iff.1 ht')
  · intro t₁ t₂
    show (Function.update s.tasks t task t₁).id ≠ 0 →
      (Function.update s.tasks t task t₁).id = (Function.update s.tasks t task t₂).id → t₁ = t₂
    rw [hid, hid]
    exact h.distinct t₁ t₂
  · intro t'
    show (Function.update s.tasks t task t').id ≠ 0 → _ ∨
      (Function.update s.tasks t task t').canceled = true ∨
        (Function.update s.tasks t task t').cycle = false ∧ _
    rw [hid, hcanceled, hcycles]
    intro hne
    exact (h.kept t' hne).imp_left hperm.mem_iff.2
  · refine h.sorted.imp_of_mem ?_
    intro t₁ t₂ h₁ h₂ hle
    have hne₁ : t₁ ≠ t := by
      rintro rfl
      exact hnot (List.mem_append_right _ h₁)
    have hne₂ : t₂ ≠ t := by
      rintro rfl
      exact hnot (List.mem_append_right _ h₂)
    exact (hutime t₁ hne₁).trans_le (hle.trans_eq (hutime t₂ hne₂).symm)
  · intro t' ht'
    show (Function.update s.tasks t task t').due ≤ (Function.update s.tasks t task t').utime
    rw [hdues]
    by_cases heq : t' = t
    · subst heq
      rw [hself]
      obtain ⟨hdue, hle, -⟩ := h.inTime p₀ hp₀
      rw [heq₀] at hdue
      omega
    · rw [hutime t' heq]
      exact h.times t' (hperm.mem_iff.1 ht')
  · intro p hp
    show (Function.update s.tasks t task p.1).due ≤ p.2 ∧ p.2 ≤ s.now ∧
      (Function.update s.tasks t task p.1).id ≠ 0
    rw [hdues, hid]
    exact h.inTime p hp
  · refine h.again.imp ?_
    intro p q hpq
    show p.1 = q.1 → (Function.update s.tasks t task p.1).cycle = true ∧
      q.2 + ((Function.update s.tasks t task p.1).delay : ℤ) ≤ p.2
    rw [hcycles, hdelays]
    exact hpq
  · intro p hp hw
    refine Or.inr ?_
    show (Function.update s.tasks t task p.1).cycle = true ∧
      p.2 + ((Function.update s.tasks t task p.1).delay : ℤ) ≤
        (Function.update s.tasks t task p.1).utime
    rw [hcycles, hdelays]
    by_cases heq : p.1 = t
    · have hle := (h.inTime p hp).2.1
      rw [heq, hself]
      exact ⟨hcycle, by omega⟩
    · rw [hutime p.1 heq]
      refine (h.next p hp (hperm.mem_iff.1 hw)).resolve_left ?_
      intro hsome
      rw [hcurrent] at hsome
      exact heq (Option.some.inj hsome).symm
  · intro t' ht'
    cases ht'
  · intro t' ht'
    show (Function.update s.tasks t task t').id ≠ 0 ∧
      (_ → (Function.update s.tasks t task t').canceled = true)
    rw [hid, hcanceled]
    exact ⟨(h.stopped t' ht').1, fun hw => (h.stopped t' ht').2 (hperm.mem_iff.1 hw)⟩
  · intro id t'
    show _ ↔ (Function.update s.tasks t task t').id = id ∧ id ≠ 0 ∧
      (Function.update s.tasks t task t').canceled = false ∧ t' ∈ _ ++ (s.scheduledTasks ++ [])
    rw [hid, hcanceled, hperm.mem_iff]
    exact h.ref id t'
  · intro p hp
    have hne : p.2 ≠ t := by
      intro heq
      exact h.entered t ht (heq ▸ (h.numbering p hp).1)
    show (Function.update s.tasks t task p.2).id = 0 ∧ p.2 < s.created ∧
      (Function.update s.tasks t task p.2).canceled = false ∧
      (Function.update s.tasks t task p.2).due ≤ (Function.update s.tasks t task p.2).utime
    rw [hid, hcanceled, hdues, hutime p.2 hne]
    exact h.numbering p hp
  · intro t' ht'
    exact (hid t').trans (h.fresh t' ht')

/-- A task that is no cycle is forgotten when it was executed. -/
theorem finishLast_inv {s : State} {t : ℕ} (h : Inv s) (hphase : s.phase = .tasks (some t))
    (hcycle : ¬ (s.tasks t).cycle = true) : Inv (finishTask s t) := by
  have hcurrent : s.current = some t := by rw [State.current, hphase]
  have hwaiting := waiting_of_running hphase
  have hnot := not_mem_of_running h hphase
  obtain ⟨p₀, hp₀, heq₀⟩ := h.running t hcurrent
  rw [finishTask]
  simp only
  rw [if_neg hcycle]
  have ht : t ∈ s.waiting := by
    rw [hwaiting]
    simp
  have hcycle' : (s.tasks t).cycle = false := Bool.not_eq_true _ ▸ hcycle
  have hsub : (s.threadTasks.map Prod.snd ++ (s.scheduledTasks ++ [])).Sublist s.waiting := by
    rw [hwaiting]
    exact (List.Sublist.refl _).append ((List.Sublist.refl _).append (List.nil_sublist _))
  have hmem : ∀ t', t' ∈ s.waiting ↔
      t' = t ∨ t' ∈ s.threadTasks.map Prod.snd ++ (s.scheduledTasks ++ []) := by
    intro t'
    rw [hwaiting]
    simp only [List.mem_append, List.mem_singleton, List.not_mem_nil, or_false]
    tauto
  refine ⟨h.events, h.expired, ?_, h.once.sublist hsub, ?_, h.distinct, ?_, h.sorted, ?_, h.inTime,
    h.again, ?_, ?_, ?_, ?_, h.numbering, h.fresh, h.lastEventId⟩
  · intro _ _
    exact h.drained _ hphase
  · intro t' ht'
    exact h.entered t' (hsub.subset ht')
  · intro t' hid
    rcases h.kept t' hid with hw | hk
    · rcases (hmem t').1 hw with rfl | hw
      · exact Or.inr (Or.inr ⟨hcycle', p₀, hp₀, heq₀⟩)
      · exact Or.inl hw
    · exact Or.inr hk
  · intro t' ht'
    exact h.times t' (hsub.subset ht')
  · intro p hp hw
    refine Or.inr ((h.next p hp (hsub.subset hw)).resolve_left ?_)
    intro hsome
    rw [hcurrent] at hsome
    have heq := Option.some.inj hsome
    refine hnot ?_
    rw [heq]
    simpa [State.waiting, State.current] using hw
  · intro t' ht'
    cases ht'
  · intro t' ht'
    exact ⟨(h.stopped t' ht').1, fun hw => (h.stopped t' ht').2 (hsub.subset hw)⟩
  · intro id t'
    show (id, t') ∈ s.scheduledTasksRef.filter _ ↔ (s.tasks t').id = id ∧ id ≠ 0 ∧
      (s.tasks t').canceled = false ∧ t' ∈ s.threadTasks.map Prod.snd ++ (s.scheduledTasks ++ [])
    rw [mem_filter_ref h (h.entered t ht)]
    constructor
    · rintro ⟨⟨hid, hne, hnot', hw⟩, hother⟩
      exact ⟨hid, hne, hnot', ((hmem t').1 hw).resolve_left hother⟩
    · rintro ⟨hid, hne, hnot', hw⟩
      refine ⟨⟨hid, hne, hnot', hsub.subset hw⟩, ?_⟩
      rintro rfl
      exact hnot (by simpa using hw)

/-- **When a task was executed**, a cycle waits for its delay, and another task is forgotten. -/
theorem finishTask_inv {s : State} {t : ℕ} (h : Inv s) (hphase : s.phase = .tasks (some t)) :
    Inv (finishTask s t) := by
  by_cases hcycle : (s.tasks t).cycle = true
  · exact finishCycle_inv h hphase hcycle
  · exact finishLast_inv h hphase hcycle

/-! ## Merging -/

theorem insertTask_perm (tasks : ℕ → Task) (t : ℕ) (l : List ℕ) : (insertTask tasks t l).Perm (t :: l) := by
  induction l with
  | nil => exact .refl _
  | cons t' l ih =>
    rw [insertTask]
    split_ifs
    · exact (ih.cons t').trans (List.Perm.swap _ _ _)
    · exact .refl _

theorem insertTask_sorted {tasks : ℕ → Task} {l : List ℕ} (t : ℕ)
    (h : l.Pairwise fun t t' => (tasks t).utime ≤ (tasks t').utime) :
    (insertTask tasks t l).Pairwise fun t t' => (tasks t).utime ≤ (tasks t').utime := by
  induction l with
  | nil => exact List.pairwise_singleton _ _
  | cons t' l ih =>
    have hcons := List.pairwise_cons.1 h
    rw [insertTask]
    split_ifs with hle
    · refine List.pairwise_cons.2 ⟨?_, ih hcons.2⟩
      intro t₁ ht₁
      rcases List.mem_cons.1 ((insertTask_perm tasks t l).mem_iff.1 ht₁) with rfl | ht₁
      · exact hle
      · exact hcons.1 t₁ ht₁
    · refine List.pairwise_cons.2 ⟨?_, h⟩
      intro t₁ ht₁
      rcases List.mem_cons.1 ht₁ with rfl | ht₁
      · omega
      · exact (not_le.1 hle).le.trans (hcons.1 t₁ ht₁)

/-- Tasks that are merged are in the set once more each, in the order of their times. -/
theorem foldl_insertTask {tasks : ℕ → Task} (new l : List ℕ)
    (h : l.Pairwise fun t t' => (tasks t).utime ≤ (tasks t').utime) :
    (new.foldl (fun l t => insertTask tasks t l) l).Perm (new ++ l) ∧
      (new.foldl (fun l t => insertTask tasks t l) l).Pairwise fun t t' => (tasks t).utime ≤ (tasks t').utime := by
  induction new generalizing l with
  | nil => exact ⟨.refl _, h⟩
  | cons t new ih =>
    obtain ⟨hperm, hsorted⟩ := ih (insertTask tasks t l) (insertTask_sorted t h)
    refine ⟨hperm.trans ?_, hsorted⟩
    exact ((insertTask_perm tasks t l).append_left new).trans List.perm_middle

/-- **The lists of a thread** are taken over. -/
theorem mergeThread_inv {s : State} {thread : ℕ} {rest : List ℕ} (h : Inv s)
    (hphase : s.phase = .merge (thread :: rest)) : Inv (mergeThread s thread rest) := by
  have hcurrent : s.current = none := by rw [State.current, hphase]
  obtain ⟨hset, hsorted⟩ := foldl_insertTask
    ((s.threadTasks.filter fun p => p.1 = thread).map Prod.snd) s.scheduledTasks h.sorted
  have hsplit : (s.threadTasks.map Prod.snd).Perm
      ((s.threadTasks.filter fun p => p.1 ≠ thread).map Prod.snd ++
        (s.threadTasks.filter fun p => p.1 = thread).map Prod.snd) := by
    rw [← List.map_append]
    refine List.Perm.map _ ?_
    have hfilter := List.filter_append_perm (fun p : ℕ × ℕ => decide (p.1 ≠ thread)) s.threadTasks
    simpa using hfilter.symm
  have hperm : (mergeThread s thread rest).waiting.Perm s.waiting := by
    show ((s.threadTasks.filter fun (p : ℕ × ℕ) => p.1 ≠ thread).map Prod.snd ++ (_ ++ [])).Perm _
    rw [State.waiting, hcurrent, Option.toList_none, List.append_nil, List.append_nil]
    refine (hset.append_left _).trans ?_
    rw [← List.append_assoc]
    exact (hsplit.append_right _).symm
  refine ⟨?_, h.expired, ?_, hperm.nodup_iff.2 h.once, ?_, h.distinct, ?_, hsorted, ?_, h.inTime,
    h.again, ?_, ?_, ?_, ?_, h.numbering, h.fresh, h.lastEventId⟩
  · intro thread'
    refine Eq.trans ?_ (h.events thread')
    show ((s.finished.map Prod.fst ++ ((s.mainEvents ++ s.threadEvents.filter fun e => e.thread = thread) ++
      s.threadEvents.filter fun e => e.thread ≠ thread)).filter fun e => e.thread = thread') = _
    simp only [List.filter_append, List.append_assoc, List.filter_filter]
    refine congrArg _ (congrArg _ ?_)
    by_cases heq : thread' = thread
    · subst heq
      simp
    · have hnone : (s.threadEvents.filter fun e =>
          decide (e.thread = thread') && decide (e.thread = thread)) = [] := by
        refine List.filter_eq_nil_iff.2 ?_
        intro e _ hboth
        simp only [Bool.and_eq_true, decide_eq_true_eq] at hboth
        exact heq (hboth.1.symm.trans hboth.2)
      rw [hnone, List.nil_append]
      refine List.filter_congr ?_
      intro e _
      by_cases he : e.thread = thread'
      · simp [he, heq]
      · simp [he]
  · intro current htasks
    cases htasks
  · intro t ht
    exact h.entered t (hperm.mem_iff.1 ht)
  · intro t hid
    exact (h.kept t hid).imp_left hperm.mem_iff.2
  · intro t ht
    exact h.times t (hperm.mem_iff.1 ht)
  · intro p hp hw
    refine Or.inr ((h.next p hp (hperm.mem_iff.1 hw)).resolve_left ?_)
    rw [hcurrent]
    exact (Option.some_ne_none p.1).symm
  · intro t ht
    cases ht
  · intro t ht
    exact ⟨(h.stopped t ht).1, fun hw => (h.stopped t ht).2 (hperm.mem_iff.1 hw)⟩
  · intro id t
    rw [hperm.mem_iff]
    exact h.ref id t

/-! ## Scheduling and stopping -/

theorem nextEventId_ne_zero (last : ℕ) : nextEventId last ≠ 0 := by
  rw [nextEventId]
  split_ifs with h
  · exact one_ne_zero
  · exact h

/-- **A new task** has no id yet, and nothing else changes. -/
theorem newTask_inv {s : State} (h : Inv s) (thread delay : ℕ) (cycle : Bool) :
    Inv (step s (.newTask thread delay cycle)) := by
  rw [step]
  split_ifs with hnumbering
  · exact h
  · generalize htask :
      (⟨0, s.now + delay, delay, cycle, false, s.now + delay⟩ : Task) = task
    have hid0 : task.id = 0 := by rw [← htask]
    have hid : ∀ t, (Function.update s.tasks s.created task t).id = (s.tasks t).id :=
      field_update Task.id (hid0.trans (h.fresh s.created le_rfl).symm)
    have hold : ∀ t, (s.tasks t).id ≠ 0 → Function.update s.tasks s.created task t = s.tasks t := by
      intro t ht
      refine Function.update_of_ne ?_ _ _
      rintro rfl
      exact ht (h.fresh _ le_rfl)
    have hwait : ∀ t ∈ s.waiting, Function.update s.tasks s.created task t = s.tasks t :=
      fun t ht => hold t (h.entered t ht)
    refine ⟨h.events, h.expired, h.drained, h.once, ?_, ?_, ?_, ?_, ?_, ?_, ?_, ?_, h.running, ?_, ?_,
      ?_, ?_, fun _ => nextEventId_ne_zero _⟩
    · intro t ht
      exact (hid t).symm ▸ h.entered t ht
    · intro t₁ t₂
      show (Function.update s.tasks s.created task t₁).id ≠ 0 →
        (Function.update s.tasks s.created task t₁).id =
          (Function.update s.tasks s.created task t₂).id → t₁ = t₂
      rw [hid, hid]
      exact h.distinct t₁ t₂
    · intro t hne
      change (Function.update s.tasks s.created task t).id ≠ 0 at hne
      rw [hid] at hne
      show t ∈ s.waiting ∨ (Function.update s.tasks s.created task t).canceled = true ∨
        (Function.update s.tasks s.created task t).cycle = false ∧ _
      rw [hold t hne]
      exact h.kept t hne
    · refine h.sorted.imp_of_mem ?_
      intro t₁ t₂ h₁ h₂ hle
      have hw₁ : t₁ ∈ s.waiting := List.mem_append_right _ (List.mem_append_left _ h₁)
      have hw₂ : t₂ ∈ s.waiting := List.mem_append_right _ (List.mem_append_left _ h₂)
      show (Function.update s.tasks s.created task t₁).utime ≤
        (Function.update s.tasks s.created task t₂).utime
      rw [hwait t₁ hw₁, hwait t₂ hw₂]
      exact hle
    · intro t ht
      show (Function.update s.tasks s.created task t).due ≤
        (Function.update s.tasks s.created task t).utime
      rw [hwait t ht]
      exact h.times t ht
    · intro p hp
      show (Function.update s.tasks s.created task p.1).due ≤ p.2 ∧ p.2 ≤ s.now ∧
        (Function.update s.tasks s.created task p.1).id ≠ 0
      rw [hold p.1 (h.inTime p hp).2.2]
      exact h.inTime p hp
    · refine h.again.imp_of_mem ?_
      intro p q hp _ hpq
      show p.1 = q.1 → (Function.update s.tasks s.created task p.1).cycle = true ∧
        q.2 + ((Function.update s.tasks s.created task p.1).delay : ℤ) ≤ p.2
      rw [hold p.1 (h.inTime p hp).2.2]
      exact hpq
    · intro p hp hw
      show s.current = some p.1 ∨ (Function.update s.tasks s.created task p.1).cycle = true ∧
        p.2 + ((Function.update s.tasks s.created task p.1).delay : ℤ) ≤
          (Function.update s.tasks s.created task p.1).utime
      rw [hold p.1 (h.inTime p hp).2.2]
      exact h.next p hp hw
    · intro t ht
      show (Function.update s.tasks s.created task t).id ≠ 0 ∧
        (_ → (Function.update s.tasks s.created task t).canceled = true)
      rw [hold t (h.stopped t ht).1]
      exact h.stopped t ht
    · intro id t
      show _ ↔ (Function.update s.tasks s.created task t).id = id ∧ id ≠ 0 ∧
        (Function.update s.tasks s.created task t).canceled = false ∧ t ∈ s.waiting
      constructor
      · intro hmem
        have href := (h.ref id t).1 hmem
        rw [hold t (href.1 ▸ href.2.1)]
        exact href
      · rintro ⟨hideq, hne, hrest⟩
        have hid' : (s.tasks t).id ≠ 0 := by
          rw [← hid t, hideq]
          exact hne
        rw [hold t hid'] at hideq hrest
        exact (h.ref id t).2 ⟨hideq, hne, hrest⟩
    · intro p hp
      show (Function.update s.tasks s.created task p.2).id = 0 ∧ p.2 < s.created + 1 ∧
        (Function.update s.tasks s.created task p.2).canceled = false ∧
        (Function.update s.tasks s.created task p.2).due ≤
          (Function.update s.tasks s.created task p.2).utime
      rcases List.mem_cons.1 hp with rfl | hp
      · rw [Function.update_self, ← htask]
        exact ⟨rfl, Nat.lt_succ_self _, rfl, le_rfl⟩
      · obtain ⟨hid', hlt, hrest⟩ := h.numbering p hp
        rw [Function.update_of_ne hlt.ne]
        exact ⟨hid', Nat.lt_succ_of_lt hlt, hrest⟩
    · intro t ht
      exact (hid t).trans (h.fresh t ((Nat.le_succ _).trans ht))

/-- **A task with an id of its own** is entered in the list and in the map. -/
theorem enterTask_inv {s : State} {thread thread' t : ℕ} (h : Inv s) (hmem : (thread', t) ∈ s.numbering)
    (hcareful : ∀ t, (s.tasks t).id ≠ s.lastEventId) : Inv (enterTask s thread t) := by
  obtain ⟨hid0, hlt, hcanceled, hdue⟩ := h.numbering _ hmem
  change (s.tasks t).id = 0 at hid0
  have hlast : s.lastEventId ≠ 0 := h.lastEventId (List.ne_nil_of_mem hmem)
  have hold : ∀ t', (s.tasks t').id ≠ 0 → t' ≠ t := by
    rintro t' hne rfl
    exact hne hid0
  have hwait : ∀ t' ∈ s.waiting, t' ≠ t := fun t' ht' => hold t' (h.entered t' ht')
  have hnew : ¬ ∃ p ∈ s.scheduledTasksRef, p.1 = s.lastEventId := by
    rintro ⟨⟨id, t'⟩, hp, heq⟩
    exact hcareful t' (((h.ref id t').1 hp).1.trans heq)
  have hother : ∀ t', t' ≠ t → (enterTask s thread t).tasks t' = s.tasks t' :=
    fun t' hne => Function.update_of_ne hne _ _
  have hself : (enterTask s thread t).tasks t = { s.tasks t with id := s.lastEventId } :=
    Function.update_self _ _ _
  have hwaiting : (enterTask s thread t).waiting.Perm (t :: s.waiting) := by
    show ((s.threadTasks ++ [(thread, t)]).map Prod.snd ++ (s.scheduledTasks ++ s.current.toList)).Perm _
    rw [List.map_append, List.append_assoc]
    exact List.perm_middle
  have hw : ∀ t', t' ∈ (enterTask s thread t).waiting ↔ t' = t ∨ t' ∈ s.waiting := by
    intro t'
    rw [hwaiting.mem_iff, List.mem_cons]
  have hexec : ∀ p ∈ s.executions, p.1 ≠ t := fun p hp => hold p.1 (h.inTime p hp).2.2
  refine ⟨h.events, h.expired, h.drained, ?_, ?_, ?_, ?_, ?_, ?_, ?_, ?_, ?_, h.running, ?_, ?_, ?_, ?_,
    fun _ => hlast⟩
  · rw [hwaiting.nodup_iff, List.nodup_cons]
    exact ⟨fun hmem => hwait t hmem rfl, h.once⟩
  · intro t' ht'
    rcases (hw t').1 ht' with rfl | ht'
    · rw [hself]
      exact hlast
    · rw [hother t' (hwait t' ht')]
      exact h.entered t' ht'
  · intro t₁ t₂ hne heq
    by_cases h₁ : t₁ = t
    · by_cases h₂ : t₂ = t
      · rw [h₁, h₂]
      · rw [h₁, hself, hother t₂ h₂] at heq
        exact absurd heq.symm (hcareful t₂)
    · by_cases h₂ : t₂ = t
      · rw [h₂, hself, hother t₁ h₁] at heq
        exact absurd heq (hcareful t₁)
      · rw [hother t₁ h₁] at hne heq
        rw [hother t₂ h₂] at heq
        exact h.distinct t₁ t₂ hne heq
  · intro t' hne
    by_cases heq : t' = t
    · exact Or.inl ((hw t').2 (Or.inl heq))
    · rw [hother t' heq] at hne ⊢
      exact (h.kept t' hne).imp_left fun hmem => (hw t').2 (Or.inr hmem)
  · refine h.sorted.imp_of_mem ?_
    intro t₁ t₂ h₁ h₂ hle
    have hw₁ : t₁ ∈ s.waiting := List.mem_append_right _ (List.mem_append_left _ h₁)
    have hw₂ : t₂ ∈ s.waiting := List.mem_append_right _ (List.mem_append_left _ h₂)
    rw [hother t₁ (hwait t₁ hw₁), hother t₂ (hwait t₂ hw₂)]
    exact hle
  · intro t' ht'
    rcases (hw t').1 ht' with rfl | ht'
    · rw [hself]
      exact hdue
    · rw [hother t' (hwait t' ht')]
      exact h.times t' ht'
  · intro p hp
    rw [hother p.1 (hexec p hp)]
    exact h.inTime p hp
  · refine h.again.imp_of_mem ?_
    intro p q hp _ hpq
    rw [hother p.1 (hexec p hp)]
    exact hpq
  · intro p hp hmem'
    rw [hother p.1 (hexec p hp)]
    exact h.next p hp (((hw p.1).1 hmem').resolve_left (hexec p hp))
  · intro t' ht'
    have hne := hold t' (h.stopped t' ht').1
    rw [hother t' hne]
    exact ⟨(h.stopped t' ht').1, fun hmem' => (h.stopped t' ht').2 (((hw t').1 hmem').resolve_left hne)⟩
  · intro id t'
    rw [hw]
    have href : (enterTask s thread t).scheduledTasksRef =
        s.scheduledTasksRef ++ [(s.lastEventId, t)] := if_neg hnew
    rw [href, List.mem_append, List.mem_singleton, h.ref]
    by_cases heq : t' = t
    · subst heq
      rw [hself]
      simp only [hid0, hcanceled, Prod.mk.injEq, and_true, true_or]
      constructor
      · rintro (⟨rfl, hne, -⟩ | rfl)
        · exact absurd rfl hne
        · exact ⟨rfl, hlast⟩
      · rintro ⟨rfl, -⟩
        exact Or.inr rfl
    · rw [hother t' heq]
      simp only [Prod.mk.injEq, heq, and_false, or_false, false_or]
  · intro p hp
    obtain ⟨hp, hne⟩ := List.mem_filter.1 hp
    have hne' : p.2 ≠ t := by simpa using hne
    rw [hother p.2 hne']
    exact h.numbering p hp
  · intro t' ht'
    have hne : t' ≠ t := by
      rintro rfl
      exact absurd hlt (not_lt.2 ht')
    rw [hother t' hne]
    exact h.fresh t' ht'

/-- Of the tasks that were to be stopped, those that wait are canceled or have the id. -/
theorem canceled_of_stops {s : State} (h : Inv s) (eventId : ℕ) {t : ℕ}
    (ht : t ∈ (s.waiting.filter fun t => (s.tasks t).id = eventId) ++ s.stops) :
    (s.tasks t).id ≠ 0 ∧ (t ∈ s.waiting → (s.tasks t).canceled ∨ (s.tasks t).id = eventId) := by
  rcases List.mem_append.1 ht with ht | ht
  · obtain ⟨hw, hid⟩ := List.mem_filter.1 ht
    exact ⟨h.entered t hw, fun _ => Or.inr (by simpa using hid)⟩
  · exact ⟨(h.stopped t ht).1, fun hw => Or.inl ((h.stopped t ht).2 hw)⟩

/-- The task with the id is canceled, and its references are forgotten. -/
theorem cancelTask_inv {s : State} (h : Inv s) {i t : ℕ} (hmem : (i, t) ∈ s.scheduledTasksRef) :
    Inv { ({ s with stops := (s.waiting.filter fun t => (s.tasks t).id = i) ++ s.stops } : State).setTask t
        { s.tasks t with canceled := true } with
      scheduledTasksRef := s.scheduledTasksRef.filter fun p => p.1 ≠ i } := by
  obtain ⟨hid, hne, -, hw⟩ := (h.ref i t).1 hmem
  generalize htask : ({ s.tasks t with canceled := true } : Task) = task
  have hids := field_update Task.id (show task.id = (s.tasks t).id by rw [← htask])
  have hcycles := field_update Task.cycle (show task.cycle = (s.tasks t).cycle by rw [← htask])
  have hdues := field_update Task.due (show task.due = (s.tasks t).due by rw [← htask])
  have hdelays := field_update Task.delay (show task.delay = (s.tasks t).delay by rw [← htask])
  have hutimes := field_update Task.utime (show task.utime = (s.tasks t).utime by rw [← htask])
  have hself : (Function.update s.tasks t task t).canceled = true := by
    rw [Function.update_self, ← htask]
  have hother : ∀ t', t' ≠ t →
      (Function.update s.tasks t task t').canceled = (s.tasks t').canceled :=
    fun t' hne' => by rw [Function.update_of_ne hne']
  have hmono : ∀ t', (s.tasks t').canceled = true →
      (Function.update s.tasks t task t').canceled = true := by
    intro t' hc
    by_cases heq : t' = t
    · rw [heq, hself]
    · rw [hother t' heq, hc]
  refine ⟨h.events, h.expired, h.drained, h.once, ?_, ?_, ?_, ?_, ?_, ?_, ?_, ?_, h.running, ?_, ?_,
    ?_, ?_, h.lastEventId⟩
  · intro t' ht'
    exact (hids t').symm ▸ h.entered t' ht'
  · intro t₁ t₂
    show (Function.update s.tasks t task t₁).id ≠ 0 →
      (Function.update s.tasks t task t₁).id = (Function.update s.tasks t task t₂).id → t₁ = t₂
    rw [hids, hids]
    exact h.distinct t₁ t₂
  · intro t'
    show (Function.update s.tasks t task t').id ≠ 0 → t' ∈ s.waiting ∨
      (Function.update s.tasks t task t').canceled = true ∨
        (Function.update s.tasks t task t').cycle = false ∧ ∃ p ∈ s.executions, p.1 = t'
    rw [hids, hcycles]
    intro hne'
    exact (h.kept t' hne').imp_right (Or.imp_left (hmono t'))
  · refine h.sorted.imp ?_
    intro t₁ t₂ hle
    show (Function.update s.tasks t task t₁).utime ≤ (Function.update s.tasks t task t₂).utime
    rw [hutimes, hutimes]
    exact hle
  · intro t' ht'
    show (Function.update s.tasks t task t').due ≤ (Function.update s.tasks t task t').utime
    rw [hdues, hutimes]
    exact h.times t' ht'
  · intro p hp
    show (Function.update s.tasks t task p.1).due ≤ p.2 ∧ p.2 ≤ s.now ∧
      (Function.update s.tasks t task p.1).id ≠ 0
    rw [hdues, hids]
    exact h.inTime p hp
  · refine h.again.imp ?_
    intro p q hpq
    show p.1 = q.1 → (Function.update s.tasks t task p.1).cycle = true ∧
      q.2 + ((Function.update s.tasks t task p.1).delay : ℤ) ≤ p.2
    rw [hcycles, hdelays]
    exact hpq
  · intro p hp hmem'
    show s.current = some p.1 ∨ (Function.update s.tasks t task p.1).cycle = true ∧
      p.2 + ((Function.update s.tasks t task p.1).delay : ℤ) ≤
        (Function.update s.tasks t task p.1).utime
    rw [hcycles, hdelays, hutimes]
    exact h.next p hp hmem'
  · intro t' ht'
    obtain ⟨hne', hcanceled⟩ := canceled_of_stops h i ht'
    show (Function.update s.tasks t task t').id ≠ 0 ∧
      (t' ∈ s.waiting → (Function.update s.tasks t task t').canceled = true)
    rw [hids]
    refine ⟨hne', ?_⟩
    intro hw'
    rcases hcanceled hw' with hc | hid'
    · exact hmono t' hc
    · rw [h.distinct t' t hne' (hid'.trans hid.symm)]
      exact hself
  · intro id t'
    show (id, t') ∈ s.scheduledTasksRef.filter _ ↔ (Function.update s.tasks t task t').id = id ∧
      id ≠ 0 ∧ (Function.update s.tasks t task t').canceled = false ∧ t' ∈ s.waiting
    rw [← hid, mem_filter_ref h (hid.symm ▸ hne), hids]
    by_cases heq : t' = t
    · subst heq
      rw [hself]
      constructor
      · rintro ⟨-, hno⟩
        exact absurd rfl hno
      · rintro ⟨-, -, hc, -⟩
        cases hc
    · rw [hother t' heq]
      exact and_iff_left heq
  · intro p hp
    obtain ⟨hid0, hlt, hc, hdue⟩ := h.numbering p hp
    have hne' : p.2 ≠ t := by
      intro heq
      rw [heq, hid] at hid0
      exact hne hid0
    show (Function.update s.tasks t task p.2).id = 0 ∧ p.2 < s.created ∧
      (Function.update s.tasks t task p.2).canceled = false ∧
      (Function.update s.tasks t task p.2).due ≤ (Function.update s.tasks t task p.2).utime
    rw [Function.update_of_ne hne']
    exact h.numbering p hp
  · intro t' ht'
    exact (hids t').trans (h.fresh t' ht')

/-- **A task that is stopped** is canceled wherever it waits. -/
theorem stopEvent_inv {s : State} (h : Inv s) (eventId : ℕ) : Inv (stopEvent s eventId) := by
  rw [stopEvent]
  simp only
  split
  · rename_i hfind
    refine ⟨h.events, h.expired, h.drained, h.once, h.entered, h.distinct, h.kept, h.sorted, h.times,
      h.inTime, h.again, h.next, h.running, ?_, h.ref, h.numbering, h.fresh, h.lastEventId⟩
    intro t ht
    obtain ⟨hne, hcanceled⟩ := canceled_of_stops h eventId ht
    refine ⟨hne, ?_⟩
    intro hw
    rcases hcanceled hw with hc | hid
    · exact hc
    · by_contra hnot
      have hmem : ((s.tasks t).id, t) ∈ s.scheduledTasksRef :=
        (h.ref _ t).2 ⟨rfl, hne, Bool.eq_false_iff.2 hnot, hw⟩
      have hno := List.find?_eq_none.1 hfind _ hmem
      exact hno (by simpa using hid)
  · rename_i i t hfind
    have hmem : (i, t) ∈ s.scheduledTasksRef := List.mem_of_find?_eq_some hfind
    have hi : i = eventId := by simpa using List.find?_some hfind
    subst hi
    exact cancelTask_inv h hmem

/-! ## Runs -/

/-- **Every careful step keeps the invariant.** -/
theorem step_inv {s : State} {a : Step} (h : Inv s) (hcareful : Careful s a) : Inv (step s a) := by
  cases a with
  | beginTurn ms =>
    rw [step]
    split_ifs with hphase
    · refine h.turn (s.now + ms) (by rw [State.current, hphase])
        (by intro t; exact Phase.noConfusion) (by omega) ?_
      intro current htasks
      cases htasks
    · exact h
  | executeEvent => exact executeEvent_inv h
  | endEvents =>
    rw [step]
    split_ifs with hphase
    · refine h.turn s.now (by rw [State.current, hphase.1]) ?_ le_rfl fun _ _ => hphase.2
      intro t heq
      cases heq
    · exact h
  | executeTask =>
    rw [step]
    split
    · rename_i t rest hphase hl
      split_ifs with hdue
      · exact executeTask_inv h hphase hl hdue
      · exact h
    · exact h
  | finishTask =>
    rw [step]
    split
    · rename_i t hphase
      exact finishTask_inv h hphase
    · exact h
  | endTasks =>
    rw [step]
    split_ifs with hphase
    · refine h.turn s.now (by rw [State.current, hphase.1]) ?_ le_rfl ?_
      · intro t heq
        cases heq
      · intro current htasks
        cases htasks
    · exact h
  | mergeThread =>
    rw [step]
    split
    · rename_i thread rest hphase
      exact mergeThread_inv h hphase
    · exact h
  | endTurn =>
    rw [step]
    split_ifs with hphase
    · refine h.turn s.now (by rw [State.current, hphase]) ?_ le_rfl ?_
      · intro t heq
        cases heq
      · intro current htasks
        cases htasks
    · exact h
  | addEvent thread expiresAfterMs => exact addEvent_inv h thread expiresAfterMs
  | newTask thread delay cycle => exact newTask_inv h thread delay cycle
  | enterTask thread =>
    rw [step]
    split
    · exact h
    · rename_i thread' t hfind
      exact enterTask_inv h (List.mem_of_find?_eq_some hfind) hcareful
  | stopEvent eventId => exact stopEvent_inv h eventId

/-- The dispatcher before its first turn. -/
def start (now : ℤ) (threads : ℕ) : State where
  now := now
  threads := threads
  threadEvents := []
  mainEvents := []
  tasks _ := ⟨0, 0, 0, false, false, 0⟩
  created := 0
  threadTasks := []
  scheduledTasks := []
  scheduledTasksRef := []
  lastEventId := 0
  numbering := []
  phase := .idle
  added := []
  finished := []
  executions := []
  stops := []

theorem start_inv (now : ℤ) (threads : ℕ) : Inv (start now threads) := by
  refine ⟨fun _ => rfl, ?_, ?_, List.nodup_nil, ?_, ?_, ?_, .nil, ?_, ?_, .nil, ?_, ?_, ?_, ?_, ?_,
    fun _ _ => rfl, fun hne => absurd rfl hne⟩
  · intro p hp
    cases hp
  · intro current htasks
    cases htasks
  · intro t ht
    cases ht
  · intro t t' hne
    exact absurd rfl hne
  · intro t hne
    exact absurd rfl hne
  · intro t ht
    cases ht
  · intro p hp
    cases hp
  · intro p hp
    cases hp
  · intro t ht
    cases ht
  · intro t ht
    cases ht
  · intro id t
    constructor
    · intro hmem
      cases hmem
    · rintro ⟨-, -, -, hw⟩
      cases hw
  · intro p hp
    cases hp

/-- **The dispatcher is orderly** in every state of a run in which every task gets an id of its
own. -/
theorem run_orderly (now : ℤ) (threads : ℕ) {l : List Step}
    (hl : Runs.Meets step Careful (start now threads) l) :
    Orderly (Runs.run step (start now threads) l) :=
  (Runs.invariant step (fun _ _ h hcareful => step_inv h hcareful) (start_inv now threads) hl).orderly

/-- One thread schedules a task, and the second turn of the loop executes it. -/
theorem run_orderly_one :
    Orderly (Runs.run step (start 1000 2) [.newTask 1 0 false, .enterTask 1, .beginTurn 0, .endEvents, .endTasks,
      .mergeThread, .mergeThread, .endTurn, .beginTurn 0, .endEvents, .executeTask]) := by
  refine run_orderly 1000 2 ⟨trivial, ?_, trivial, trivial, trivial, trivial, trivial, trivial, trivial, trivial,
    trivial, trivial⟩
  intro t
  by_cases ht : t = 0
  · subst ht
    decide
  · show (Function.update (start 1000 2).tasks 0 _ t).id ≠ _
    rw [Function.update_of_ne ht]
    exact (nextEventId_ne_zero 0).symm

/-- Two threads schedule a task at the same time and get the same id; the task of the second is
stopped, and the next turn executes it. -/
def sameId : List Step :=
  [.newTask 1 0 false, .newTask 2 0 false, .enterTask 1, .enterTask 2, .stopEvent 2, .beginTurn 0,
    .endEvents, .endTasks, .mergeThread, .mergeThread, .mergeThread, .endTurn, .beginTurn 0, .endEvents,
    .executeTask]

theorem not_run_orderly :
    ¬ ∀ (now : ℤ) (threads : ℕ) (l : List Step), Orderly (Runs.run step (start now threads) l) := by
  intro hall
  have hstopped := (hall 1000 3 sameId).stopped 1 (by decide) 1000
  exact hstopped (by decide)

end TiabloServer.Dispatcher
