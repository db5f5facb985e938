import TiabloServer.Lib.Runs

/-!
# The dispatcher

The dispatcher (`dispatcher.cpp`) executes the serial events and the scheduled tasks that tasks and
other threads hand over. A thread puts them into lists of its own; the loop of the dispatcher
executes the events and the tasks that are due and then takes over the lists of all threads. A
scheduled task is also in the map `scheduledTasksRef` under its id, through which `stopEvent` finds
it. The parallel groups are left out.

## Main definitions

* `Dispatcher.Careful` — the steps that give a task an id no other task has.
* `Dispatcher.Orderly` — every event and task is executed as it was asked for.
-/

namespace TiabloServer.Dispatcher

/-! ## State -/

/-- A serial event, with the thread that added it. -/
structure Event where
  number : ℕ
  thread : ℕ
  expiration : ℤ
  deriving DecidableEq, Repr

/-- `Task::hasExpired`. -/
def Event.hasExpired (e : Event) (now : ℤ) : Bool := e.expiration ≠ 0 ∧ e.expiration < now

/-- A scheduled task. Its id is 0 until it is asked for; `canceled` says that `func` is null, and
`due` is the time it was first scheduled for. -/
structure Task where
  id : ℕ
  utime : ℤ
  delay : ℕ
  cycle : Bool
  canceled : Bool
  due : ℤ
  deriving DecidableEq, Repr

/-- Where the loop of the dispatcher stands: between two turns, in `executeSerialEvents`, in
`executeScheduledEvents` (with the task it is executing), or in `mergeEvents`. -/
inductive Phase where
  | idle
  | events
  | tasks (current : Option ℕ)
  | merge (threads : List ℕ)
  deriving DecidableEq, Repr

/-- The dispatcher. The lists of the threads are kept in one list each, with the thread of every
entry. The entries that the loop has passed are taken out at once, as nobody sees them until they
are erased.

The last four fields are history: the events that were added, those whose turn has come (and whether
they were executed), the executions of tasks, the last one first, and the tasks that were
stopped. -/
structure State where
  now : ℤ
  threads : ℕ
  threadEvents : List Event
  mainEvents : List Event
  tasks : ℕ → Task
  created : ℕ
  threadTasks : List (ℕ × ℕ)
  scheduledTasks : List ℕ
  scheduledTasksRef : List (ℕ × ℕ)
  lastEventId : ℕ
  numbering : List (ℕ × ℕ)
  phase : Phase
  added : List Event
  finished : List (Event × Bool)
  executions : List (ℕ × ℤ)
  stops : List ℕ

namespace State

/-- The task that is being executed. -/
def current (s : State) : Option ℕ :=
  match s.phase with
  | .tasks current => current
  | _ => none

/-- The scheduled tasks that wait or are being executed. -/
def waiting (s : State) : List ℕ :=
  s.threadTasks.map Prod.snd ++ (s.scheduledTasks ++ s.current.toList)

/-- Changes a task. -/
def setTask (s : State) (t : ℕ) (task : Task) : State :=
  { s with tasks := Function.update s.tasks t task }

end State

/-- Puts a task behind those that are not due after it, as `btree_multiset` does. -/
def insertTask (tasks : ℕ → Task) (t : ℕ) : List ℕ → List ℕ
  | [] => [t]
  | t' :: l => if (tasks t').utime ≤ (tasks t).utime then t' :: insertTask tasks t l else t :: t' :: l

/-- The next value of `LAST_EVENT_ID`, an unsigned number of 64 bits that is never 0. -/
def nextEventId (last : ℕ) : ℕ := if (last + 1) % 2 ^ 64 = 0 then 1 else (last + 1) % 2 ^ 64

/-! ## Steps -/

/-- An atomic step. What a task does while it is executed are steps of their own. -/
inductive Step where
  /-- `UPDATE_OTSYS_TIME`, and the loop begins a turn. -/
  | beginTurn (ms : ℕ)
  /-- `executeSerialEvents`: the next event. -/
  | executeEvent
  /-- `executeSerialEvents` has come to its end. -/
  | endEvents
  /-- `executeScheduledEvents`: the next task, if it is due. -/
  | executeTask
  /-- `executeScheduledEvents`: what follows when the task was executed. -/
  | finishTask
  /-- `executeScheduledEvents` has come to its end. -/
  | endTasks
  /-- `mergeEvents`: the lists of the next thread. -/
  | mergeThread
  /-- `mergeEvents` has come to its end. -/
  | endTurn
  /-- `addEvent` by a thread. -/
  | addEvent (thread : ℕ) (expiresAfterMs : ℕ)
  /-- `scheduleEvent` or `cycleEvent` by a thread: the task is made and `LAST_EVENT_ID` is
  raised. -/
  | newTask (thread : ℕ) (delay : ℕ) (cycle : Bool)
  /-- `scheduleEvent`: the id is read, and the task is entered in the list and in the map. -/
  | enterTask (thread : ℕ)
  /-- `stopEvent`. -/
  | stopEvent (eventId : ℕ)

/-- The end of the execution of a task: a cycle is scheduled again, and another task is
forgotten. -/
def finishTask (s : State) (t : ℕ) : State :=
  let task := s.tasks t
  let s := { s with phase := .tasks none }
  if task.cycle then
    { s.setTask t { task with utime := s.now + task.delay } with
      threadTasks := s.threadTasks ++ [(0, t)] }
  else { s with scheduledTasksRef := s.scheduledTasksRef.filter fun p => p.1 ≠ task.id }

/-- `Task::execute` of the next task: a task that was stopped is forgotten. -/
def executeTask (s : State) (t : ℕ) (rest : List ℕ) : State :=
  let task := s.tasks t
  let s := { s with scheduledTasks := rest }
  if task.canceled then
    { s with scheduledTasksRef := s.scheduledTasksRef.filter fun p => p.1 ≠ task.id }
  else { s with phase := .tasks (some t), executions := (t, s.now) :: s.executions }

/-- `mergeEvents` of one thread. -/
def mergeThread (s : State) (thread : ℕ) (rest : List ℕ) : State :=
  { s with
    mainEvents := s.mainEvents ++ s.threadEvents.filter fun e => e.thread = thread
    threadEvents := s.threadEvents.filter fun e => e.thread ≠ thread
    scheduledTasks := ((s.threadTasks.filter fun p => p.1 = thread).map Prod.snd).foldl
      (fun l t => insertTask s.tasks t l) s.scheduledTasks
    threadTasks := s.threadTasks.filter fun p => p.1 ≠ thread
    phase := .merge rest }

/-- `scheduleEvent`, from where the id is read. -/
def enterTask (s : State) (thread t : ℕ) : State :=
  let id := s.lastEventId
  { s.setTask t { s.tasks t with id := id } with
    threadTasks := s.threadTasks ++ [(thread, t)]
    numbering := s.numbering.filter fun p => p.2 ≠ t
    scheduledTasksRef :=
      if ∃ p ∈ s.scheduledTasksRef, p.1 = id then s.scheduledTasksRef
      else s.scheduledTasksRef ++ [(id, t)] }

/-- `stopEvent`. The history says which tasks have the id. -/
def stopEvent (s : State) (eventId : ℕ) : State :=
  let s := { s with
    stops := (s.waiting.filter fun t => (s.tasks t).id = eventId) ++ s.stops }
  match s.scheduledTasksRef.find? fun p => p.1 = eventId with
  | none => s
  | some (_, t) =>
    { s.setTask t { s.tasks t with canceled := true } with
      scheduledTasksRef := s.scheduledTasksRef.filter fun p => p.1 ≠ eventId }

/-- The step function; a step that is not the next one of the loop does nothing. -/
def step (s : State) : Step → State
  | .beginTurn ms => if s.phase = .idle then { s with now := s.now + ms, phase := .events } else s
  | .executeEvent =>
    match s.phase, s.mainEvents with
    | .events, e :: rest =>
      { s with mainEvents := rest, finished := s.finished ++ [(e, !e.hasExpired s.now)] }
    | _, _ => s
  | .endEvents => if s.phase = .events ∧ s.mainEvents = [] then { s with phase := .tasks none } else s
  | .executeTask =>
    match s.phase, s.scheduledTasks with
    | .tasks none, t :: rest => if (s.tasks t).utime ≤ s.now then executeTask s t rest else s
    | _, _ => s
  | .finishTask =>
    match s.phase with
    | .tasks (some t) => finishTask s t
    | _ => s
  | .endTasks =>
    if s.phase = .tasks none ∧ ∀ t ∈ s.scheduledTasks.head?, s.now < (s.tasks t).utime then
      { s with phase := .merge (List.range s.threads) }
    else s
  | .mergeThread =>
    match s.phase with
    | .merge (thread :: rest) => mergeThread s thread rest
    | _ => s
  | .endTurn => if s.phase = .merge [] then { s with phase := .idle } else s
  | .addEvent thread expiresAfterMs =>
    let e : Event :=
      ⟨s.added.length, thread, if 0 < expiresAfterMs then s.now + expiresAfterMs else 0⟩
    { s with threadEvents := s.threadEvents ++ [e], added := s.added ++ [e] }
  | .newTask thread delay cycle =>
    if ∃ p ∈ s.numbering, p.1 = thread then s
    else
      { s.setTask s.created ⟨0, s.now + delay, delay, cycle, false, s.now + delay⟩ with
        created := s.created + 1
        lastEventId := nextEventId s.lastEventId
        numbering := (thread, s.created) :: s.numbering }
  | .enterTask thread =>
    match s.numbering.find? fun p => p.1 = thread with
    | none => s
    | some (_, t) => enterTask s thread t
  | .stopEvent eventId => stopEvent s eventId

/-! ## What is asked of the dispatcher -/

/-- **The events and the tasks are executed as they were asked for.** -/
structure Orderly (s : State) : Prop where
  /-- The events of a thread come to their turn in the order in which they were added, each once. -/
  events : ∀ thread, ((s.finished.map Prod.fst ++ (s.mainEvents ++ s.threadEvents)).filter
    fun e => e.thread = thread) = s.added.filter fun e => e.thread = thread
  /-- An event that was not executed at its turn had expired. -/
  expired : ∀ p ∈ s.finished, p.2 = false → p.1.expiration ≠ 0 ∧ p.1.expiration < s.now
  /-- When the scheduled tasks have their turn, the turn of all events taken over has come. -/
  drained : ∀ current, s.phase = .tasks current → s.mainEvents = []
  /-- A task waits in one place at most. -/
  once : s.waiting.Nodup
  /-- No task gets lost: it waits, was stopped, or was executed. -/
  kept : ∀ t, (s.tasks t).id ≠ 0 → t ∈ s.waiting ∨ (s.tasks t).canceled ∨
    ((s.tasks t).cycle = false ∧ ∃ p ∈ s.executions, p.1 = t)
  /-- The turn of the tasks ends when none that was taken over is due. -/
  punctual : ∀ threads, s.phase = .tasks none → (step s .endTasks).phase = .merge threads →
    ∀ t ∈ s.scheduledTasks, s.now < (s.tasks t).utime
  /-- No task is executed before its time. -/
  inTime : ∀ p ∈ s.executions, (s.tasks p.1).due ≤ p.2
  /-- Only a cycle is executed again, and after its delay. -/
  again : s.executions.Pairwise fun (later earlier : ℕ × ℤ) => later.1 = earlier.1 →
    (s.tasks later.1).cycle = true ∧ earlier.2 + ((s.tasks later.1).delay : ℤ) ≤ later.2
  /-- A task that was stopped is not executed any more. -/
  stopped : ∀ t ∈ s.stops, ∀ time, (step s .executeTask).executions ≠ (t, time) :: s.executions
  /-- The map has the ids of the tasks that wait or are being executed and were not stopped. -/
  ref : ∀ id t, (id, t) ∈ s.scheduledTasksRef ↔
    (s.tasks t).id = id ∧ id ≠ 0 ∧ (s.tasks t).canceled = false ∧ t ∈ s.waiting

/-- A step that gives a task an id no other task has: between the moment at which a thread raises
`LAST_EVENT_ID` and the moment at which it reads it no other thread raises it. -/
def Careful (s : State) : Step → Prop
  | .enterTask _ => ∀ t, (s.tasks t).id ≠ s.lastEventId
  | _ => True

end TiabloServer.Dispatcher
