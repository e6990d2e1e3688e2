/-
**The dispatcher of a local daemon.**

A client hands its compile to the daemon on its own machine and comes back for the result.  In
between the `TaskDispatcher` of `daemon/local/task_dispatcher.cpp` keeps the task in a table:
`QueueTask` puts it there, a thread of its own performs it, `WaitForTask` takes it out, and four
timers go over the table.  Two kinds of locks are involved, that of the table and one in every
`TaskDesc`.

The dispatcher is a machine here, and an input is what happens under one lock, or what one thread
does before another can see it.  A thread is in the state by how far it has come: the thread that
performs a task by the `Phase` of its `TaskDesc`, a call of `WaitForTask` by an entry of `calls`,
the timer that asks the scheduler by the request it has made.  What cache, scheduler, servants and
clients do is part of the input.  There is one clock.  `PerformTask` reads it under the lock; a
timer reads it before, and the time it works with may be an earlier one.

An answer of a servant that a compile still runs leaves the state as it is here.  No servant gives
it, as `DaemonServiceImpl::WaitForTask` returns an error status instead, and what the code makes of
it is undefined.

Main definitions:

* `Local.TaskDesc`, `Local.Phase`, `Local.WaitCall` — the objects and the threads;
* `Local.TaskDesc.perform` — the steps of `PerformTask`;
* `Local.TaskDispatcher`, `Local.taskDispatcher` — the dispatcher, as a machine;
* `Local.TaskDispatcher.Becomes` — what a step can do;
* `Local.Change`, `Local.CallChange` — what it can do to a task, and to a call.

Main results:

* `Local.next_becomes` — **what a step does**, once for all;
* `Local.next_descs_change`, `Local.next_descs_cases` — what it does to the tasks;
* `Local.next_lookup` — what it does to the table;
* `Local.next_calls_change`, `Local.next_calls_cases` — and to the calls.
-/

import Distribuild.LocalPerform
import Distribuild.Machine
import Distribuild.Table

set_option relaxedAutoImplicit false
set_option autoImplicit false

namespace Local

open Cloud (TimePoint minute)

/-! ### A task -/

/-- `TaskDesc::State`. -/
inductive TaskState
  | pending
  | ready
  | dispatched
  | done
deriving DecidableEq, Repr

/-- The order in which a task goes through its states. -/
def TaskState.rank : TaskState → ℕ
  | .pending => 0
  | .ready => 1
  | .dispatched => 2
  | .done => 3

/-- A `DistTask`, with the outputs that `OnCompleted` has been called with. -/
structure DistTask where
  task : CxxDistTask
  completions : List DistOutput := []
deriving DecidableEq, Repr

/-- `OnCompleted`. -/
def DistTask.onCompleted (t : DistTask) (output : DistOutput) : DistTask :=
  { t with completions := t.completions ++ [output] }

/-- How far the thread has come that performs a task, with its variable `task_grant`. -/
inductive Phase
  /-- `QueueTask` has made the object. -/
  | created
  /-- It is in `tasks_`, and `PerformPocoTask` is to be run. -/
  | queued
  /-- `PerformTask` has set the exit code and looks into the cache. -/
  | started
  /-- It looks for a compile to join. -/
  | cacheMissed
  /-- It is at the head of the loop that waits for a grant. -/
  | wanting
  /-- It has called `TaskGrantKeeper::Get`. -/
  | asking
  /-- It has got a grant. -/
  | holding (taskGrant : GrantDesc)
  /-- It submits the task. -/
  | submitting (taskGrant : GrantDesc)
  /-- It is at the head of the loop of `WaitServantTask`; without a grant if it has joined. -/
  | waiting (retries : ℕ) (taskGrant : Option GrantDesc)
  /-- It has called the servant. -/
  | polling (retries : ℕ) (taskGrant : Option GrantDesc)
  /-- What is deferred comes next. -/
  | finishing (taskGrant : Option GrantDesc)
  | ended
deriving DecidableEq, Repr

/-- `TaskDesc`.  The two times are there once they are set; nothing reads them. -/
structure TaskDesc where
  state : TaskState := .pending
  /-- `completion_event`, which is reset by the thread that waits for it. -/
  completionEvent : Bool := false
  taskId : UInt64
  task : Option DistTask
  startDeadline : TimePoint
  aborted : Bool := false
  output : DistOutput := { exitCode := 0 }
  readyTp : Option TimePoint := none
  completedTp : Option TimePoint := none
  taskGrantId : UInt64 := 0
  servantLocation : String := ""
  servantTaskId : UInt64 := 0
  lastKeepAliveTp : TimePoint := 0
  phase : Phase := .created
deriving DecidableEq, Repr

/-- The steps of `PerformTask`. -/
inductive PerformOp
  /-- The thread starts. -/
  | start
  /-- `TryReadCache`, with what it returns or raises.  As `CacheReader::TryRead` is, which begins with
  `return std::nullopt`, it always returns `none`; here it may do what its own code allows. -/
  | tryReadCache (outcome : Except Fault (Option DistOutput))
  /-- `TryFindTask` and `AddTaskRef`: the compile that is joined. -/
  | tryGetExistedResult (runningTask : Option RunningTaskDesc)
  /-- The condition of one of the two loops is evaluated. -/
  | check
  /-- `TaskGrantKeeper::Get` returns. -/
  | getGrant (taskGrant : Option GrantDesc)
  /-- The grant is written into the task. -/
  | setReady
  /-- `StartTask`, with what it returns. -/
  | startTask (taskId : Option UInt64)
  /-- The call of the servant in `WaitServantTask` brings this. -/
  | poll (reply : WaitReply)
  /-- What is deferred to the end of `PerformTask`. -/
  | complete

namespace TaskDesc

/-- The task takes part in a compile. -/
def join (desc : TaskDesc) (now : TimePoint) (runningTask : RunningTaskDesc) : TaskDesc :=
  { desc with
    lastKeepAliveTp := now
    readyTp := some now
    taskGrantId := 0
    servantLocation := runningTask.servantLocation
    servantTaskId := runningTask.servantTaskId
    state := .dispatched
    phase := .waiting kRetries none }

/-- What a call of the servant changes. -/
def poll (desc : TaskDesc) (retries : ℕ) (taskGrant : Option GrantDesc) (reply : WaitReply) :
    TaskDesc :=
  match waitServantTask reply with
  | .error _ => { desc with phase := .finishing taskGrant }
  | .ok (some result, _) => { desc with output := result, phase := .finishing taskGrant }
  | .ok (none, 1) => { desc with phase := .waiting retries taskGrant }
  | .ok (none, 3) =>
      { desc with output := { desc.output with exitCode := -125 }, phase := .finishing taskGrant }
  | .ok (none, _) => desc

/-- What is deferred: the task gets its output, and the event is set. -/
def complete (desc : TaskDesc) (now : TimePoint) (t : DistTask) : TaskDesc :=
  { desc with
    task := some (t.onCompleted desc.output)
    state := .done
    completedTp := some now
    completionEvent := true
    phase := .ended }

/-- **The steps of `PerformTask`.**  A step that the thread is not at does nothing. -/
def perform (desc : TaskDesc) (now : TimePoint) : PerformOp → TaskDesc
  | .start =>
      match desc.phase with
      | .queued =>
          { desc with output := { desc.output with exitCode := -114514 }, phase := .started }
      | _ => desc
  | .tryReadCache outcome =>
      match desc.phase, outcome with
      | .started, .error _ => { desc with phase := .finishing none }
      | .started, .ok none => { desc with phase := .cacheMissed }
      | .started, .ok (some output) => { desc with output := output, phase := .finishing none }
      | _, _ => desc
  | .tryGetExistedResult runningTask =>
      match desc.phase, runningTask with
      | .cacheMissed, none => { desc with phase := .wanting }
      | .cacheMissed, some runningTask => desc.join now runningTask
      | _, _ => desc
  | .check =>
      match desc.phase with
      | .wanting =>
          { desc with phase := if desc.aborted then .finishing none else .asking }
      | .waiting retries taskGrant =>
          { desc with
            phase :=
              if retries = 0 ∨ desc.aborted then .finishing taskGrant
              else .polling (retries - 1) taskGrant }
      | _ => desc
  | .getGrant taskGrant =>
      match desc.phase, taskGrant with
      | .asking, none => { desc with phase := .wanting }
      | .asking, some grant => { desc with phase := .holding grant }
      | _, _ => desc
  | .setReady =>
      match desc.phase with
      | .holding grant =>
          { desc with
            lastKeepAliveTp := now
            readyTp := some now
            taskGrantId := grant.grantId
            servantLocation := grant.servantLocation
            state := .ready
            phase := .submitting grant }
      | _ => desc
  | .startTask taskId =>
      match desc.phase, taskId with
      | .submitting grant, none => { desc with phase := .finishing (some grant) }
      | .submitting grant, some taskId =>
          { desc with
            state := .dispatched
            servantTaskId := taskId
            phase := .waiting kRetries (some grant) }
      | _, _ => desc
  | .poll reply =>
      match desc.phase with
      | .polling retries taskGrant => desc.poll retries taskGrant reply
      | _ => desc
  | .complete =>
      match desc.phase, desc.task with
      | .finishing _, some t => desc.complete now t
      | _, _ => desc

/-! ### What the timers look for -/

/-- `OnTimerKeepAlive` has to do with the task: it has left `Pending`, and it is neither `Done` nor
aborted. -/
def underway (desc : TaskDesc) : Bool :=
  desc.state != .pending && desc.state != .done && !desc.aborted

/-- It was kept alive for the last time long ago. -/
def stale (desc : TaskDesc) (now : TimePoint) : Bool :=
  desc.underway && decide (now - desc.lastKeepAliveTp > minute)

/-- Its grant is put into the request. -/
def renews (desc : TaskDesc) (now : TimePoint) : Bool :=
  desc.underway && !decide (now - desc.lastKeepAliveTp > minute)

/-- `OnTimerClear` drops the task. -/
def clearable (desc : TaskDesc) (now : TimePoint) : Bool :=
  desc.state == .done && (desc.aborted || decide (desc.startDeadline + minute < now))

end TaskDesc

/-! ### The dispatcher -/

/-- `WaitStatus`. -/
inductive WaitStatus
  | ok
  | timeout
  | notFound
deriving DecidableEq, Repr

/-- How far a call of `WaitForTask` has come. -/
inductive WaitPhase
  /-- It has found the object and waits for the event. -/
  | found (desc : ℕ)
  /-- It has had the event. -/
  | awake (desc : ℕ)
  /-- It has erased the entry. -/
  | erased (desc : ℕ)
  | returned (status : WaitStatus) (task : Option DistTask)
deriving DecidableEq, Repr

/-- A call of `WaitForTask`. -/
structure WaitCall where
  taskId : UInt64
  phase : WaitPhase
deriving DecidableEq, Repr

/-- What `OnTimerKeepAlive` remembers while it asks the scheduler. -/
structure KeepAliveRequest where
  now : TimePoint
  taskIds : List UInt64
  taskGrantIds : List UInt64
deriving DecidableEq, Repr

/-- The state of the dispatcher.  An object is known by its place in `descs`, which holds all there
have been, and so is a call by its place in `calls`. -/
structure TaskDispatcher where
  clock : TimePoint := 0
  /-- `next_id` of `NextTaskId`. -/
  nextId : UInt64 := 0
  descs : List TaskDesc := []
  tasks : Table UInt64 ℕ := ∅
  calls : List WaitCall := []
  keepAlive : Option KeepAliveRequest := none

namespace TaskDispatcher

/-- The objects at some places are changed. -/
def modifyWhere (s : TaskDispatcher) (c : ℕ → Bool) (f : TaskDesc → TaskDesc) : TaskDispatcher :=
  { s with descs := s.descs.mapIdx fun p desc => if c p then f desc else desc }

/-- An entry of `tasks_` refers to the object. -/
def listed (s : TaskDispatcher) (p : ℕ) : Bool := s.tasks.entries.any fun e => e.2 == p

/-- The objects whose grants `OnTimerKeepAlive` puts into its request. -/
def collected (s : TaskDispatcher) (now : TimePoint) : List ℕ :=
  (s.tasks.entries.map fun e => e.2).filter fun p => (s.descs[p]?).any fun desc => desc.renews now

/-- The request for these objects. -/
def keepAliveRequest (s : TaskDispatcher) (now : TimePoint) : KeepAliveRequest where
  now := now
  taskIds := (s.collected now).filterMap fun p => (s.descs[p]?).map TaskDesc.taskId
  taskGrantIds := (s.collected now).filterMap fun p => (s.descs[p]?).map TaskDesc.taskGrantId

end TaskDispatcher

/-- What happens to the dispatcher. -/
inductive Input
  | tick (time : ℕ)
  /-- The order of the table is not specified. -/
  | rehash (rank : UInt64 → ℕ)
  /-- `QueueTask`: an object is made and gets an id. -/
  | newTask (task : CxxDistTask) (startDeadline : TimePoint)
  /-- `QueueTask`: the object is put into `tasks_`, and a thread is started for it. -/
  | insertTask (desc : ℕ)
  | perform (desc : ℕ) (op : PerformOp)
  /-- `WaitForTask`: the object is looked for. -/
  | waitFind (taskId : UInt64)
  /-- `WaitForTask`: `tryWait` returns. -/
  | waitEvent (call : ℕ)
  /-- `WaitForTask`: the entry is erased. -/
  | waitErase (call : ℕ)
  /-- `WaitForTask`: the task is moved to the caller. -/
  | waitMove (call : ℕ)
  | onTimerTimeoutAbort (now : TimePoint)
  /-- `OnTimerKeepAlive`, up to the call of the scheduler. -/
  | onTimerKeepAlive (now : TimePoint)
  /-- `OnTimerKeepAlive`, with the answer of the scheduler. -/
  | keptAlive (statues : Option (List Bool))
  /-- `OnTimerKilledAbort`, with what `IsProcAlive` finds. -/
  | onTimerKilledAbort (isProcAlive : ℤ → Bool)
  | onTimerClear (now : TimePoint)

namespace TaskDispatcher

variable (s : TaskDispatcher)

def newTask (task : CxxDistTask) (startDeadline : TimePoint) : TaskDispatcher :=
  { s with
    nextId := s.nextId + 1
    descs := s.descs ++
      [{ taskId := s.nextId + 1, task := some { task := task }, startDeadline := startDeadline }] }

def insertTask (p : ℕ) : TaskDispatcher :=
  match s.descs[p]? with
  | none => s
  | some desc =>
      if desc.phase = .created then
        { s.modifyWhere (· == p) fun desc => { desc with phase := .queued } with
          tasks := s.tasks.insert desc.taskId p }
      else s

def waitFind (taskId : UInt64) : TaskDispatcher :=
  match s.tasks.lookup taskId with
  | none => { s with calls := s.calls ++ [⟨taskId, .returned .notFound none⟩] }
  | some p => { s with calls := s.calls ++ [⟨taskId, .found p⟩] }

def waitEvent (k : ℕ) : TaskDispatcher :=
  match s.calls[k]? with
  | some ⟨taskId, .found p⟩ =>
      if (s.descs[p]?).any TaskDesc.completionEvent then
        { s.modifyWhere (· == p) fun desc => { desc with completionEvent := false } with
          calls := s.calls.set k ⟨taskId, .awake p⟩ }
      else { s with calls := s.calls.set k ⟨taskId, .returned .timeout none⟩ }
  | _ => s

def waitErase (k : ℕ) : TaskDispatcher :=
  match s.calls[k]? with
  | some ⟨taskId, .awake p⟩ =>
      { s with tasks := s.tasks.erase taskId, calls := s.calls.set k ⟨taskId, .erased p⟩ }
  | _ => s

def waitMove (k : ℕ) : TaskDispatcher :=
  match s.calls[k]? with
  | some ⟨taskId, .erased p⟩ =>
      { s.modifyWhere (· == p) fun desc => { desc with task := none } with
        calls := s.calls.set k ⟨taskId, .returned .ok ((s.descs[p]?).bind TaskDesc.task)⟩ }
  | _ => s

/-- `OnTimerTimeoutAbort`.  The state of a task is not looked at. -/
def onTimerTimeoutAbort (now : TimePoint) : TaskDispatcher :=
  s.modifyWhere s.listed fun desc =>
    if desc.startDeadline < now then { desc with aborted := true } else desc

def onTimerKeepAlive (now : TimePoint) : TaskDispatcher :=
  if s.keepAlive.isSome then s
  else
    { s.modifyWhere s.listed fun desc =>
        if desc.stale now then { desc with aborted := true } else desc with
      keepAlive := if s.collected now = [] then none else some (s.keepAliveRequest now) }

/-- The places of the tasks that the scheduler keeps alive. -/
def renewed (request : KeepAliveRequest) (statues : List Bool) (p : ℕ) : Bool :=
  (request.taskIds.zip statues).any fun answer =>
    answer.2 && (s.tasks.lookup answer.1 == some p)

def keptAlive (statues : Option (List Bool)) : TaskDispatcher :=
  match s.keepAlive, statues with
  | some request, some statues =>
      if statues.length ≠ request.taskGrantIds.length then { s with keepAlive := none }
      else
        { s.modifyWhere (s.renewed request statues) fun desc =>
            { desc with lastKeepAliveTp := request.now } with
          keepAlive := none }
  | _, _ => { s with keepAlive := none }

/-- `OnTimerKilledAbort`.  The task of an entry is never null (`Local.Sound`). -/
def onTimerKilledAbort (isProcAlive : ℤ → Bool) : TaskDispatcher :=
  s.modifyWhere s.listed fun desc =>
    if !desc.aborted && !(desc.task.any fun t => isProcAlive t.task.requesterPid) then
      { desc with aborted := true }
    else desc

def onTimerClear (now : TimePoint) : TaskDispatcher :=
  { s with tasks := s.tasks.filter fun _ p => !(s.descs[p]?).any fun desc => desc.clearable now }

end TaskDispatcher

/-- **The dispatcher as a machine.**  The time of a timer was read before: it is not later than the
clock. -/
def taskDispatcher : Machine TaskDispatcher Input Unit where
  step s input :=
    (match input with
      | .tick time => { s with clock := s.clock + time }
      | .rehash rank => { s with tasks := Table.rehash rank s.tasks }
      | .newTask task startDeadline => s.newTask task startDeadline
      | .insertTask p => s.insertTask p
      | .perform p op => s.modifyWhere (· == p) fun desc => desc.perform s.clock op
      | .waitFind taskId => s.waitFind taskId
      | .waitEvent k => s.waitEvent k
      | .waitErase k => s.waitErase k
      | .waitMove k => s.waitMove k
      | .onTimerTimeoutAbort now => s.onTimerTimeoutAbort (min now s.clock)
      | .onTimerKeepAlive now => s.onTimerKeepAlive (min now s.clock)
      | .keptAlive statues => s.keptAlive statues
      | .onTimerKilledAbort isProcAlive => s.onTimerKilledAbort isProcAlive
      | .onTimerClear now => s.onTimerClear (min now s.clock), ())

/-! ### What a step does -/

section Steps

variable {s : TaskDispatcher}

/-- The objects that an input makes. -/
def TaskDispatcher.made (s : TaskDispatcher) : Input → List TaskDesc
  | .newTask task startDeadline =>
      [{ taskId := s.nextId + 1, task := some { task := task }, startDeadline := startDeadline }]
  | _ => []

/-- The calls that an input makes. -/
def TaskDispatcher.called (s : TaskDispatcher) : Input → List WaitCall
  | .waitFind taskId =>
      match s.tasks.lookup taskId with
      | none => [⟨taskId, .returned .notFound none⟩]
      | some p => [⟨taskId, .found p⟩]
  | _ => []

/-- What a state can become by an input, with what has been tested before. -/
inductive TaskDispatcher.Becomes (s : TaskDispatcher) : Input → TaskDispatcher → Prop
  | stays {input : Input} : s.made input = [] → s.called input = [] → Becomes s input s
  | tick {time : ℕ} : Becomes s (.tick time) { s with clock := s.clock + time }
  | rehash {rank : UInt64 → ℕ} :
      Becomes s (.rehash rank) { s with tasks := Table.rehash rank s.tasks }
  | newTask {task : CxxDistTask} {startDeadline : TimePoint} :
      Becomes s (.newTask task startDeadline) (s.newTask task startDeadline)
  | inserted {p : ℕ} {desc : TaskDesc} : s.descs[p]? = some desc → desc.phase = .created →
      Becomes s (.insertTask p)
        { s.modifyWhere (· == p) fun desc => { desc with phase := .queued } with
          tasks := s.tasks.insert desc.taskId p }
  | performed {p : ℕ} {op : PerformOp} :
      Becomes s (.perform p op) (s.modifyWhere (· == p) fun desc => desc.perform s.clock op)
  | called {taskId : UInt64} :
      Becomes s (.waitFind taskId) { s with calls := s.calls ++ s.called (.waitFind taskId) }
  | timedOut {k p : ℕ} {taskId : UInt64} : s.calls[k]? = some ⟨taskId, .found p⟩ →
      Becomes s (.waitEvent k) { s with calls := s.calls.set k ⟨taskId, .returned .timeout none⟩ }
  | woken {k p : ℕ} {taskId : UInt64} {desc : TaskDesc} : s.calls[k]? = some ⟨taskId, .found p⟩ →
      s.descs[p]? = some desc → desc.completionEvent = true →
      Becomes s (.waitEvent k)
        { s.modifyWhere (· == p) fun desc => { desc with completionEvent := false } with
          calls := s.calls.set k ⟨taskId, .awake p⟩ }
  | erased {k p : ℕ} {taskId : UInt64} : s.calls[k]? = some ⟨taskId, .awake p⟩ →
      Becomes s (.waitErase k)
        { s with tasks := s.tasks.erase taskId, calls := s.calls.set k ⟨taskId, .erased p⟩ }
  | moved {k p : ℕ} {taskId : UInt64} : s.calls[k]? = some ⟨taskId, .erased p⟩ →
      Becomes s (.waitMove k)
        { s.modifyWhere (· == p) fun desc => { desc with task := none } with
          calls := s.calls.set k ⟨taskId, .returned .ok ((s.descs[p]?).bind TaskDesc.task)⟩ }
  | late {now : TimePoint} :
      Becomes s (.onTimerTimeoutAbort now) (s.onTimerTimeoutAbort (min now s.clock))
  | asked {now : TimePoint} : s.keepAlive = none →
      Becomes s (.onTimerKeepAlive now)
        { s.modifyWhere s.listed fun desc =>
            if desc.stale (min now s.clock) then { desc with aborted := true } else desc with
          keepAlive := if s.collected (min now s.clock) = [] then none
            else some (s.keepAliveRequest (min now s.clock)) }
  | unanswered {statues : Option (List Bool)} :
      Becomes s (.keptAlive statues) { s with keepAlive := none }
  | answered {request : KeepAliveRequest} {statues : List Bool} : s.keepAlive = some request →
      Becomes s (.keptAlive (some statues))
        { s.modifyWhere (s.renewed request statues) fun desc =>
            { desc with lastKeepAliveTp := request.now } with
          keepAlive := none }
  | orphaned {isProcAlive : ℤ → Bool} :
      Becomes s (.onTimerKilledAbort isProcAlive) (s.onTimerKilledAbort isProcAlive)
  | cleared {now : TimePoint} : Becomes s (.onTimerClear now) (s.onTimerClear (min now s.clock))

/-- **What a step does.** -/
theorem next_becomes (s : TaskDispatcher) (input : Input) :
    s.Becomes input (taskDispatcher.next s input) := by
  cases input with
  | tick time => exact .tick
  | rehash rank => exact .rehash
  | newTask task startDeadline => exact .newTask
  | insertTask p =>
      show s.Becomes (.insertTask p) (s.insertTask p)
      rw [TaskDispatcher.insertTask]
      cases hp : s.descs[p]? with
      | none => exact .stays rfl rfl
      | some desc =>
          by_cases hphase : desc.phase = .created
          · simp only [hphase, if_true]
            exact .inserted hp hphase
          · simp only [hphase, if_false]
            exact .stays rfl rfl
  | perform p op => exact .performed
  | waitFind taskId =>
      have hfind : s.waitFind taskId = { s with calls := s.calls ++ s.called (.waitFind taskId) } := by
        rw [TaskDispatcher.waitFind, TaskDispatcher.called]
        cases s.tasks.lookup taskId <;> rfl
      show s.Becomes (.waitFind taskId) (s.waitFind taskId)
      rw [hfind]
      exact .called
  | waitEvent k =>
      show s.Becomes (.waitEvent k) (s.waitEvent k)
      rw [TaskDispatcher.waitEvent]
      split
      · next taskId p hcall =>
          by_cases hevent : (s.descs[p]?).any TaskDesc.completionEvent = true
          · obtain ⟨desc, hp, hset⟩ := (Option.any_eq_true _ _).1 hevent
            rw [if_pos hevent]
            exact .woken hcall hp hset
          · rw [if_neg hevent]
            exact .timedOut hcall
      · exact .stays rfl rfl
  | waitErase k =>
      show s.Becomes (.waitErase k) (s.waitErase k)
      rw [TaskDispatcher.waitErase]
      split
      · next taskId p hcall => exact .erased hcall
      · exact .stays rfl rfl
  | waitMove k =>
      show s.Becomes (.waitMove k) (s.waitMove k)
      rw [TaskDispatcher.waitMove]
      split
      · next taskId p hcall => exact .moved hcall
      · exact .stays rfl rfl
  | onTimerTimeoutAbort now => exact .late
  | onTimerKeepAlive now =>
      show s.Becomes (.onTimerKeepAlive now) (s.onTimerKeepAlive (min now s.clock))
      rw [TaskDispatcher.onTimerKeepAlive]
      cases hbusy : s.keepAlive with
      | none => exact .asked hbusy
      | some request => exact .stays rfl rfl
  | keptAlive statues =>
      show s.Becomes (.keptAlive statues) (s.keptAlive statues)
      unfold TaskDispatcher.keptAlive
      split
      · next request statues hrequest =>
          by_cases hlength : statues.length ≠ request.taskGrantIds.length
          · rw [if_pos hlength]
            exact .unanswered
          · rw [if_neg hlength]
            exact .answered hrequest
      · exact .unanswered
  | onTimerKilledAbort isProcAlive => exact .orphaned
  | onTimerClear now => exact .cleared

/-! ### What a step does to the tasks -/

theorem TaskDispatcher.listed_iff {p : ℕ} :
    s.listed p = true ↔ ∃ taskId, s.tasks.lookup taskId = some p := by
  rw [listed, List.any_eq_true]
  constructor
  · rintro ⟨⟨taskId, q⟩, hmem, hq⟩
    rw [← eq_of_beq hq]
    exact ⟨taskId, Table.mem_entries_iff.1 hmem⟩
  · rintro ⟨taskId, hlook⟩
    exact ⟨⟨taskId, p⟩, Table.mem_entries_iff.2 hlook, beq_self_eq_true p⟩

theorem TaskDispatcher.getElem?_modifyWhere (c : ℕ → Bool) (f : TaskDesc → TaskDesc) (p : ℕ) :
    (s.modifyWhere c f).descs[p]? =
      (s.descs[p]?).map fun desc => if c p then f desc else desc := by
  rw [modifyWhere, List.getElem?_mapIdx]

/-- What a step can do to the object at a place. -/
inductive Change (s : TaskDispatcher) : Input → ℕ → TaskDesc → TaskDesc → Prop
  | unchanged {input : Input} {p : ℕ} {desc : TaskDesc} : Change s input p desc desc
  | inserted {p : ℕ} {desc : TaskDesc} : desc.phase = .created →
      Change s (.insertTask p) p desc { desc with phase := .queued }
  | performed {p : ℕ} {desc : TaskDesc} (op : PerformOp) :
      Change s (.perform p op) p desc (desc.perform s.clock op)
  | taken {k p : ℕ} {taskId : UInt64} {desc : TaskDesc} : s.calls[k]? = some ⟨taskId, .found p⟩ →
      desc.completionEvent = true →
      Change s (.waitEvent k) p desc { desc with completionEvent := false }
  | moved {k p : ℕ} {taskId : UInt64} {desc : TaskDesc} : s.calls[k]? = some ⟨taskId, .erased p⟩ →
      Change s (.waitMove k) p desc { desc with task := none }
  | timedOut {now : TimePoint} {p : ℕ} {desc : TaskDesc} : s.listed p = true →
      desc.startDeadline < min now s.clock →
      Change s (.onTimerTimeoutAbort now) p desc { desc with aborted := true }
  | stale {now : TimePoint} {p : ℕ} {desc : TaskDesc} : s.listed p = true → s.keepAlive = none →
      desc.stale (min now s.clock) = true →
      Change s (.onTimerKeepAlive now) p desc { desc with aborted := true }
  | keptAlive {statues : Option (List Bool)} {p : ℕ} {desc : TaskDesc} (now : TimePoint) :
      Change s (.keptAlive statues) p desc { desc with lastKeepAliveTp := now }
  | killed {isProcAlive : ℤ → Bool} {p : ℕ} {desc : TaskDesc} : s.listed p = true →
      desc.aborted = false →
      (desc.task.any fun t => isProcAlive t.task.requesterPid) = false →
      Change s (.onTimerKilledAbort isProcAlive) p desc { desc with aborted := true }

theorem TaskDispatcher.descs_modifyWhere_false (f : TaskDesc → TaskDesc) :
    (s.modifyWhere (fun _ => false) f).descs = s.descs := by
  rw [modifyWhere]
  exact List.ext_getElem? fun p => by rw [List.getElem?_mapIdx]; simp

/-- **What a step does to the objects**: it changes some of them, and it makes new ones. -/
theorem next_descs (s : TaskDispatcher) (input : Input) :
    ∃ c f, (taskDispatcher.next s input).descs = (s.modifyWhere c f).descs ++ s.made input ∧
      ∀ p desc, s.descs[p]? = some desc → c p = true → Change s input p desc (f desc) := by
  have hsame : ∀ s' : TaskDispatcher, s'.descs = s.descs ++ s.made input →
      ∃ c f, s'.descs = (s.modifyWhere c f).descs ++ s.made input ∧
        ∀ p desc, s.descs[p]? = some desc → c p = true → Change s input p desc (f desc) := by
    intro s' hs'
    refine ⟨fun _ => false, id, ?_, fun p desc _ hc => by cases hc⟩
    rw [TaskDispatcher.descs_modifyWhere_false, hs']
  have hmodify : ∀ (s' : TaskDispatcher) (c : ℕ → Bool) (f : TaskDesc → TaskDesc),
      s'.descs = (s.modifyWhere c f).descs → s.made input = [] →
      (∀ p desc, s.descs[p]? = some desc → c p = true → Change s input p desc (f desc)) →
      ∃ c f, s'.descs = (s.modifyWhere c f).descs ++ s.made input ∧
        ∀ p desc, s.descs[p]? = some desc → c p = true → Change s input p desc (f desc) := by
    intro s' c f hs' hmade hchange
    exact ⟨c, f, by rw [hs', hmade, List.append_nil], hchange⟩
  have hstep := next_becomes s input
  generalize taskDispatcher.next s input = s' at hstep ⊢
  cases hstep with
  | stays hmade _ => exact hsame _ (by rw [hmade, List.append_nil])
  | newTask => exact hsame _ rfl
  | tick | rehash | called | timedOut | erased | cleared | unanswered =>
      exact hsame _ (List.append_nil _).symm
  | @inserted q other hq hphase =>
      refine hmodify _ _ _ rfl rfl fun p desc h hpq => ?_
      obtain rfl : p = q := eq_of_beq hpq
      obtain rfl : desc = other := Option.some_inj.1 (h.symm.trans hq)
      exact .inserted hphase
  | @performed q op =>
      refine hmodify _ _ _ rfl rfl fun p desc _ hpq => ?_
      obtain rfl : p = q := eq_of_beq hpq
      exact .performed op
  | @woken k q taskId other hcall hq hset =>
      refine hmodify _ _ _ rfl rfl fun p desc h hpq => ?_
      obtain rfl : p = q := eq_of_beq hpq
      obtain rfl : desc = other := Option.some_inj.1 (h.symm.trans hq)
      exact .taken hcall hset
  | @moved k q taskId hcall =>
      refine hmodify _ _ _ rfl rfl fun p desc _ hpq => ?_
      obtain rfl : p = q := eq_of_beq hpq
      exact .moved hcall
  | @late now =>
      refine hmodify _ _ _ rfl rfl fun p desc _ hlisted => ?_
      by_cases hlate : desc.startDeadline < min now s.clock
      · rw [if_pos hlate]
        exact .timedOut hlisted hlate
      · rw [if_neg hlate]
        exact .unchanged
  | @asked now hbusy =>
      refine hmodify _ _ _ rfl rfl fun p desc _ hlisted => ?_
      by_cases hstale : desc.stale (min now s.clock) = true
      · rw [if_pos hstale]
        exact .stale hlisted hbusy hstale
      · rw [if_neg hstale]
        exact .unchanged
  | @answered request statues _ =>
      exact hmodify _ _ _ rfl rfl fun p desc _ _ => .keptAlive request.now
  | @orphaned isProcAlive =>
      refine hmodify _ _ _ rfl rfl fun p desc _ hlisted => ?_
      split_ifs with hkilled
      · rw [Bool.and_eq_true, Bool.not_eq_true', Bool.not_eq_true'] at hkilled
        exact .killed hlisted hkilled.1 hkilled.2
      · exact .unchanged

/-- Every object there is stays, changed or not. -/
theorem next_descs_change {p : ℕ} {desc : TaskDesc} (h : s.descs[p]? = some desc) (input : Input) :
    ∃ desc', (taskDispatcher.next s input).descs[p]? = some desc' ∧ Change s input p desc desc' := by
  obtain ⟨c, f, hnext, hchange⟩ := next_descs s input
  have hold : (s.modifyWhere c f).descs[p]? = some (if c p then f desc else desc) := by
    rw [TaskDispatcher.getElem?_modifyWhere, h, Option.map_some]
  refine ⟨if c p then f desc else desc, ?_, ?_⟩
  · rw [hnext, List.getElem?_append_left (List.getElem?_eq_some_iff.1 hold).1, hold]
  · by_cases hc : c p = true
    · rw [if_pos hc]
      exact hchange p desc h hc
    · rw [if_neg hc]
      exact .unchanged

/-- Objects are only made by `QueueTask`. -/
theorem length_next (s : TaskDispatcher) (input : Input) :
    (taskDispatcher.next s input).descs.length = s.descs.length + (s.made input).length := by
  obtain ⟨c, f, hnext, -⟩ := next_descs s input
  rw [hnext, List.length_append, TaskDispatcher.modifyWhere, List.length_mapIdx]

/-- An object is one there was before, or `QueueTask` has just made it. -/
theorem next_descs_cases {input : Input} {p : ℕ} {desc' : TaskDesc}
    (h : (taskDispatcher.next s input).descs[p]? = some desc') :
    (∃ desc, s.descs[p]? = some desc ∧ Change s input p desc desc') ∨
      (p = s.descs.length ∧ ∃ task startDeadline, input = .newTask task startDeadline ∧
        desc' = { taskId := s.nextId + 1, task := some { task := task },
                  startDeadline := startDeadline }) := by
  cases hp : s.descs[p]? with
  | some desc =>
      obtain ⟨desc'', hnext, hchange⟩ := next_descs_change hp input
      obtain rfl : desc' = desc'' := Option.some_inj.1 (h.symm.trans hnext)
      exact Or.inl ⟨desc, rfl, hchange⟩
  | none =>
      have hge := List.getElem?_eq_none_iff.1 hp
      have hlt := (List.getElem?_eq_some_iff.1 h).1
      rw [length_next] at hlt
      cases input with
      | newTask task startDeadline =>
          have hp' : p = s.descs.length := by
            simp only [TaskDispatcher.made, List.length_singleton] at hlt
            omega
          refine Or.inr ⟨hp', task, startDeadline, rfl, ?_⟩
          subst hp'
          have hnew : (taskDispatcher.next s (.newTask task startDeadline)).descs[s.descs.length]? =
              some _ := List.getElem?_concat_length
          exact Option.some_inj.1 (h.symm.trans hnew)
      | _ =>
          simp only [TaskDispatcher.made, List.length_nil] at hlt
          omega

/-! ### What a step does to the table and to the calls -/

/-- **What a step does to an entry of the table.**  Only `QueueTask` inserts, and an entry goes by a
call of `WaitForTask` that has had the event, or by `OnTimerClear`. -/
theorem next_lookup (s : TaskDispatcher) (input : Input) (taskId : UInt64) :
    (taskDispatcher.next s input).tasks.lookup taskId = s.tasks.lookup taskId ∨
    (∃ p desc, input = .insertTask p ∧ s.descs[p]? = some desc ∧ desc.phase = .created ∧
      desc.taskId = taskId ∧ (taskDispatcher.next s input).tasks.lookup taskId = some p) ∨
    (∃ k p, input = .waitErase k ∧ s.calls[k]? = some ⟨taskId, .awake p⟩ ∧
      (taskDispatcher.next s input).tasks.lookup taskId = none) ∨
    (∃ now p desc, input = .onTimerClear now ∧ s.tasks.lookup taskId = some p ∧
      s.descs[p]? = some desc ∧ desc.clearable (min now s.clock) = true ∧
      (taskDispatcher.next s input).tasks.lookup taskId = none) := by
  have hstep := next_becomes s input
  generalize taskDispatcher.next s input = s' at hstep ⊢
  cases hstep with
  | rehash => exact Or.inl (Table.lookup_rehash _ s.tasks taskId)
  | @inserted p desc hp hphase =>
      by_cases hid : desc.taskId = taskId
      · refine Or.inr (Or.inl ⟨p, desc, rfl, hp, hphase, hid, ?_⟩)
        rw [← hid]
        exact AList.lookup_insert _
      · exact Or.inl (AList.lookup_insert_ne (Ne.symm hid))
  | @erased k p id hcall =>
      by_cases hid : id = taskId
      · subst hid
        exact Or.inr (Or.inr (Or.inl ⟨k, p, rfl, hcall, AList.lookup_erase id s.tasks⟩))
      · exact Or.inl (AList.lookup_erase_ne (Ne.symm hid))
  | @cleared now =>
      have hfilter : (s.onTimerClear (min now s.clock)).tasks.lookup taskId =
          (s.tasks.lookup taskId).filter fun p =>
            !(s.descs[p]?).any fun desc => desc.clearable (min now s.clock) :=
        Table.lookup_filter _ s.tasks taskId
      cases hlook : s.tasks.lookup taskId with
      | none =>
          left
          rw [hfilter, hlook, Option.filter_none]
      | some p =>
          cases hclear : (s.descs[p]?).any fun desc => desc.clearable (min now s.clock) with
          | false =>
              left
              rw [hfilter, hlook, Option.filter_some, if_pos (by rw [hclear]; rfl)]
          | true =>
              obtain ⟨desc, hdesc, hc⟩ := (Option.any_eq_true _ _).1 hclear
              refine Or.inr (Or.inr (Or.inr ⟨now, p, desc, rfl, rfl, hdesc, hc, ?_⟩))
              rw [hfilter, hlook, Option.filter_some, if_neg (by rw [hclear]; decide)]
  | _ => exact Or.inl rfl

/-- What a step can do to the call at a place. -/
inductive CallChange (s : TaskDispatcher) : Input → ℕ → WaitCall → WaitCall → Prop
  | unchanged {input : Input} {k : ℕ} {call : WaitCall} : CallChange s input k call call
  | timedOut {k p : ℕ} {taskId : UInt64} :
      CallChange s (.waitEvent k) k ⟨taskId, .found p⟩ ⟨taskId, .returned .timeout none⟩
  | woken {k p : ℕ} {taskId : UInt64} {desc : TaskDesc} : s.descs[p]? = some desc →
      desc.completionEvent = true →
      CallChange s (.waitEvent k) k ⟨taskId, .found p⟩ ⟨taskId, .awake p⟩
  | erased {k p : ℕ} {taskId : UInt64} :
      CallChange s (.waitErase k) k ⟨taskId, .awake p⟩ ⟨taskId, .erased p⟩
  | moved {k p : ℕ} {taskId : UInt64} :
      CallChange s (.waitMove k) k ⟨taskId, .erased p⟩
        ⟨taskId, .returned .ok ((s.descs[p]?).bind TaskDesc.task)⟩

/-- **What a step does to the calls**: it changes one of them, or it makes a new one. -/
theorem next_calls (s : TaskDispatcher) (input : Input) :
    (taskDispatcher.next s input).calls = s.calls ++ s.called input ∨
    ∃ k call call', s.calls[k]? = some call ∧ CallChange s input k call call' ∧
      (taskDispatcher.next s input).calls = s.calls.set k call' := by
  have hstep := next_becomes s input
  generalize taskDispatcher.next s input = s' at hstep ⊢
  cases hstep with
  | stays _ hcalled => exact Or.inl (by rw [hcalled, List.append_nil])
  | called => exact Or.inl rfl
  | timedOut hcall => exact Or.inr ⟨_, _, _, hcall, .timedOut, rfl⟩
  | woken hcall hp hset => exact Or.inr ⟨_, _, _, hcall, .woken hp hset, rfl⟩
  | erased hcall => exact Or.inr ⟨_, _, _, hcall, .erased, rfl⟩
  | moved hcall => exact Or.inr ⟨_, _, _, hcall, .moved, rfl⟩
  | _ => exact Or.inl (List.append_nil _).symm

/-- Every call there is stays, changed or not. -/
theorem next_calls_change {k : ℕ} {call : WaitCall} (h : s.calls[k]? = some call) (input : Input) :
    ∃ call', (taskDispatcher.next s input).calls[k]? = some call' ∧
      CallChange s input k call call' := by
  have hlt := (List.getElem?_eq_some_iff.1 h).1
  rcases next_calls s input with hnext | ⟨j, other, call', hj, hchange, hnext⟩
  · exact ⟨call, by rw [hnext, List.getElem?_append_left hlt, h], .unchanged⟩
  · by_cases hjk : j = k
    · subst hjk
      obtain rfl : other = call := Option.some_inj.1 (hj.symm.trans h)
      exact ⟨call', by rw [hnext, List.getElem?_set_self hlt], hchange⟩
    · exact ⟨call, by rw [hnext, List.getElem?_set_ne hjk, h], .unchanged⟩

/-- A call is one there was before, or it has just been made. -/
theorem next_calls_cases {input : Input} {k : ℕ} {call' : WaitCall}
    (h : (taskDispatcher.next s input).calls[k]? = some call') :
    (∃ call, s.calls[k]? = some call ∧ CallChange s input k call call') ∨
      call' ∈ s.called input := by
  cases hk : s.calls[k]? with
  | some call =>
      obtain ⟨call'', hnext, hchange⟩ := next_calls_change hk input
      obtain rfl : call' = call'' := Option.some_inj.1 (h.symm.trans hnext)
      exact Or.inl ⟨call, rfl, hchange⟩
  | none =>
      right
      have hge := List.getElem?_eq_none_iff.1 hk
      rcases next_calls s input with hnext | ⟨j, other, call'', hj, -, hnext⟩
      · rw [hnext, List.getElem?_append_right hge] at h
        exact List.mem_of_getElem? h
      · rw [hnext, List.getElem?_eq_none_iff.2 (by rwa [List.length_set])] at h
        cases h

/-- What a step does to the rest: it counts the objects it makes, the clock never goes back, and a
request to the scheduler is made by `OnTimerKeepAlive`. -/
theorem next_frame (s : TaskDispatcher) (input : Input) :
    (taskDispatcher.next s input).nextId = s.nextId + UInt64.ofNat (s.made input).length ∧
    s.clock ≤ (taskDispatcher.next s input).clock ∧
    ((taskDispatcher.next s input).keepAlive = s.keepAlive ∨
      (taskDispatcher.next s input).keepAlive = none ∨
      ∃ now, input = .onTimerKeepAlive now ∧ s.keepAlive = none ∧
        (taskDispatcher.next s input).keepAlive = some (s.keepAliveRequest (min now s.clock))) := by
  have hnone : s.nextId = s.nextId + UInt64.ofNat ([] : List TaskDesc).length := by
    rw [List.length_nil]
    exact (UInt64.add_zero _).symm
  have hstep := next_becomes s input
  generalize taskDispatcher.next s input = s' at hstep ⊢
  cases hstep with
  | stays hmade _ => exact ⟨by rw [hmade, ← hnone], le_rfl, Or.inl rfl⟩
  | tick => exact ⟨hnone, Nat.le_add_right _ _, Or.inl rfl⟩
  | newTask => exact ⟨rfl, le_rfl, Or.inl rfl⟩
  | @asked now hbusy =>
      refine ⟨hnone, le_rfl, ?_⟩
      by_cases hempty : s.collected (min now s.clock) = []
      · exact Or.inr (Or.inl (if_pos hempty))
      · exact Or.inr (Or.inr ⟨now, rfl, hbusy, if_neg hempty⟩)
  | unanswered | answered => exact ⟨hnone, le_rfl, Or.inr (Or.inl rfl)⟩
  | _ => exact ⟨hnone, le_rfl, Or.inl rfl⟩

end Steps

end Local
