/-
**Joining a compile that a servant already runs.**

`TaskRunKeeper` of `daemon/local/task_run_keeper.cpp` asks the scheduler once a second which
compiles run on which servants.  When a task is looked for there and found, `TryGetExistedResult`
adds a reference to the servant's task, waits for it and gives the reference back.  All three calls
go through one stub, and the stub is made for `task_desc->servant_location`, which is set only after
the first call has succeeded: the place that `TryFindTask` has returned is written into the task,
and no call is ever made to it.

The dispatcher, the keeper and the calls of the threads that join are one machine here.  What a
thread keeps in local variables while it waits, the compile it has found and the stub, is part of
the state, and so are all calls there have been.  The scheduler, the servants and the transport are
inputs.

Main definitions:

* `Local.TaskRunKeeper` — the keeper, with `tryFindTask` and `onTimerRefresh`;
* `Local.TaskDesc.servantCalls` — what `WaitServantTask` and `FreeServantTask` call in a step;
* `Local.Joiner`, `Local.joiner` — dispatcher, keeper and calls, as a machine;
* `Local.JoinsServant` — **what joining is for**: the calls reach the servant that runs the compile;
* `Local.Joiner.Sound` — the invariant.

Main results:

* `Local.tryFindTask_onTimerRefresh` — the compile that is found is the last one reported;
* `Local.Joiner.Sound.next` — what a step keeps: a task that has not been placed has no location;
* `Local.joinsServant_iff` — **when the calls reach the servant**: exactly if the location is empty;
* `Local.calls_astray` — a servant that has a location is never called;
* `Local.join_goes_nowhere` — a compile that is found and not reached.
-/

import Distribuild.CompileIdentity
import Distribuild.LocalLifecycle

set_option relaxedAutoImplicit false
set_option autoImplicit false

namespace Local

open Cloud (TimePoint)
open Scheduler (Status)

/-! ### The keeper of running tasks -/

/-- `TaskRunKeeper`. -/
structure TaskRunKeeper where
  runningTasks : Table Bytes RunningTaskDesc := ∅
  lastUpdateTime : TimePoint := 0

/-- The five seconds after which `OnTimerRefresh` forgets what it was told. -/
def forgetAfter : TimePoint := 5 * 1000000000

namespace TaskRunKeeper

def tryFindTask (k : TaskRunKeeper) (taskDigest : Bytes) : Option RunningTaskDesc :=
  k.runningTasks.lookup taskDigest

/-- What is kept of a task that the scheduler reports. -/
def descOf (task : Scheduler.RunningTask) : RunningTaskDesc where
  servantLocation := task.servantLocation
  servantTaskId := task.servantTaskId

/-- The table that `OnTimerRefresh` makes of an answer. -/
def tmpRunningTasks (running : List Scheduler.RunningTask) : Table Bytes RunningTaskDesc :=
  running.foldl (fun tmp task => tmp.insert (Bytes.ofString task.taskDigest) (descOf task)) ∅

/-- `OnTimerRefresh`, with the answer of the scheduler if the call succeeds. -/
def onTimerRefresh (k : TaskRunKeeper) (now : TimePoint) :
    Option (List Scheduler.RunningTask) → TaskRunKeeper
  | none =>
      if now - k.lastUpdateTime > forgetAfter then { k with runningTasks := ∅ } else k
  | some running => { runningTasks := tmpRunningTasks running, lastUpdateTime := now }

end TaskRunKeeper

/-- **The compile that is found is the last one reported** with its digest. -/
theorem tryFindTask_onTimerRefresh (k : TaskRunKeeper) (now : TimePoint)
    (running : List Scheduler.RunningTask) (taskDigest : Bytes) :
    (k.onTimerRefresh now (some running)).tryFindTask taskDigest =
      (running.reverse.find? fun task => Bytes.ofString task.taskDigest == taskDigest).map
        TaskRunKeeper.descOf := by
  show (TaskRunKeeper.tmpRunningTasks running).lookup taskDigest = _
  induction running using List.reverseRecOn with
  | nil => rfl
  | append_singleton running task ih =>
      rw [TaskRunKeeper.tmpRunningTasks, List.foldl_append, List.reverse_append]
      by_cases hdigest : Bytes.ofString task.taskDigest = taskDigest
      · subst hdigest
        simp
      · simp only [List.foldl_cons, List.foldl_nil, List.reverse_singleton, List.singleton_append]
        rw [AList.lookup_insert_ne (Ne.symm hdigest), List.find?_cons_of_neg (by simpa using hdigest)]
        exact ih

/-! ### The calls of a thread that joins -/

/-- The calls of `TryGetExistedResult`. -/
inductive ServantCall
  | addTaskRef
  | waitForTask
  | freeTask
deriving DecidableEq, Repr

/-- A call that has been made: for which task and which compile that was found, to which place, and
which task of the servant it names. -/
structure JoinRpc where
  desc : ℕ
  runningTask : RunningTaskDesc
  servantLocation : String
  call : ServantCall
  taskId : UInt64
deriving DecidableEq, Repr

/-- What a thread keeps while it waits for a compile that it has joined: `running_task`, and the
place that `stub` calls. -/
structure Joining where
  runningTask : RunningTaskDesc
  stub : String
deriving DecidableEq, Repr

/-- The calls in a step of `WaitServantTask(stub, task_desc)`.  `FreeServantTask` follows when the
loop is left, except by an exception. -/
def TaskDesc.servantCalls (desc : TaskDesc) : PerformOp → List ServantCall
  | .check =>
      match desc.phase with
      | .waiting retries _ => if retries = 0 ∨ desc.aborted then [.freeTask] else []
      | _ => []
  | .poll reply =>
      match desc.phase with
      | .polling _ _ =>
          match waitServantTask reply with
          | .ok (some _, _) => [.waitForTask, .freeTask]
          | .ok (none, 3) => [.waitForTask, .freeTask]
          | _ => [.waitForTask]
      | _ => []
  | _ => []

/-! ### The machine -/

/-- The dispatcher with its `TaskRunKeeper`, the threads that have joined a compile, and all calls
that were made to join. -/
structure Joiner where
  dispatcher : TaskDispatcher := {}
  taskRunKeeper : TaskRunKeeper := {}
  joining : Table ℕ Joining := ∅
  rpcs : List JoinRpc := []

inductive JoinInput
  /-- `TaskRunKeeper::OnTimerRefresh`, with the answer of the scheduler. -/
  | onTimerRefresh (running : Option (List Scheduler.RunningTask))
  /-- `TryGetExistedResult` up to the wait, with the status of `AddTaskRef`. -/
  | tryGetExistedResult (desc : ℕ) (addTaskRef : Status)
  /-- Anything else that happens to the dispatcher. -/
  | dispatcher (input : Input)

namespace Joiner

/-- The task at a place, when its thread has come to `TryGetExistedResult`, and what `TryFindTask`
returns for its digest. -/
def arrived (hasher : Hasher) (s : Joiner) (p : ℕ) : Option (TaskDesc × Option RunningTaskDesc) :=
  match s.dispatcher.descs[p]? with
  | none => none
  | some desc =>
      match desc.phase, desc.task with
      | .cacheMissed, some t =>
          some (desc, s.taskRunKeeper.tryFindTask (t.task.getDigest hasher))
      | _, _ => none

/-- `TryGetExistedResult` up to the wait.  The stub is made for the location of the task. -/
def tryGetExistedResult (hasher : Hasher) (s : Joiner) (p : ℕ) (addTaskRef : Status) : Joiner :=
  match s.arrived hasher p with
  | none => s
  | some (_, none) =>
      { s with
        dispatcher := taskDispatcher.next s.dispatcher (.perform p (.tryGetExistedResult none)) }
  | some (desc, some runningTask) =>
      let rpc : JoinRpc :=
        { desc := p
          runningTask := runningTask
          servantLocation := desc.servantLocation
          call := .addTaskRef
          taskId := runningTask.servantTaskId }
      if addTaskRef.code ≠ .ok then
        { s with
          dispatcher := taskDispatcher.next s.dispatcher (.perform p (.tryGetExistedResult none))
          rpcs := s.rpcs ++ [rpc] }
      else
        { s with
          dispatcher :=
            taskDispatcher.next s.dispatcher (.perform p (.tryGetExistedResult (some runningTask)))
          joining := s.joining.insert p { runningTask := runningTask, stub := desc.servantLocation }
          rpcs := s.rpcs ++ [rpc] }

/-- The calls in a step of a thread that has joined: they name the task that is recorded. -/
def waitRpcs (s : Joiner) : Input → List JoinRpc
  | .perform p op =>
      match s.joining.lookup p, s.dispatcher.descs[p]? with
      | some joining, some desc =>
          (desc.servantCalls op).map fun call =>
            { desc := p
              runningTask := joining.runningTask
              servantLocation := joining.stub
              call := call
              taskId := desc.servantTaskId }
      | _, _ => []
  | _ => []

/-- Anything else.  (`TryGetExistedResult` has its own input.) -/
def act (s : Joiner) : Input → Joiner
  | .perform _ (.tryGetExistedResult _) => s
  | input =>
      { s with
        dispatcher := taskDispatcher.next s.dispatcher input
        rpcs := s.rpcs ++ s.waitRpcs input }

end Joiner

/-- **Dispatcher, keeper and calls, as a machine.** -/
def joiner (hasher : Hasher) : Machine Joiner JoinInput Unit where
  step s input :=
    (match input with
      | .onTimerRefresh running =>
          { s with taskRunKeeper := s.taskRunKeeper.onTimerRefresh s.dispatcher.clock running }
      | .tryGetExistedResult p addTaskRef => s.tryGetExistedResult hasher p addTaskRef
      | .dispatcher input => s.act input, ())

/-- The thread of the task at a place has come to `TryGetExistedResult`, and the keeper maps the
digest of the task to a compile. -/
def Joiner.Finds (hasher : Hasher) (s : Joiner) (p : ℕ) (runningTask : RunningTaskDesc) : Prop :=
  ∃ desc, s.arrived hasher p = some (desc, some runningTask)

/-- **What joining is for**: every call goes to the servant that runs the compile and names its task
there, and both are recorded in the task as soon as there is a reference. -/
structure JoinsServant (s : Joiner) : Prop where
  rpcs : ∀ rpc ∈ s.rpcs, rpc.servantLocation = rpc.runningTask.servantLocation ∧
    rpc.taskId = rpc.runningTask.servantTaskId
  recorded : ∀ (p : ℕ) (joining : Joining), s.joining.lookup p = some joining →
    ∃ desc, s.dispatcher.descs[p]? = some desc ∧
      desc.servantLocation = joining.runningTask.servantLocation ∧
      desc.servantTaskId = joining.runningTask.servantTaskId

/-! ### What a step does -/

/-- What a step can do. -/
inductive Joiner.Becomes (hasher : Hasher) (s : Joiner) : JoinInput → Joiner → Prop
  | ignored {input : Input} : Becomes hasher s (.dispatcher input) s
  | absent {p : ℕ} {addTaskRef : Status} : s.arrived hasher p = none →
      Becomes hasher s (.tryGetExistedResult p addTaskRef) s
  | refreshed {running : Option (List Scheduler.RunningTask)} :
      Becomes hasher s (.onTimerRefresh running)
        { s with taskRunKeeper := s.taskRunKeeper.onTimerRefresh s.dispatcher.clock running }
  | acted {input : Input} :
      Becomes hasher s (.dispatcher input)
        { s with
          dispatcher := taskDispatcher.next s.dispatcher input
          rpcs := s.rpcs ++ s.waitRpcs input }
  | foundNothing {p : ℕ} {addTaskRef : Status} {desc : TaskDesc} :
      s.arrived hasher p = some (desc, none) →
      Becomes hasher s (.tryGetExistedResult p addTaskRef)
        { s with
          dispatcher := taskDispatcher.next s.dispatcher (.perform p (.tryGetExistedResult none)) }
  | refused {p : ℕ} {addTaskRef : Status} {desc : TaskDesc} {runningTask : RunningTaskDesc} :
      s.arrived hasher p = some (desc, some runningTask) →
      Becomes hasher s (.tryGetExistedResult p addTaskRef)
        { s with
          dispatcher := taskDispatcher.next s.dispatcher (.perform p (.tryGetExistedResult none))
          rpcs := s.rpcs ++
            [⟨p, runningTask, desc.servantLocation, .addTaskRef, runningTask.servantTaskId⟩] }
  | joined {p : ℕ} {addTaskRef : Status} {desc : TaskDesc} {runningTask : RunningTaskDesc} :
      s.arrived hasher p = some (desc, some runningTask) →
      Becomes hasher s (.tryGetExistedResult p addTaskRef)
        { s with
          dispatcher :=
            taskDispatcher.next s.dispatcher (.perform p (.tryGetExistedResult (some runningTask)))
          joining := s.joining.insert p ⟨runningTask, desc.servantLocation⟩
          rpcs := s.rpcs ++
            [⟨p, runningTask, desc.servantLocation, .addTaskRef, runningTask.servantTaskId⟩] }

section Steps

variable {hasher : Hasher} {s : Joiner}

theorem Joiner.tryGetExistedResult_becomes (p : ℕ) (addTaskRef : Status) :
    s.Becomes hasher (.tryGetExistedResult p addTaskRef)
      (s.tryGetExistedResult hasher p addTaskRef) := by
  rw [Joiner.tryGetExistedResult]
  split
  · next harrived => exact .absent harrived
  · next harrived => exact .foundNothing harrived
  · next harrived =>
      dsimp only
      split_ifs with hcode
      · exact .refused harrived
      · exact .joined harrived

/-- **What a step does**, once for all. -/
theorem joiner_becomes (hasher : Hasher) (s : Joiner) (input : JoinInput) :
    s.Becomes hasher input ((joiner hasher).next s input) := by
  cases input with
  | onTimerRefresh running => exact .refreshed
  | tryGetExistedResult p addTaskRef => exact Joiner.tryGetExistedResult_becomes p addTaskRef
  | dispatcher input =>
      show s.Becomes hasher (.dispatcher input) (s.act input)
      rw [Joiner.act.eq_def]
      split
      · exact .ignored
      · exact .acted

/-- A thread that has come to `TryGetExistedResult`. -/
theorem Joiner.arrived_eq_some {p : ℕ} {desc : TaskDesc} {found : Option RunningTaskDesc}
    (h : s.arrived hasher p = some (desc, found)) :
    s.dispatcher.descs[p]? = some desc ∧ desc.phase = .cacheMissed ∧
      ∃ t, desc.task = some t ∧ s.taskRunKeeper.tryFindTask (t.task.getDigest hasher) = found := by
  rw [Joiner.arrived] at h
  split at h
  · cases h
  · next desc' hdesc =>
      split at h
      · next t hphase htask =>
          cases h
          exact ⟨hdesc, hphase, t, htask, rfl⟩
      · cases h

end Steps

/-! ### Where a task is placed -/

/-- The location has not been written yet. -/
def Phase.unplaced : Phase → Bool
  | .created | .queued | .started | .cacheMissed | .wanting | .asking | .holding _ => true
  | _ => false

/-- The thread waits for a compile that it has joined, or has come to its end. -/
def Phase.joined : Phase → Bool
  | .waiting _ _ | .polling _ _ | .finishing _ | .ended => true
  | _ => false

/-- The task has been placed at a compile that was found. -/
structure TaskDesc.JoinedTo (desc : TaskDesc) (runningTask : RunningTaskDesc) : Prop where
  phase : desc.phase.joined = true
  servantLocation : desc.servantLocation = runningTask.servantLocation
  servantTaskId : desc.servantTaskId = runningTask.servantTaskId

section Places

variable {now : TimePoint} {s : TaskDispatcher} {input : Input} {p : ℕ} {desc desc' : TaskDesc}
  {op : PerformOp}

theorem Phase.Next.unplaced {phase phase' : Phase} (h : phase.Next op phase')
    (hphase : phase'.unplaced = true) : phase.unplaced = true := by
  cases h <;> first | rfl | cases hphase

theorem Phase.Next.joined {phase phase' : Phase} (h : phase.Next op phase')
    (hphase : phase.joined = true) : phase'.joined = true := by
  cases h <;> first | rfl | cases hphase

/-- Before a task is placed no step writes its location. -/
theorem TaskDesc.Moved.unplaced (h : desc.Moved now op desc') (hphase : desc'.phase.unplaced = true) :
    desc.phase.unplaced = true ∧ desc'.servantLocation = desc.servantLocation := by
  cases h with
  | stays => exact ⟨hphase, rfl⟩
  | proceeds output hnext => exact ⟨hnext.unplaced hphase, rfl⟩
  | joins | readies | dispatches | completes => cases hphase

/-- A task that has joined a compile stays with it. -/
theorem TaskDesc.Moved.joinedTo (h : desc.Moved now op desc') {runningTask : RunningTaskDesc}
    (hjoined : desc.JoinedTo runningTask) : desc'.JoinedTo runningTask := by
  have hnot : ∀ {phase : Phase}, desc.phase = phase → phase.joined = true := by
    rintro phase rfl
    exact hjoined.phase
  cases h with
  | stays => exact hjoined
  | proceeds output hnext =>
      exact ⟨hnext.joined hjoined.phase, hjoined.servantLocation, hjoined.servantTaskId⟩
  | joins runningTask' hphase => cases hnot hphase
  | readies hphase => cases hnot hphase
  | dispatches taskId hphase => cases hnot hphase
  | completes hphase htask => exact ⟨rfl, hjoined.servantLocation, hjoined.servantTaskId⟩

theorem Change.unplaced (h : Change s input p desc desc') (hphase : desc'.phase.unplaced = true) :
    desc.phase.unplaced = true ∧ desc'.servantLocation = desc.servantLocation := by
  cases h with
  | inserted hcreated => exact ⟨by rw [hcreated]; rfl, rfl⟩
  | performed op => exact (desc.perform_moved s.clock op).unplaced hphase
  | _ => exact ⟨hphase, rfl⟩

theorem Change.joinedTo (h : Change s input p desc desc') {runningTask : RunningTaskDesc}
    (hjoined : desc.JoinedTo runningTask) : desc'.JoinedTo runningTask := by
  cases h with
  | inserted hcreated =>
      have hphase := hjoined.phase
      rw [hcreated] at hphase
      cases hphase
  | performed op => exact (desc.perform_moved s.clock op).joinedTo hjoined
  | _ => exact ⟨hjoined.phase, hjoined.servantLocation, hjoined.servantTaskId⟩

/-- **A task that has not been placed has no location.** -/
def TaskDispatcher.Unplaced (s : TaskDispatcher) : Prop :=
  ∀ (p : ℕ) (desc : TaskDesc), s.descs[p]? = some desc → desc.phase.unplaced = true →
    desc.servantLocation = ""

theorem TaskDispatcher.Unplaced.next (h : s.Unplaced) (input : Input) :
    (taskDispatcher.next s input).Unplaced := by
  intro p desc' hp' hphase
  rcases next_descs_cases hp' with ⟨desc, hp, hchange⟩ | ⟨-, task, startDeadline, -, rfl⟩
  · obtain ⟨hbefore, hsame⟩ := hchange.unplaced hphase
    rw [hsame]
    exact h p desc hp hbefore
  · rfl

end Places

/-! ### The invariant -/

/-- **The invariant**: no stub has a place to call, the calls name the right tasks, and what is
joined is recorded. -/
structure Joiner.Sound (s : Joiner) : Prop where
  unplaced : s.dispatcher.Unplaced
  stub : ∀ (p : ℕ) (joining : Joining), s.joining.lookup p = some joining → joining.stub = ""
  called : ∀ (p : ℕ) (joining : Joining), s.joining.lookup p = some joining →
    ∃ rpc ∈ s.rpcs, rpc.runningTask = joining.runningTask
  recorded : ∀ (p : ℕ) (joining : Joining), s.joining.lookup p = some joining →
    ∃ desc, s.dispatcher.descs[p]? = some desc ∧ desc.JoinedTo joining.runningTask
  rpcs : ∀ rpc ∈ s.rpcs, rpc.servantLocation = "" ∧ rpc.taskId = rpc.runningTask.servantTaskId

section Invariant

variable {hasher : Hasher} {s : Joiner}

/-- What a thread calls while it waits. -/
theorem Joiner.mem_waitRpcs {input : Input} {rpc : JoinRpc} (h : rpc ∈ s.waitRpcs input) :
    ∃ (p : ℕ) (joining : Joining) (desc : TaskDesc), s.joining.lookup p = some joining ∧
      s.dispatcher.descs[p]? = some desc ∧ rpc.runningTask = joining.runningTask ∧
      rpc.servantLocation = joining.stub ∧ rpc.taskId = desc.servantTaskId := by
  cases input with
  | perform p op =>
      rw [Joiner.waitRpcs] at h
      split at h
      · next joining desc hjoining hdesc =>
          obtain ⟨call, -, rfl⟩ := List.mem_map.1 h
          exact ⟨p, joining, desc, hjoining, hdesc, rfl, rfl, rfl⟩
      · cases h
  | _ => cases h

/-- What is recorded stays, whatever happens to the dispatcher. -/
theorem Joiner.Sound.recorded_next (h : s.Sound) (input : Input) {p : ℕ} {joining : Joining}
    (hjoining : s.joining.lookup p = some joining) :
    ∃ desc, (taskDispatcher.next s.dispatcher input).descs[p]? = some desc ∧
      desc.JoinedTo joining.runningTask := by
  obtain ⟨desc, hdesc, hjoined⟩ := h.recorded p joining hjoining
  obtain ⟨desc', hdesc', hchange⟩ := next_descs_change hdesc input
  exact ⟨desc', hdesc', hchange.joinedTo hjoined⟩

/-- The stub that a thread makes in `TryGetExistedResult` has no place to call. -/
theorem Joiner.Sound.servantLocation_of_arrived (h : s.Sound) {p : ℕ} {desc : TaskDesc}
    {found : Option RunningTaskDesc} (harrived : s.arrived hasher p = some (desc, found)) :
    desc.servantLocation = "" := by
  obtain ⟨hdesc, hphase, -⟩ := Joiner.arrived_eq_some harrived
  exact h.unplaced p desc hdesc (by rw [hphase]; rfl)

/-- The calls of a step in which a thread waits. -/
theorem Joiner.Sound.waitRpcs (h : s.Sound) {input : Input} {rpc : JoinRpc}
    (hrpc : rpc ∈ s.waitRpcs input) :
    rpc.servantLocation = "" ∧ rpc.taskId = rpc.runningTask.servantTaskId := by
  obtain ⟨p, joining, desc, hjoining, hdesc, hrunning, hstub, hid⟩ := Joiner.mem_waitRpcs hrpc
  obtain ⟨desc', hdesc', hjoined⟩ := h.recorded p joining hjoining
  obtain rfl := Option.some_inj.1 (hdesc.symm.trans hdesc')
  exact ⟨by rw [hstub, h.stub p joining hjoining], by rw [hid, hrunning, hjoined.servantTaskId]⟩

/-- A task is placed where the compile is that it has joined. -/
theorem joinedTo_of_join {s : TaskDispatcher} {p : ℕ} {desc : TaskDesc} (hp : s.descs[p]? = some desc)
    (hphase : desc.phase = .cacheMissed) (runningTask : RunningTaskDesc) :
    ∃ desc', (taskDispatcher.next s
        (.perform p (.tryGetExistedResult (some runningTask)))).descs[p]? = some desc' ∧
      desc'.JoinedTo runningTask := by
  refine ⟨desc.join s.clock runningTask, ?_, ⟨rfl, rfl, rfl⟩⟩
  show (s.modifyWhere (· == p) fun desc =>
    desc.perform s.clock (.tryGetExistedResult (some runningTask))).descs[p]? = _
  rw [TaskDispatcher.getElem?_modifyWhere, hp, Option.map_some, if_pos (beq_self_eq_true p)]
  simp only [TaskDesc.perform, hphase]

/-- **A step keeps it.** -/
theorem Joiner.Sound.next (h : s.Sound) (input : JoinInput) :
    ((joiner hasher).next s input).Sound := by
  have hstep := joiner_becomes hasher s input
  generalize (joiner hasher).next s input = s' at hstep ⊢
  cases hstep with
  | ignored | absent => exact h
  | refreshed => exact ⟨h.unplaced, h.stub, h.called, h.recorded, h.rpcs⟩
  | @acted input =>
      refine ⟨h.unplaced.next input, h.stub, fun p joining hjoining => ?_,
        fun p joining hjoining => h.recorded_next input hjoining, fun rpc hrpc => ?_⟩
      · obtain ⟨rpc, hrpc, hrunning⟩ := h.called p joining hjoining
        exact ⟨rpc, List.mem_append_left _ hrpc, hrunning⟩
      · rcases List.mem_append.1 hrpc with hold | hnew
        · exact h.rpcs rpc hold
        · exact h.waitRpcs hnew
  | foundNothing harrived =>
      exact ⟨h.unplaced.next _, h.stub, h.called,
        fun p joining hjoining => h.recorded_next _ hjoining, h.rpcs⟩
  | refused harrived =>
      refine ⟨h.unplaced.next _, h.stub, fun p joining hjoining => ?_,
        fun p joining hjoining => h.recorded_next _ hjoining, fun rpc hrpc => ?_⟩
      · obtain ⟨rpc, hrpc, hrunning⟩ := h.called p joining hjoining
        exact ⟨rpc, List.mem_append_left _ hrpc, hrunning⟩
      · rcases List.mem_append.1 hrpc with hold | hnew
        · exact h.rpcs rpc hold
        · rw [List.mem_singleton.1 hnew]
          exact ⟨h.servantLocation_of_arrived harrived, rfl⟩
  | @joined p addTaskRef desc runningTask harrived =>
      have hplace := h.servantLocation_of_arrived harrived
      obtain ⟨hdesc, hphase, -⟩ := Joiner.arrived_eq_some harrived
      -- the entry is of the thread that joins, or it was there
      refine ⟨h.unplaced.next _, fun q joining hlook => ?_, fun q joining hlook => ?_,
        fun q joining hlook => ?_, fun rpc hrpc => ?_⟩
      · rcases Table.lookup_insert_cases hlook with ⟨-, rfl⟩ | ⟨-, hold⟩
        · exact hplace
        · exact h.stub q joining hold
      · rcases Table.lookup_insert_cases hlook with ⟨-, rfl⟩ | ⟨-, hold⟩
        · exact ⟨_, List.mem_append_right _ (List.mem_singleton_self _), rfl⟩
        · obtain ⟨rpc, hrpc, hrunning⟩ := h.called q joining hold
          exact ⟨rpc, List.mem_append_left _ hrpc, hrunning⟩
      · rcases Table.lookup_insert_cases hlook with ⟨rfl, rfl⟩ | ⟨-, hold⟩
        · exact joinedTo_of_join hdesc hphase runningTask
        · exact h.recorded_next _ hold
      · rcases List.mem_append.1 hrpc with hold | hnew
        · exact h.rpcs rpc hold
        · rw [List.mem_singleton.1 hnew]
          exact ⟨hplace, rfl⟩

theorem Joiner.sound_initial : ({} : Joiner).Sound where
  unplaced := fun p desc hp => by cases hp
  stub := fun p joining hjoining => by cases hjoining
  called := fun p joining hjoining => by cases hjoining
  recorded := fun p joining hjoining => by cases hjoining
  rpcs := fun rpc hrpc => by cases hrpc

theorem Joiner.sound_run (hasher : Hasher) (run : List JoinInput) :
    ((joiner hasher).run {} run).Sound :=
  Machine.run_invariant (fun _ input h => h.next input) Joiner.sound_initial run

end Invariant

/-! ### When the calls reach the servant -/

/-- The compile that is found in a step, if any, has no location. -/
def FindsNoLocation (hasher : Hasher) (s : Joiner) (input : JoinInput) : Prop :=
  ∀ p addTaskRef runningTask, input = .tryGetExistedResult p addTaskRef →
    s.Finds hasher p runningTask → runningTask.servantLocation = ""

section Reach

variable {hasher : Hasher} {s : Joiner}

/-- The calls reach the servant exactly if it has no location. -/
theorem Joiner.Sound.joinsServant_iff_rpcs (h : s.Sound) :
    JoinsServant s ↔ ∀ rpc ∈ s.rpcs, rpc.runningTask.servantLocation = "" := by
  constructor
  · intro hjoins rpc hrpc
    rw [← (hjoins.rpcs rpc hrpc).1, (h.rpcs rpc hrpc).1]
  · intro hnone
    refine ⟨fun rpc hrpc => ?_, fun p joining hjoining => ?_⟩
    · rw [(h.rpcs rpc hrpc).1, hnone rpc hrpc]
      exact ⟨rfl, (h.rpcs rpc hrpc).2⟩
    · obtain ⟨desc, hdesc, hjoined⟩ := h.recorded p joining hjoining
      exact ⟨desc, hdesc, hjoined.servantLocation, hjoined.servantTaskId⟩

/-- One compile is found in a step. -/
theorem findsNoLocation_iff {p : ℕ} {addTaskRef : Status} {desc : TaskDesc}
    {runningTask : RunningTaskDesc} (harrived : s.arrived hasher p = some (desc, some runningTask)) :
    FindsNoLocation hasher s (.tryGetExistedResult p addTaskRef) ↔
      runningTask.servantLocation = "" := by
  constructor
  · intro hfinds
    exact hfinds p addTaskRef runningTask rfl ⟨desc, harrived⟩
  · rintro hnone q status other heq ⟨desc', hother⟩
    cases heq
    rw [harrived] at hother
    cases hother
    exact hnone

/-- A step in which no compile is found. -/
theorem findsNoLocation_of_none {p : ℕ} {addTaskRef : Status}
    (h : ∀ desc runningTask, s.arrived hasher p ≠ some (desc, some runningTask)) :
    FindsNoLocation hasher s (.tryGetExistedResult p addTaskRef) := by
  rintro q status other heq ⟨desc, hother⟩
  cases heq
  exact absurd hother (h desc other)

/-- A compile without location joins those that were called without location. -/
theorem forall_mem_concat {rpcs : List JoinRpc} {rpc : JoinRpc}
    (h : ∀ rpc ∈ rpcs, rpc.runningTask.servantLocation = "") :
    (∀ rpc' ∈ rpcs ++ [rpc], rpc'.runningTask.servantLocation = "") ↔
      rpc.runningTask.servantLocation = "" := by
  simp only [List.forall_mem_append, List.forall_mem_singleton]
  exact and_iff_right h

/-- A step keeps the calls right exactly if the compile that it finds has no location. -/
theorem Joiner.Sound.joinsServant_next_iff (h : s.Sound) (hjoins : JoinsServant s)
    (input : JoinInput) :
    JoinsServant ((joiner hasher).next s input) ↔ FindsNoLocation hasher s input := by
  have hnext : ((joiner hasher).next s input).Sound := h.next input
  rw [hnext.joinsServant_iff_rpcs]
  have hnone := h.joinsServant_iff_rpcs.1 hjoins
  have hstep := joiner_becomes hasher s input
  generalize (joiner hasher).next s input = s' at hstep
  cases hstep with
  | ignored => exact iff_of_true hnone fun p addTaskRef runningTask heq => by cases heq
  | refreshed => exact iff_of_true hnone fun p addTaskRef runningTask heq => by cases heq
  | absent harrived =>
      exact iff_of_true hnone
        (findsNoLocation_of_none fun desc runningTask => by rw [harrived]; simp)
  | acted =>
      refine iff_of_true (fun rpc hrpc => ?_) fun p addTaskRef runningTask heq => by cases heq
      rcases List.mem_append.1 hrpc with hold | hnew
      · exact hnone rpc hold
      · -- the thread that waits has called the same compile before
        obtain ⟨p, joining, desc, hjoining, -, hrunning, -, -⟩ := Joiner.mem_waitRpcs hnew
        obtain ⟨first, hfirst, hsame⟩ := h.called p joining hjoining
        rw [hrunning, ← hsame]
        exact hnone first hfirst
  | foundNothing harrived =>
      exact iff_of_true hnone
        (findsNoLocation_of_none fun desc runningTask => by rw [harrived]; simp)
  | refused harrived => rw [findsNoLocation_iff harrived, forall_mem_concat hnone]
  | joined harrived => rw [findsNoLocation_iff harrived, forall_mem_concat hnone]

end Reach

/-- **When the calls reach the servant**: in all states of a run, exactly if no step of it finds a
compile that has a location. -/
theorem joinsServant_iff (hasher : Hasher) (run : List JoinInput) :
    (∀ js ks, run = js ++ ks → JoinsServant ((joiner hasher).run {} js)) ↔
      (joiner hasher).Along (FindsNoLocation hasher) {} run := by
  have hinitial : JoinsServant {} := Joiner.sound_initial.joinsServant_iff_rpcs.2 fun rpc hrpc => by
    cases hrpc
  have hprefix : (∀ js ks, run = js ++ ks →
      ((joiner hasher).run {} js).Sound ∧ JoinsServant ((joiner hasher).run {} js)) ↔
      (joiner hasher).Along (FindsNoLocation hasher) {} run := by
    refine Machine.forall_prefix_iff_along (P := fun s => s.Sound ∧ JoinsServant s) ?_
      ⟨Joiner.sound_initial, hinitial⟩
    intro s input h
    rw [and_iff_right (h.1.next input)]
    exact h.1.joinsServant_next_iff h.2 input
  rw [← hprefix]
  refine forall_congr' fun js => forall_congr' fun ks => imp_congr_right fun _ => ?_
  rw [and_iff_right (Joiner.sound_run hasher js)]

/-! ### A servant that has a location is never called -/

/-- Every compile in an answer of the scheduler has a location. -/
def Located : JoinInput → Prop
  | .onTimerRefresh (some running) => ∀ task ∈ running, task.servantLocation ≠ ""
  | _ => True

/-- What the keeper holds and what has been called for has a location. -/
structure Joiner.Located (s : Joiner) : Prop where
  kept : ∀ taskDigest runningTask, s.taskRunKeeper.tryFindTask taskDigest = some runningTask →
    runningTask.servantLocation ≠ ""
  called : ∀ rpc ∈ s.rpcs, rpc.runningTask.servantLocation ≠ ""

theorem TaskRunKeeper.located_onTimerRefresh {k : TaskRunKeeper}
    (h : ∀ taskDigest runningTask, k.tryFindTask taskDigest = some runningTask →
      runningTask.servantLocation ≠ "") (now : TimePoint)
    {running : Option (List Scheduler.RunningTask)} (hrunning : Located (.onTimerRefresh running))
    {taskDigest : Bytes} {runningTask : RunningTaskDesc}
    (hfind : (k.onTimerRefresh now running).tryFindTask taskDigest = some runningTask) :
    runningTask.servantLocation ≠ "" := by
  cases running with
  | none =>
      rw [TaskRunKeeper.onTimerRefresh] at hfind
      split_ifs at hfind with hforget
      · cases hfind
      · exact h taskDigest runningTask hfind
  | some running =>
      rw [tryFindTask_onTimerRefresh] at hfind
      obtain ⟨task, htask, rfl⟩ := Option.map_eq_some_iff.1 hfind
      exact hrunning task (List.mem_reverse.1 (List.mem_of_find?_eq_some htask))

theorem Joiner.Located.next {hasher : Hasher} {s : Joiner} (h : s.Located) (hsound : s.Sound)
    {input : JoinInput} (hinput : Local.Located input) :
    ((joiner hasher).next s input).Located := by
  have hstep := joiner_becomes hasher s input
  generalize (joiner hasher).next s input = s' at hstep ⊢
  have hfound : ∀ {p : ℕ} {desc : TaskDesc} {runningTask : RunningTaskDesc} {rpc : JoinRpc},
      s.arrived hasher p = some (desc, some runningTask) →
      rpc ∈ s.rpcs ++
        [⟨p, runningTask, desc.servantLocation, .addTaskRef, runningTask.servantTaskId⟩] →
      rpc.runningTask.servantLocation ≠ "" := by
    intro p desc runningTask rpc harrived hrpc
    obtain ⟨-, -, t, -, hfind⟩ := Joiner.arrived_eq_some harrived
    rcases List.mem_append.1 hrpc with hold | hnew
    · exact h.called rpc hold
    · rw [List.mem_singleton.1 hnew]
      exact h.kept _ _ hfind
  cases hstep with
  | ignored | absent => exact h
  | refreshed =>
      exact ⟨fun taskDigest runningTask hfind =>
        TaskRunKeeper.located_onTimerRefresh h.kept _ hinput hfind, h.called⟩
  | acted =>
      refine ⟨h.kept, fun rpc hrpc => ?_⟩
      rcases List.mem_append.1 hrpc with hold | hnew
      · exact h.called rpc hold
      · obtain ⟨p, joining, desc, hjoining, -, hrunning, -, -⟩ := Joiner.mem_waitRpcs hnew
        obtain ⟨first, hfirst, hsame⟩ := hsound.called p joining hjoining
        rw [hrunning, ← hsame]
        exact h.called first hfirst
  | foundNothing harrived => exact ⟨h.kept, h.called⟩
  | refused harrived => exact ⟨h.kept, fun rpc hrpc => hfound harrived hrpc⟩
  | joined harrived => exact ⟨h.kept, fun rpc hrpc => hfound harrived hrpc⟩

theorem Joiner.located_run (hasher : Hasher) {run : List JoinInput}
    (h : ∀ input ∈ run, Local.Located input) : ((joiner hasher).run {} run).Located := by
  induction run using List.reverseRecOn with
  | nil =>
      refine ⟨fun taskDigest runningTask hfind => ?_, fun rpc hrpc => ?_⟩
      · cases hfind
      · cases hrpc
  | append_singleton run input ih =>
      rw [Machine.run_concat]
      have hbefore := ih fun input hmem => h input (List.mem_append_left _ hmem)
      exact hbefore.next (Joiner.sound_run hasher run)
        (h input (List.mem_append_right _ (List.mem_singleton_self input)))

/-- **A servant that has a location is never called**: as long as the scheduler reports compiles
with locations, every call of `TryGetExistedResult` goes elsewhere. -/
theorem calls_astray (hasher : Hasher) {run : List JoinInput} (h : ∀ input ∈ run, Located input)
    {rpc : JoinRpc} (hrpc : rpc ∈ ((joiner hasher).run {} run).rpcs) :
    rpc.servantLocation ≠ rpc.runningTask.servantLocation := by
  rw [((Joiner.sound_run hasher run).rpcs rpc hrpc).1]
  exact fun hempty => (Joiner.located_run hasher h).called rpc hrpc hempty.symm

/-! ### A compile that is found and not reached -/

/-- A compile of `g++` that a client submits. -/
def joinedTask : CxxDistTask where
  cacheControl := true
  requesterPid := 4711
  envDesc := { compilerDigest := "c0ffee" }
  sourcePath := Bytes.ofString "10088ef7421917a9cd5b1893e7a8d36f17cec414b9f1e20b81c4bcd393900837"
  sourceDigest := Bytes.ofString "10088ef7421917a9cd5b1893e7a8d36f17cec414b9f1e20b81c4bcd393900837"
  args := Client.sampleArgs
  source := [40]

/-- The same compile, as a servant runs it already. -/
def joinedCompile : Scheduler.RunningTask where
  servantTaskId := 3
  taskGrantId := 7
  servantLocation := "10.0.0.1:8335"
  taskDigest :=
    "distribuild-cxx-digest-80fd1ca770fd47929740c3b7cbe16ccb5bdaf12000f777c7a17477de438e435c"

/-- The scheduler reports it, and the task looks for it.  The call fails; of the status only that is
read. -/
def joinedRun : List JoinInput :=
  [.onTimerRefresh (some [joinedCompile]),
    .dispatcher (.newTask joinedTask 1000), .dispatcher (.insertTask 0),
    .dispatcher (.perform 0 .start), .dispatcher (.perform 0 (.tryReadCache (.ok none))),
    .tryGetExistedResult 0 { code := .notFound }]

/-- **A compile that is found and not reached**: the only call that is made goes to the empty place.
-/
theorem join_goes_nowhere :
    ((joiner (.collecting Client.sampleHash)).run {} joinedRun).rpcs =
      [⟨0, { servantLocation := "10.0.0.1:8335", servantTaskId := 3 }, "", .addTaskRef, 3⟩] ∧
    ¬JoinsServant ((joiner (.collecting Client.sampleHash)).run {} joinedRun) := by
  have hrpcs : ((joiner (.collecting Client.sampleHash)).run {} joinedRun).rpcs =
      [⟨0, { servantLocation := "10.0.0.1:8335", servantTaskId := 3 }, "", .addTaskRef, 3⟩] := by
    decide +kernel
  refine ⟨hrpcs, fun hjoins => ?_⟩
  have hreach := (hjoins.rpcs _ (by rw [hrpcs]; exact List.mem_singleton_self _)).1
  revert hreach
  decide

end Local
