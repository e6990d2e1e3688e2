/-
**A compile that two clients share.**

A client that wants to compile what a servant is compiling already need not start it again: it adds
a reference to the compile of the other client and waits for the same result.  From then on two
mechanisms decide how long that process lives.  The executor of the servant counts references and
kills the process with the last one.  The scheduler knows nothing of references; it knows the grant
under which the first client started the compile, and once that grant is freed or has expired it
reports the compile as unknown in the answer to the next heartbeat, and the servant kills it.

This module puts the parties together: the scheduler, one servant and the tasks of any number of
local daemons, with the calls that are on their way between them.  It embeds `PerformTask`,
`TryGetExistedResult`, `StartNewServantTask` and `OnTimerKeepAlive` of
`daemon/local/task_dispatcher.cpp`, `Free` of `daemon/local/task_grant_keeper.cpp` and the handlers
of `daemon/cloud/daemon_service_impl.cpp`, as far as they take and give back grants and references.

A call is executed when it arrives, in any order, and it may be lost; the caller of a lost call is
told that it has failed, and so is, at any time, the caller of one that is only late.  A handler
that refuses a token is a call that is lost and fails.  Which servant a call of a local daemon
reaches is not in question here: all of them go to the one servant.

Main definitions:

* `Cluster.Job` — how far `PerformTask` has come;
* `Cluster.Call` — a call on its way, or the rest of one after its thread has released a lock;
* `Cluster.cluster` — the parties, as a machine;
* `Cluster.State.refs` — the references that `AddTaskRef` has given and `FreeTask` has not taken
  back;
* `Cluster.KeepsGrants` — a step ends no permission that a joined client depends on.

Main results:

* `Cluster.cluster_simulates_scheduler`, `Cluster.cluster_simulates_executor` — each party by itself
  runs as it does alone;
* `Cluster.sheltered_step` — what is joined and compiles stays permitted at the scheduler;
* `Cluster.shared_not_killed` — **a shared compile is not killed**, in every run whose steps keep
  the grants;
* `Cluster.shared_killed` — it is killed when the first client gives its grant back.
-/

import Distribuild.CloudExecutor
import Distribuild.SchedulerPermission

set_option relaxedAutoImplicit false
set_option autoImplicit false

namespace Cluster

open Scheduler (TaskDispatcher SchedulerServiceImpl SchedulerEvent SchedulerReply HeartBeatRequest
  Permitted Spares Registered)
open Cloud (Executor ExecutorOp ExecutorOutput TaskPtr Signal)

/-! ### The servant's daemon -/

/-- The `DaemonServiceImpl` of the servant, with the flags and facts about the machine that its
heartbeats carry. -/
structure DaemonServiceImpl where
  token : String
  version : UInt32
  location : String
  priority : Scheduler.ServantPriority
  totalMemoryInBytes : UInt64
  numCpuCores : UInt32
  envDescs : List Scheduler.EnviromentDesc
deriving DecidableEq, Repr

/-- What `OnTimerHeartbeat` reads when it makes up a heartbeat. -/
structure Report where
  availMemoryInBytes : UInt64
  currentLoad : UInt32
  concurrency : UInt32
  tasks : List (Cloud.RunningTask String)
deriving DecidableEq, Repr

/-- The running tasks of a heartbeat. -/
def DaemonServiceImpl.runningTasks (daemon : DaemonServiceImpl) (report : Report) :
    List Scheduler.RunningTask :=
  report.tasks.map fun e =>
    { servantTaskId := e.servantTaskId
      taskGrantId := e.taskGrantId
      servantLocation := daemon.location
      taskDigest := e.task }

/-- The request that `OnTimerHeartbeat` sends. -/
def DaemonServiceImpl.heartBeatRequest (daemon : DaemonServiceImpl) (report : Report) :
    HeartBeatRequest where
  token := daemon.token
  nextHeartBeatInMs := 10000
  version := daemon.version
  location := daemon.location
  numCpuCores := daemon.numCpuCores
  currentLoad := report.currentLoad
  priority := daemon.priority
  concurrency := report.concurrency
  totalMemoryInBytes := daemon.totalMemoryInBytes
  availMemoryInBytes := report.availMemoryInBytes
  envDescs := daemon.envDescs
  runningTasks := daemon.runningTasks report

/-! ### The tasks of the local daemons -/

/-- How far `PerformTask` of a local daemon has come with a task. -/
inductive Job
  /-- Before `TryGetExistedResult` has asked for a running compile. -/
  | looking
  /-- In the call `AddTaskRef`. -/
  | joining (servantTaskId : UInt64)
  /-- In `WaitServantTask` of `TryGetExistedResult`; `task_grant_id` is `0`. -/
  | joined (servantTaskId : UInt64)
  /-- In the loop of `StartNewServantTask`, without a grant. -/
  | waiting
  /-- In the call `QueueCxxTask`. -/
  | starting (grantId : UInt64)
  /-- In `WaitServantTask` of `StartNewServantTask`. -/
  | dispatched (grantId servantTaskId : UInt64)
  /-- In the call `FreeTask` of `FreeServantTask`, with the grant that is freed afterwards. -/
  | freeing (grantId : Option UInt64)
  | done
deriving DecidableEq, Repr

/-- The grant that `OnTimerKeepAlive` renews for a task: `task_grant_id`, if the task is neither
pending nor done. -/
def Job.keepAliveId : Job → Option UInt64
  | .joined _ => some 0
  | .starting grantId => some grantId
  | .dispatched grantId _ => some grantId
  | .freeing grantId => some (grantId.getD 0)
  | _ => none

/-- A call on its way to the party that executes it, the answer to one, or the rest of a function
whose thread has released a lock. -/
inductive Call
  /-- To the servant. -/
  | queueCxxTask (job : ℕ) (grantId : UInt64) (digest : String)
  | addTaskRef (job : ℕ) (servantTaskId : UInt64)
  | freeServantTask (job : ℕ) (servantTaskId : UInt64)
  /-- The answers, to the task that waits for them. -/
  | queued (job : ℕ) (servantTaskId : Option UInt64)
  | refAdded (job : ℕ) (found : Bool)
  | freed (job : ℕ)
  /-- To the scheduler. -/
  | freeGrant (grantId : UInt64)
  | keepTaskAlive (grantId : UInt64)
  | heartBeat (peer : String) (report : Report)
  /-- The rest of `HeartBeat` after `KeepServantAlive`. -/
  | notify (report : Report)
  /-- The answer to a heartbeat, with its `expired_tasks`. -/
  | expiredTasks (ids : List UInt64)
  /-- The rest of `FreeTask` on the servant. -/
  | killTask (p : TaskPtr)
deriving DecidableEq, Repr

/-- The state of all parties. -/
structure State where
  dispatcher : TaskDispatcher
  executor : Executor String
  jobs : ℕ → Job := fun _ => .looking
  /-- The grants on the servant that wait in the `TaskGrantKeeper` of a local daemon. -/
  grants : List UInt64 := []
  pending : List Call := []
  /-- History: the references that tasks have got by `AddTaskRef` and that their `FreeTask` has not
  taken back. -/
  refs : List (ℕ × TaskPtr) := []

/-- The signals of a step: those of `KillExpiredTasks`, and all others. -/
structure Kills where
  expired : List Signal := []
  other : List Signal := []
deriving DecidableEq, Repr

/-- What the machine of the servant adds to the execution of a call. -/
structure Environment where
  now : ℕ
  availMemory : UInt64
  pid : Cloud.Pid
deriving DecidableEq, Repr

/-! ### The parties -/

namespace State

/-- One step of the scheduler. -/
def onScheduler (w : State) (service : SchedulerServiceImpl) (e : SchedulerEvent) :
    State × SchedulerReply :=
  let r := Scheduler.schedulerStep service w.dispatcher e
  ({ w with dispatcher := r.1 }, r.2)

/-- One operation of the executor. -/
def onServant (w : State) (op : ExecutorOp String) : State × ExecutorOutput :=
  let r := Cloud.exec w.executor op
  ({ w with executor := r.1 }, r.2)

def send (w : State) (calls : List Call) : State := { w with pending := w.pending ++ calls }

def setJob (w : State) (job : ℕ) (phase : Job) : State :=
  { w with jobs := Function.update w.jobs job phase }

/-- `AddTaskRef` has found the object `p` for this task. -/
def hold (w : State) (job : ℕ) (p : Option TaskPtr) : State :=
  { w with refs := p.toList.map (Prod.mk job) ++ w.refs }

/-- `FreeTask` has found the object `p` for this task. -/
def unhold (w : State) (job : ℕ) (p : Option TaskPtr) : State :=
  { w with refs := w.refs.filter fun ref => !(p.toList.map (Prod.mk job)).contains ref }

/-- The end of `StartNewServantTask`, and of `TryGetExistedResult` where there is no grant. -/
def finish (w : State) (job : ℕ) (grantId : Option UInt64) : State :=
  (w.setJob job .done).send (grantId.toList.map .freeGrant)

/-- `QueueCxxTask` has returned to the task. -/
def onQueued (w : State) (job : ℕ) (servantTaskId : Option UInt64) : State :=
  match w.jobs job, servantTaskId with
  | .starting grantId, some servantTaskId => w.setJob job (.dispatched grantId servantTaskId)
  | .starting grantId, none => w.finish job (some grantId)
  | _, _ => w

/-- `AddTaskRef` has returned to the task. -/
def onRefAdded (w : State) (job : ℕ) (found : Bool) : State :=
  match w.jobs job with
  | .joining servantTaskId => w.setJob job (if found then .joined servantTaskId else .waiting)
  | _ => w

/-- `FreeTask` of the servant has returned to the task. -/
def onFreed (w : State) (job : ℕ) : State :=
  match w.jobs job with
  | .freeing grantId => w.finish job grantId
  | _ => w

/-- The call that the task is in fails. -/
def onFailure (w : State) (job : ℕ) : State :=
  match w.jobs job with
  | .joining _ => w.onRefAdded job false
  | .starting _ => w.onQueued job none
  | .freeing _ => w.onFreed job
  | _ => w

/-- `WaitServantTask` has come to its end: with a result, with an error, or because the task was
aborted. -/
def stopWaiting (w : State) (job : ℕ) : State :=
  match w.jobs job with
  | .joined servantTaskId =>
      (w.setJob job (.freeing none)).send [.freeServantTask job servantTaskId]
  | .dispatched grantId servantTaskId =>
      (w.setJob job (.freeing (some grantId))).send [.freeServantTask job servantTaskId]
  | _ => w

end State

section Parties

variable (service : SchedulerServiceImpl) (daemon : DaemonServiceImpl)

/-- A call is executed. -/
def perform (w : State) (env : Environment) : Call → State × Kills
  | .queueCxxTask job grantId digest =>
      let r := w.onServant (.tryQueueTask grantId digest env.availMemory env.pid env.now)
      (r.1.send [.queued job r.2.taskId], {})
  | .addTaskRef job servantTaskId =>
      let r := w.onServant (.tryAddTaskRef servantTaskId)
      ((r.1.hold job (w.executor.tasks.lookup servantTaskId)).send [.refAdded job r.2.found], {})
  | .freeServantTask job servantTaskId =>
      let r := w.onServant (.freeTask servantTaskId)
      ((r.1.unhold job (w.executor.tasks.lookup servantTaskId)).send
        (.freed job :: r.2.desc.toList.map .killTask), {})
  | .queued job servantTaskId => (w.onQueued job servantTaskId, {})
  | .refAdded job found => (w.onRefAdded job found, {})
  | .freed job => (w.onFreed job, {})
  | .freeGrant grantId => ((w.onScheduler service (.op (.freeTask grantId) rfl)).1, {})
  | .keepTaskAlive grantId =>
      ((w.onScheduler service
        (.op (.keepTaskAlive grantId (Scheduler.sec 10) env.now) rfl)).1, {})
  | .heartBeat peer report =>
      let r := w.onScheduler service (.heartBeat peer (daemon.heartBeatRequest report) env.now)
      match r.2 with
      | .accepted _ => (r.1.send [.notify report], {})
      | _ => (r.1, {})
  | .notify report =>
      let r := w.onScheduler service
        (.op (.notifyServantRunningTasks daemon.location (daemon.runningTasks report)) rfl)
      match r.2 with
      | .done (.unknownTasks ids) => (r.1.send [.expiredTasks ids], {})
      | _ => (r.1, {})
  | .expiredTasks ids =>
      let r := w.onServant (.killExpiredTasks ids)
      (r.1, { expired := r.2.signals })
  | .killTask p =>
      let r := w.onServant (.killTask p)
      (r.1, { other := r.2.signals })

end Parties

/-- The operations that the executor performs on its own account, or for `WaitForTask`. -/
def isInternal : ExecutorOp String → Bool
  | .waitForTask _ => true
  | .tryWait _ => true
  | .onExitCallback _ _ => true
  | .reportCompletion _ => true
  | .onTimerClean _ => true
  | .stop => true
  | .rehash _ => true
  | _ => false

/-- What can happen. -/
inductive Event
  /-- `TryGetExistedResult` has found a running compile and asks to join it. -/
  | join (job : ℕ) (servantTaskId : UInt64)
  /-- `TryGetExistedResult` has found none. -/
  | startNew (job : ℕ)
  /-- `TaskGrantKeeper::Get` gives the task the `i`-th grant; the task submits its source. -/
  | take (job : ℕ) (i : ℕ) (digest : String)
  /-- The cache has the result, or the task is aborted before it gets a grant. -/
  | leave (job : ℕ)
  | stopWaiting (job : ℕ)
  /-- A call returns with an error. -/
  | fail (job : ℕ)
  /-- `OnTimerKeepAlive`, as far as it is about this task. -/
  | keepAlive (job : ℕ)
  /-- `OnTimerHeartbeat` sends a heartbeat, which the scheduler sees come from `peer`. -/
  | beat (peer : String) (availMemoryInBytes : UInt64) (currentLoad : UInt32)
  /-- The `i`-th call arrives and is executed. -/
  | deliver (i : ℕ) (env : Environment)
  /-- The `i`-th call never arrives. -/
  | lose (i : ℕ)
  /-- Anything else at the scheduler: its timer, the requests for grants, and whatever other
  servants and clients do. -/
  | scheduler (e : SchedulerEvent)
  /-- Anything else at the servant. -/
  | servant (op : ExecutorOp String) (h : isInternal op = true)

section Parties

variable (service : SchedulerServiceImpl) (daemon : DaemonServiceImpl)

/-- The grants among what the scheduler has answered, if they are on the servant. -/
def grantsOf : SchedulerReply → List UInt64
  | .done (.started (.granted allocation _)) =>
      if allocation.servantLocation = daemon.location then [allocation.taskId] else []
  | _ => []

/-- One step. -/
def step (w : State) : Event → State × Kills
  | .join job servantTaskId =>
      match w.jobs job with
      | .looking =>
          ((w.setJob job (.joining servantTaskId)).send [.addTaskRef job servantTaskId], {})
      | _ => (w, {})
  | .startNew job =>
      match w.jobs job with
      | .looking => (w.setJob job .waiting, {})
      | _ => (w, {})
  | .take job i digest =>
      match w.jobs job, w.grants[i]? with
      | .waiting, some grantId =>
          ((({ w with grants := w.grants.eraseIdx i } : State).setJob job
            (.starting grantId)).send [.queueCxxTask job grantId digest], {})
      | _, _ => (w, {})
  | .leave job =>
      match w.jobs job with
      | .looking => (w.setJob job .done, {})
      | .waiting => (w.setJob job .done, {})
      | _ => (w, {})
  | .stopWaiting job => (w.stopWaiting job, {})
  | .fail job => (w.onFailure job, {})
  | .keepAlive job => (w.send ((w.jobs job).keepAliveId.toList.map .keepTaskAlive), {})
  | .beat peer availMemoryInBytes currentLoad =>
      (w.send [.heartBeat peer
        { availMemoryInBytes := availMemoryInBytes
          currentLoad := currentLoad
          concurrency := w.executor.maxConcurrency.toUInt32
          tasks := Cloud.getAllTasks w.executor }], {})
  | .deliver i env =>
      match w.pending[i]? with
      | none => (w, {})
      | some call =>
          perform service daemon { w with pending := w.pending.eraseIdx i } env call
  | .lose i => ({ w with pending := w.pending.eraseIdx i }, {})
  | .scheduler e =>
      let r := w.onScheduler service e
      ({ r.1 with grants := r.1.grants ++ grantsOf daemon r.2 }, {})
  | .servant op _ =>
      let r := w.onServant op
      (r.1, { other := r.2.signals })

/-- **The parties as a machine.** -/
def cluster : Machine State Event Kills := ⟨step service daemon⟩

end Parties

/-- The scheduler and the servant as their constructors leave them. -/
def State.init (minMemoryForNewTask maxConcurrency minMemory : UInt64) : State where
  dispatcher := .init minMemoryForNewTask
  executor := { maxConcurrency := maxConcurrency, minMemory := minMemory }

/-! ### Each party by itself -/

section Simulation

variable (service : SchedulerServiceImpl) (daemon : DaemonServiceImpl)

/-- The state of the scheduler and that of the executor are reached by steps of their own. -/
structure Runs (w w' : State) : Prop where
  scheduler : (Scheduler.scheduler service).Reachable w.dispatcher w'.dispatcher
  servant : (Cloud.executor String).Reachable w.executor w'.executor

variable {service}

/-- A change of the tasks and the calls only. -/
theorem runs_of_eq {w w' : State} (hd : w'.dispatcher = w.dispatcher)
    (he : w'.executor = w.executor) : Runs service w w' where
  scheduler := hd ▸ Machine.Reachable.refl _
  servant := he ▸ Machine.Reachable.refl _

theorem Runs.send {w w' : State} (h : Runs service w w') (calls : List Call) :
    Runs service w (w'.send calls) := ⟨h.scheduler, h.servant⟩

theorem runs_onScheduler (w : State) (e : SchedulerEvent) :
    Runs service w (w.onScheduler service e).1 where
  scheduler := ⟨[e], rfl⟩
  servant := Machine.Reachable.refl _

theorem runs_onServant (w : State) (op : ExecutorOp String) :
    Runs service w (w.onServant op).1 where
  scheduler := Machine.Reachable.refl _
  servant := ⟨[op], rfl⟩

theorem runs_onQueued (w : State) (job : ℕ) (servantTaskId : Option UInt64) :
    Runs service w (w.onQueued job servantTaskId) := by
  unfold State.onQueued
  split <;> exact runs_of_eq rfl rfl

theorem runs_onRefAdded (w : State) (job : ℕ) (found : Bool) :
    Runs service w (w.onRefAdded job found) := by
  unfold State.onRefAdded
  split <;> exact runs_of_eq rfl rfl

theorem runs_onFreed (w : State) (job : ℕ) : Runs service w (w.onFreed job) := by
  unfold State.onFreed
  split <;> exact runs_of_eq rfl rfl

theorem runs_perform (w : State) (env : Environment) (call : Call) :
    Runs service w (perform service daemon w env call).1 := by
  cases call with
  | queueCxxTask job grantId digest => exact (runs_onServant w _).send _
  | addTaskRef job servantTaskId =>
      have hadd : Runs service w (w.onServant (.tryAddTaskRef servantTaskId)).1 :=
        runs_onServant w _
      exact ⟨hadd.scheduler, hadd.servant⟩
  | freeServantTask job servantTaskId =>
      have hfree : Runs service w (w.onServant (.freeTask servantTaskId)).1 :=
        runs_onServant w _
      exact ⟨hfree.scheduler, hfree.servant⟩
  | queued job servantTaskId => exact runs_onQueued w job servantTaskId
  | refAdded job found => exact runs_onRefAdded w job found
  | freed job => exact runs_onFreed w job
  | freeGrant grantId => exact runs_onScheduler w _
  | keepTaskAlive grantId => exact runs_onScheduler w _
  | heartBeat peer report =>
      have hbeat : Runs service w (w.onScheduler service
          (.heartBeat peer (daemon.heartBeatRequest report) env.now)).1 := runs_onScheduler w _
      simp only [perform]
      split
      · exact hbeat.send _
      · exact hbeat
  | notify report => exact (runs_onScheduler w _).send _
  | expiredTasks ids => exact runs_onServant w _
  | killTask p => exact runs_onServant w _

/-- **Every run of the parties is a run of the scheduler and a run of the executor.** -/
theorem runs_step (w : State) (e : Event) :
    Runs service w ((cluster service daemon).next w e) := by
  change Runs service w (step service daemon w e).1
  cases e with
  | join job servantTaskId =>
      simp only [step]
      split <;> exact runs_of_eq rfl rfl
  | startNew job =>
      simp only [step]
      split <;> exact runs_of_eq rfl rfl
  | take job i digest =>
      simp only [step]
      split <;> exact runs_of_eq rfl rfl
  | leave job =>
      simp only [step]
      split <;> exact runs_of_eq rfl rfl
  | stopWaiting job =>
      simp only [step, State.stopWaiting]
      split <;> exact runs_of_eq rfl rfl
  | fail job =>
      simp only [step, State.onFailure]
      split
      · exact runs_onRefAdded w job false
      · exact runs_onQueued w job none
      · exact runs_onFreed w job
      · exact runs_of_eq rfl rfl
  | keepAlive job => exact runs_of_eq rfl rfl
  | beat peer availMemoryInBytes currentLoad => exact runs_of_eq rfl rfl
  | deliver i env =>
      simp only [step]
      split
      · exact runs_of_eq rfl rfl
      next call hcall =>
        have hrun : Runs service { w with pending := w.pending.eraseIdx i }
            (perform service daemon { w with pending := w.pending.eraseIdx i } env call).1 :=
          runs_perform daemon _ env call
        exact ⟨hrun.scheduler, hrun.servant⟩
  | lose i => exact runs_of_eq rfl rfl
  | scheduler e =>
      have hrun : Runs service w (w.onScheduler service e).1 := runs_onScheduler w e
      exact ⟨hrun.scheduler, hrun.servant⟩
  | servant op hop => exact runs_onServant w op

/-- The parties, seen from the scheduler. -/
theorem cluster_simulates_scheduler :
    (Scheduler.scheduler service).Simulates (cluster service daemon) State.dispatcher :=
  fun w e => (runs_step daemon w e).scheduler

/-- The parties, seen from the executor. -/
theorem cluster_simulates_executor :
    (Cloud.executor String).Simulates (cluster service daemon) State.executor :=
  fun w e => (runs_step daemon w e).servant

end Simulation

/-! ### The condition -/

section Parties

variable (service : SchedulerServiceImpl) (daemon : DaemonServiceImpl)

/-- The step of the scheduler that a call makes. -/
def Call.schedulerEvent (env : Environment) : Call → Option SchedulerEvent
  | .freeGrant grantId => some (.op (.freeTask grantId) rfl)
  | .keepTaskAlive grantId =>
      some (.op (.keepTaskAlive grantId (Scheduler.sec 10) env.now) rfl)
  | .heartBeat peer report => some (.heartBeat peer (daemon.heartBeatRequest report) env.now)
  | .notify report =>
      some (.op (.notifyServantRunningTasks daemon.location (daemon.runningTasks report)) rfl)
  | _ => none

/-- The step of the scheduler that an event makes. -/
def schedulerEvent (w : State) : Event → Option SchedulerEvent
  | .scheduler e => some e
  | .deliver i env => w.pending[i]?.bind (Call.schedulerEvent daemon env)
  | _ => none

/-- The ids in the answer to a heartbeat. -/
@[simp] def Call.expiredIds : Call → List UInt64
  | .expiredTasks ids => ids
  | _ => []

/-- The step of the scheduler ends no permission of a compile that has been joined, and does not
issue an id that the servant is about to be told to kill. -/
def Harmless (w : State) (e : SchedulerEvent) : Prop :=
  (∀ ref ∈ w.refs, ∀ grantId ∈ w.executor.compiling ref.2, Spares w.dispatcher grantId e) ∧
    (e.grants = true → ∀ call ∈ w.pending, w.dispatcher.nextTaskId ∉ call.expiredIds)

/-- The id that an `AddTaskRef` names, if this is one. -/
def Call.joinedId : Call → Option UInt64
  | .addTaskRef _ servantTaskId => some servantTaskId
  | _ => none

/-- The id whose compile is joined in a step, if it is there. -/
def joinedId (w : State) : Event → Option UInt64
  | .deliver i _ => w.pending[i]?.bind Call.joinedId
  | _ => none

/-- The grant of the compile under this id is permitted, if the compile has not ended. -/
def Joinable (w : State) (servantTaskId : UInt64) : Prop :=
  ∀ p ∈ w.executor.tasks.lookup servantTaskId, ∀ grantId ∈ w.executor.compiling p,
    Permitted w.dispatcher daemon.location grantId

/-- **The step keeps the grants**: a running compile is joined only while its grant is permitted,
and no permission of a running compile that has been joined is ended. -/
def KeepsGrants (w : State) (e : Event) : Prop :=
  (∀ call ∈ schedulerEvent daemon w e, Harmless w call) ∧
    ∀ servantTaskId ∈ joinedId w e, Joinable daemon w servantTaskId

/-- `KillExpiredTasks` kills, in this step, no compile that somebody has joined and still refers
to. -/
def SparesShared (w : State) (e : Event) : Prop :=
  ∀ signal ∈ ((cluster service daemon).out w e).expired, ∀ ref ∈ w.refs, ref.2 ≠ signal.desc

-- the instances name the test on an `Option`: a search through all ids would be found as well
instance (w : State) (e : SchedulerEvent) : Decidable (Harmless w e) :=
  have (ref : ℕ × TaskPtr) : Decidable (∀ grantId ∈ w.executor.compiling ref.2,
      Spares w.dispatcher grantId e) := Option.decidableForallMem _
  inferInstanceAs (Decidable (_ ∧ _))

instance (w : State) (servantTaskId : UInt64) : Decidable (Joinable daemon w servantTaskId) :=
  have (p : TaskPtr) : Decidable (∀ grantId ∈ w.executor.compiling p,
      Permitted w.dispatcher daemon.location grantId) := Option.decidableForallMem _
  Option.decidableForallMem (w.executor.tasks.lookup servantTaskId)

instance (w : State) (e : Event) : Decidable (KeepsGrants daemon w e) :=
  have : Decidable (∀ call ∈ schedulerEvent daemon w e, Harmless w call) :=
    Option.decidableForallMem _
  have : Decidable (∀ servantTaskId ∈ joinedId w e, Joinable daemon w servantTaskId) :=
    Option.decidableForallMem _
  inferInstanceAs (Decidable (_ ∧ _))

instance (w : State) (e : Event) : Decidable (SparesShared service daemon w e) :=
  inferInstanceAs (Decidable (∀ signal ∈ ((cluster service daemon).out w e).expired,
    ∀ ref ∈ w.refs, ref.2 ≠ signal.desc))

end Parties

/-! ### The invariant -/

/-- **What is joined is sheltered**: a compile that has been joined and has not ended is permitted,
and no answer to a heartbeat that is still on its way names a permitted grant. -/
structure Sheltered (daemon : DaemonServiceImpl) (w : State) : Prop where
  registered : Registered w.dispatcher
  allocated : w.executor.Allocated
  refs_lt : ∀ ref ∈ w.refs, ref.2 < w.executor.heapTop
  permitted : ∀ ref ∈ w.refs, ∀ grantId ∈ w.executor.compiling ref.2,
    Permitted w.dispatcher daemon.location grantId
  answers : ∀ call ∈ w.pending, ∀ id ∈ call.expiredIds,
    ¬Permitted w.dispatcher daemon.location id

namespace Sheltered

variable {service : SchedulerServiceImpl} {daemon : DaemonServiceImpl} {w : State}

theorem setJob (h : Sheltered daemon w) (job : ℕ) (phase : Job) :
    Sheltered daemon (w.setJob job phase) :=
  ⟨h.registered, h.allocated, h.refs_lt, h.permitted, h.answers⟩

/-- Calls may be sent, as long as the answers among them name no permitted grant. -/
theorem send (h : Sheltered daemon w) (calls : List Call)
    (hcalls : ∀ call ∈ calls, ∀ id ∈ call.expiredIds,
      ¬Permitted w.dispatcher daemon.location id) : Sheltered daemon (w.send calls) := by
  refine ⟨h.registered, h.allocated, h.refs_lt, h.permitted, fun call hcall => ?_⟩
  rcases List.mem_append.1 hcall with hold | hnew
  · exact h.answers call hold
  · exact hcalls call hnew

/-- A call leaves the network. -/
theorem erase (h : Sheltered daemon w) (i : ℕ) :
    Sheltered daemon { w with pending := w.pending.eraseIdx i } :=
  ⟨h.registered, h.allocated, h.refs_lt, h.permitted,
    fun call hcall => h.answers call (List.mem_of_mem_eraseIdx hcall)⟩

/-- Whatever the executor does, its objects only age. -/
theorem onServant (h : Sheltered daemon w) (op : ExecutorOp String) :
    Sheltered daemon (w.onServant op).1 := by
  have hages : w.executor.Ages (w.onServant op).1.executor := Cloud.ages_exec w.executor op
  refine ⟨h.registered, hages.allocated h.allocated, fun ref href => ?_, ?_, h.answers⟩
  · exact Nat.lt_of_lt_of_le (h.refs_lt ref href) hages.top
  · intro ref href grantId hc
    exact h.permitted ref href grantId (hages.compiling (h.refs_lt ref href) hc)

/-- A harmless step of the scheduler keeps the permissions and makes none that was denied. -/
theorem onScheduler (h : Sheltered daemon w) {e : SchedulerEvent} (he : Harmless w e) :
    Sheltered daemon (w.onScheduler service e).1 := by
  refine ⟨Scheduler.registered_scheduler h.registered e, h.allocated, h.refs_lt, ?_, ?_⟩
  · intro ref href grantId hc
    exact (h.permitted ref href grantId hc).next h.registered (he.1 ref href grantId hc)
  · intro call hcall id hid hperm
    rcases Scheduler.permitted_of_next h.registered hperm with hold | ⟨hgrants, rfl⟩
    · exact h.answers call hcall id hid hold
    · exact he.2 hgrants call hcall hid

/-- A reference to a compile whose grant is permitted. -/
theorem hold (h : Sheltered daemon w) (job : ℕ) {p : Option TaskPtr}
    (hp : ∀ q ∈ p, q < w.executor.heapTop ∧ ∀ grantId ∈ w.executor.compiling q,
      Permitted w.dispatcher daemon.location grantId) : Sheltered daemon (w.hold job p) := by
  have hcases : ∀ ref ∈ (w.hold job p).refs, ref.2 ∈ p ∨ ref ∈ w.refs := by
    intro ref href
    rcases List.mem_append.1 href with hnew | hold
    · obtain ⟨q, hq, rfl⟩ := List.mem_map.1 hnew
      exact Or.inl (Option.mem_toList.1 hq)
    · exact Or.inr hold
  refine ⟨h.registered, h.allocated, fun ref href => ?_, fun ref href => ?_, h.answers⟩
  · rcases hcases ref href with hnew | hold
    · exact (hp ref.2 hnew).1
    · exact h.refs_lt ref hold
  · rcases hcases ref href with hnew | hold
    · exact (hp ref.2 hnew).2
    · exact h.permitted ref hold

theorem unhold (h : Sheltered daemon w) (job : ℕ) (p : Option TaskPtr) :
    Sheltered daemon (w.unhold job p) :=
  ⟨h.registered, h.allocated, fun ref href => h.refs_lt ref (List.mem_of_mem_filter href),
    fun ref href => h.permitted ref (List.mem_of_mem_filter href), h.answers⟩

/-! ### Every step keeps the invariant -/

/-- The end of a task sends at most the release of its grant. -/
theorem finish (h : Sheltered daemon w) (job : ℕ) (grantId : Option UInt64) :
    Sheltered daemon (w.finish job grantId) :=
  (h.setJob job .done).send _ (by simp)

theorem onQueued (h : Sheltered daemon w) (job : ℕ) (servantTaskId : Option UInt64) :
    Sheltered daemon (w.onQueued job servantTaskId) := by
  unfold State.onQueued
  split
  · exact h.setJob job _
  · exact h.finish job _
  · exact h

theorem onRefAdded (h : Sheltered daemon w) (job : ℕ) (found : Bool) :
    Sheltered daemon (w.onRefAdded job found) := by
  unfold State.onRefAdded
  split
  · exact h.setJob job _
  · exact h

theorem onFreed (h : Sheltered daemon w) (job : ℕ) : Sheltered daemon (w.onFreed job) := by
  unfold State.onFreed
  split
  · exact h.finish job _
  · exact h

theorem onFailure (h : Sheltered daemon w) (job : ℕ) : Sheltered daemon (w.onFailure job) := by
  unfold State.onFailure
  split
  · exact h.onRefAdded job false
  · exact h.onQueued job none
  · exact h.onFreed job
  · exact h

theorem stopWaiting (h : Sheltered daemon w) (job : ℕ) :
    Sheltered daemon (w.stopWaiting job) := by
  unfold State.stopWaiting
  split
  · exact (h.setJob job _).send _ (by simp)
  · exact (h.setJob job _).send _ (by simp)
  · exact h

/-- `AddTaskRef` of a compile whose grant is permitted. -/
theorem addTaskRef (h : Sheltered daemon w) (job : ℕ) {servantTaskId : UInt64}
    (hjoin : Joinable daemon w servantTaskId) :
    Sheltered daemon ((w.onServant (.tryAddTaskRef servantTaskId)).1.hold job
      (w.executor.tasks.lookup servantTaskId)) := by
  refine (h.onServant _).hold job fun p hp => ?_
  have hlook : w.executor.tasks.lookup servantTaskId = some p := hp
  have hlt : p < w.executor.heapTop := h.allocated servantTaskId p hlook
  have hages := Cloud.ages_exec w.executor (.tryAddTaskRef servantTaskId)
  refine ⟨Nat.lt_of_lt_of_le hlt hages.top, fun grantId hc => ?_⟩
  exact hjoin p hlook grantId (hages.compiling hlt hc)

/-- The answer to a report names only grants that are not permitted. -/
theorem notify (h : Sheltered daemon w) (tasks : List Scheduler.RunningTask)
    (he : Harmless w (.op (.notifyServantRunningTasks daemon.location tasks) rfl)) :
    Sheltered daemon ((w.onScheduler service
      (.op (.notifyServantRunningTasks daemon.location tasks) rfl)).1.send
      [.expiredTasks (Scheduler.notifyServantRunningTasks w.dispatcher daemon.location
        tasks).unknownTasks]) := by
  refine (h.onScheduler he).send _ fun call hcall id hid => ?_
  rw [List.mem_singleton] at hcall
  rw [hcall] at hid
  exact Scheduler.not_permitted_of_unknown hid

/-- **The execution of a call.** -/
theorem perform (h : Sheltered daemon w) (env : Environment) (call : Call)
    (hsched : ∀ e ∈ call.schedulerEvent daemon env, Harmless w e)
    (hjoin : ∀ servantTaskId ∈ call.joinedId, Joinable daemon w servantTaskId) :
    Sheltered daemon (perform service daemon w env call).1 := by
  cases call with
  | queueCxxTask job grantId digest => exact (h.onServant _).send _ (by simp)
  | addTaskRef job servantTaskId =>
      exact (h.addTaskRef job (hjoin servantTaskId rfl)).send _ (by simp)
  | freeServantTask job servantTaskId =>
      exact ((h.onServant _).unhold job _).send _ (by simp)
  | queued job servantTaskId => exact h.onQueued job servantTaskId
  | refAdded job found => exact h.onRefAdded job found
  | freed job => exact h.onFreed job
  | freeGrant grantId => exact h.onScheduler (hsched _ rfl)
  | keepTaskAlive grantId => exact h.onScheduler (hsched _ rfl)
  | heartBeat peer report =>
      have hbeat : Sheltered daemon (w.onScheduler service
          (.heartBeat peer (daemon.heartBeatRequest report) env.now)).1 :=
        h.onScheduler (hsched _ rfl)
      simp only [Cluster.perform]
      split
      · exact hbeat.send _ (by simp)
      · exact hbeat
  | notify report => exact h.notify _ (hsched _ rfl)
  | expiredTasks ids => exact h.onServant _
  | killTask p => exact h.onServant _

end Sheltered

section Run

variable {service : SchedulerServiceImpl} {daemon : DaemonServiceImpl}

/-- **One step that keeps the grants keeps the invariant.** -/
theorem sheltered_step {w : State} {e : Event} (hk : KeepsGrants daemon w e)
    (h : Sheltered daemon w) : Sheltered daemon ((cluster service daemon).next w e) := by
  change Sheltered daemon (step service daemon w e).1
  cases e with
  | join job servantTaskId =>
      simp only [step]
      split
      · exact (h.setJob job _).send _ (by simp)
      · exact h
  | startNew job =>
      simp only [step]
      split
      · exact h.setJob job _
      · exact h
  | take job i digest =>
      simp only [step]
      split
      · refine Sheltered.send (Sheltered.setJob ?_ job _) _ (by simp)
        exact ⟨h.registered, h.allocated, h.refs_lt, h.permitted, h.answers⟩
      · exact h
  | leave job =>
      simp only [step]
      split
      · exact h.setJob job _
      · exact h.setJob job _
      · exact h
  | stopWaiting job => exact h.stopWaiting job
  | fail job => exact h.onFailure job
  | keepAlive job => exact h.send _ (by simp)
  | beat peer availMemoryInBytes currentLoad => exact h.send _ (by simp)
  | deliver i env =>
      simp only [step]
      split
      · exact h
      next call hcall =>
        refine (h.erase i).perform env call (fun e he => ?_) fun servantTaskId hadd => ?_
        · obtain ⟨hspares, hfresh⟩ := hk.1 e (by simpa [schedulerEvent, hcall] using he)
          exact ⟨hspares, fun hgrants call' hcall' =>
            hfresh hgrants call' (List.mem_of_mem_eraseIdx hcall')⟩
        · exact hk.2 servantTaskId (by simpa [joinedId, hcall] using hadd)
  | lose i => exact h.erase i
  | scheduler e =>
      have hnext : Sheltered daemon (w.onScheduler service e).1 := h.onScheduler (hk.1 e rfl)
      exact ⟨hnext.registered, hnext.allocated, hnext.refs_lt, hnext.permitted, hnext.answers⟩
  | servant op hop => exact h.onServant op

theorem sheltered_init (daemon : DaemonServiceImpl)
    (minMemoryForNewTask maxConcurrency minMemory : UInt64) :
    Sheltered daemon (.init minMemoryForNewTask maxConcurrency minMemory) where
  registered := Scheduler.registered_init minMemoryForNewTask
  allocated := by simp [State.init, Executor.Allocated]
  refs_lt := by simp [State.init]
  permitted := by simp [State.init]
  answers := by simp [State.init]

/-- A signal of `KillExpiredTasks` answers a heartbeat that is on its way. -/
theorem mem_expired {w : State} {e : Event} {signal : Signal}
    (h : signal ∈ ((cluster service daemon).out w e).expired) :
    ∃ ids, Call.expiredTasks ids ∈ w.pending ∧
      signal ∈ Cloud.killExpiredTasks w.executor ids := by
  change signal ∈ (step service daemon w e).2.expired at h
  cases e with
  | deliver i env =>
      simp only [step] at h
      split at h
      · cases h
      next call hcall =>
        have hmem : call ∈ w.pending := List.mem_of_getElem? hcall
        cases call with
        | expiredTasks ids => exact ⟨ids, hmem, h⟩
        | heartBeat peer report =>
            simp only [perform] at h
            split at h <;> cases h
        | _ => cases h
  | join job servantTaskId =>
      simp only [step] at h
      split at h <;> cases h
  | startNew job =>
      simp only [step] at h
      split at h <;> cases h
  | take job i digest =>
      simp only [step] at h
      split at h <;> cases h
  | leave job =>
      simp only [step] at h
      split at h <;> cases h
  | _ => cases h

/-- In a sheltered state, `KillExpiredTasks` spares what has been joined. -/
theorem Sheltered.sparesShared {w : State} (h : Sheltered daemon w) (e : Event) :
    SparesShared service daemon w e := by
  rintro signal hsignal ref href heq
  obtain ⟨ids, hids, hkill⟩ := mem_expired hsignal
  obtain ⟨grantId, hgrant, hc⟩ := Cloud.mem_killExpiredTasks hkill
  rw [← heq] at hc
  exact h.answers _ hids grantId hgrant (h.permitted ref href grantId hc)

/-- **A shared compile is not killed.**  In every run of the parties whose steps keep the grants, no
step lets `KillExpiredTasks` kill a compile that a task has joined and still refers to. -/
theorem shared_not_killed (service : SchedulerServiceImpl) (daemon : DaemonServiceImpl)
    (minMemoryForNewTask maxConcurrency minMemory : UInt64) (events : List Event)
    (h : (cluster service daemon).Along (KeepsGrants daemon)
      (.init minMemoryForNewTask maxConcurrency minMemory) events) :
    (cluster service daemon).Along (SparesShared service daemon)
      (.init minMemoryForNewTask maxConcurrency minMemory) events :=
  Machine.along_of_invariant (M := cluster service daemon) (fun _ _ => sheltered_step)
    (fun _ e _ hw => hw.sparesShared e)
    (sheltered_init daemon minMemoryForNewTask maxConcurrency minMemory) h

end Run

/-! ### A grant that is given back -/

/-- A servant with eight cores. -/
def sampleDaemon : DaemonServiceImpl where
  token := "servant"
  version := 1
  location := "10.0.0.1:8080"
  priority := .user
  totalMemoryInBytes := 0
  numCpuCores := 8
  envDescs := [⟨"gcc"⟩]

/-- The next call arrives. -/
def sampleDeliver : Event := .deliver 0 { now := 0, availMemory := 0, pid := 100 }

/-- A heartbeat of the servant, up to the answer of the scheduler. -/
def sampleBeat : List Event :=
  [.beat "ipv4:10.0.0.1:5555" 0 0, sampleDeliver, sampleDeliver]

/-- The servant registers itself, task `0` starts a compile under grant `0`, and task `1` joins
it. -/
def sampleShared : List Event :=
  sampleBeat ++ [sampleDeliver, .scheduler (.op Scheduler.sampleGrant rfl), .startNew 0,
    .take 0 0 "digest", sampleDeliver, sampleDeliver, .join 1 1, sampleDeliver, sampleDeliver]

/-- As long as task `0` waits, too, its grant is there and the shared compile goes on. -/
theorem shared_not_killed_both_waiting :
    let c := cluster Scheduler.sampleService sampleDaemon
    let events := sampleShared ++ [.keepAlive 0, sampleDeliver, .keepAlive 1, sampleDeliver] ++
      sampleBeat ++ [sampleDeliver]
    (1, 0) ∈ (c.run (.init 0 4 0) events).refs ∧
      c.Along (SparesShared Scheduler.sampleService sampleDaemon) (.init 0 4 0) events := by
  intro c events
  exact ⟨by decide, shared_not_killed Scheduler.sampleService sampleDaemon 0 4 0 events (by decide)⟩

/-- **A shared compile is killed.**  Task `0` stops waiting, takes its reference and then its grant
back, and ends.  Task `1` still waits, has the last reference and sends its keep-alives; but the
scheduler does not know the grant any more, and the answer to the next heartbeat kills the
compile. -/
theorem shared_killed :
    let c := cluster Scheduler.sampleService sampleDaemon
    let events := sampleShared ++ [.keepAlive 1, sampleDeliver, .stopWaiting 0, sampleDeliver,
      sampleDeliver, sampleDeliver, .keepAlive 1, sampleDeliver] ++ sampleBeat
    let w := c.run (.init 0 4 0) events
    w.jobs 0 = .done ∧ w.jobs 1 = .joined 1 ∧ (1, 0) ∈ w.refs ∧
      (w.executor.heap 0).map Cloud.TaskDesc.refCount = some 1 ∧
      (c.out w sampleDeliver).expired = [{ desc := 0, pid := 100 }] ∧
      ¬c.Along (SparesShared Scheduler.sampleService sampleDaemon) (.init 0 4 0)
        (events ++ [sampleDeliver]) := by
  decide

end Cluster
