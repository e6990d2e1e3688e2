/-
**The scheduler's task dispatcher.**

The scheduler of `distribuild` keeps one `TaskDispatcher`: the servants that have sent a heartbeat,
and the tasks that have been granted on them.  This module embeds `scheduler/task_dispatcher.h`,
`scheduler/task_dispatcher.cpp` and `scheduler/running_task_bookkeeper.cpp`, function by function
and under their names, and makes a machine of them: its inputs are the operations of the class,
each taken atomically under `alloc_mutex_`, with whatever the clock reads at that moment.

Three points of the embedding deserve a word.

* A `Servant` is an object behind a `shared_ptr`, stored in `servants_` and in the tasks granted on
  it, and it is shared by identity.  So the state has a heap of servant objects, a pointer is an
  address of that heap, and a servant that expires and comes back is a new object at a new address.
* The counters are `size_t` and `std::uint64_t`, so they are `UInt64` here and wrap around.
* `DISTBU_CHECK` only logs.  A failed check does not stop the function, and where a claim speaks of
  a check the function returns whether it held.

`WaitForStartingNewTask` sleeps on a condition variable between two looks at the servants.  The
operation here is one such look, with the grant if there is one; the sleeping callers are added in
`Distribuild/SchedulerWait.lean`.

Main definitions:

* `Scheduler.TaskDispatcher` — the state;
* `Scheduler.availableTasks`, `Scheduler.unsafeGetServantsHasEnv`,
  `Scheduler.unsafeGetFreeServants`, `Scheduler.unsafePickUpServant`,
  `Scheduler.unsafePickUpFreeServant` — the choice of a servant;
* `Scheduler.waitForStartingNewTask`, `Scheduler.keepTaskAlive`, `Scheduler.freeTask`,
  `Scheduler.keepServantAlive`, `Scheduler.notifyServantRunningTasks`,
  `Scheduler.onTimerExpiration` — the operations;
* `Scheduler.dispatcher` — the machine.
-/

import Distribuild.Machine
import Distribuild.Table

set_option relaxedAutoImplicit false
set_option autoImplicit false

namespace Scheduler

/-! ### The data model -/

/-- A reading of `std::chrono::steady_clock`, in nanoseconds. -/
abbrev TimePoint := ℕ

/-- A length of time, in nanoseconds. -/
abbrev Duration := ℕ

/-- `n * 1ms`. -/
def ms (n : ℕ) : Duration := n * 1000000

/-- `n * 1s`. -/
def sec (n : ℕ) : Duration := n * 1000000000

/-- A compiler, known by the digest of its executable. -/
structure EnviromentDesc where
  compilerDigest : String
deriving DecidableEq, Repr

/-- `ServantPriority`.  The enumerations of proto3 are open: a request may carry any number. -/
inductive ServantPriority
  | unknown
  | user
  | dedicated
  | other (value : UInt32)
deriving DecidableEq, Repr

structure TaskAllocation where
  taskId : UInt64
  servantLocation : String
deriving DecidableEq, Repr

structure TaskInfo where
  requesterIp : String
  minVersion : UInt32
  envDesc : EnviromentDesc
deriving DecidableEq, Repr

structure ServantInfo where
  version : UInt32
  observedLocation : String
  reportedLocation : String
  numCpuCores : UInt64
  currentLoad : UInt64
  totalMemoryInBytes : UInt64
  availMemoryInBytes : UInt64
  concurrency : UInt64
  priority : ServantPriority
  envDecs : List EnviromentDesc
deriving DecidableEq, Repr

structure Servant where
  servantInfo : ServantInfo
  discoveredTp : TimePoint
  expiresTp : TimePoint
  runningTasks : UInt64 := 0
  assignedTasks : UInt64 := 0
deriving DecidableEq, Repr

/-- The identity of a `Servant` object: what a `Servant::Ptr` points to. -/
abbrev ServantPtr := ℕ

structure Task where
  taskId : UInt64
  taskInfo : TaskInfo
  servant : ServantPtr
  startedTp : TimePoint
  expiresTp : TimePoint
  isPrefetch : Bool := false
  isZombie : Bool := false
deriving DecidableEq, Repr

/-- A task as a servant reports it in its heartbeat. -/
structure RunningTask where
  servantTaskId : UInt64
  taskGrantId : UInt64
  servantLocation : String
  taskDigest : String
deriving DecidableEq, Repr

/-- `RunningTaskBookkeeper`: the running tasks each location has reported. -/
structure RunningTaskBookkeeper where
  runningTasks : Table String (List RunningTask) := ∅

def RunningTaskBookkeeper.setRunningTask (b : RunningTaskBookkeeper) (location : String)
    (tasks : List RunningTask) : RunningTaskBookkeeper where
  -- `erase` and then `emplace`
  runningTasks := (b.runningTasks.erase location).insert location tasks

def RunningTaskBookkeeper.delServant (b : RunningTaskBookkeeper) (location : String) :
    RunningTaskBookkeeper where
  runningTasks := b.runningTasks.erase location

def RunningTaskBookkeeper.getRunningTasks (b : RunningTaskBookkeeper) : List RunningTask :=
  -- every vector is inserted at the beginning of the result
  b.runningTasks.entries.foldl (fun result e => e.2 ++ result) []

/-- The state of the `TaskDispatcher`.  `heap` holds the servant objects and `heapTop` is the first
address that has never been used. -/
structure TaskDispatcher where
  heap : ServantPtr → Servant
  heapTop : ServantPtr := 0
  servants : List ServantPtr := []
  tasks : Table UInt64 Task := ∅
  nextTaskId : UInt64 := 0
  runningTaskBookkeeper : RunningTaskBookkeeper := {}
  minMemoryForNewTask : UInt64

namespace TaskDispatcher

/-- The information of the servant behind a pointer. -/
def infoOf (s : TaskDispatcher) (p : ServantPtr) : ServantInfo := (s.heap p).servantInfo

/-- The `observed_location` of the servant behind a pointer. -/
def locationOf (s : TaskDispatcher) (p : ServantPtr) : String := (s.infoOf p).observedLocation

/-- The object at `p` after `f` has been applied to it. -/
def modifyServant (s : TaskDispatcher) (p : ServantPtr) (f : Servant → Servant) :
    TaskDispatcher :=
  { s with heap := Function.update s.heap p (f (s.heap p)) }

/-- The first servant registered at a location: the loop over `servants_` that both
`KeepServantAlive` and `NotifyServantRunningTasks` begin with. -/
def findServant (s : TaskDispatcher) (location : String) : Option ServantPtr :=
  s.servants.find? fun p => s.locationOf p == location

end TaskDispatcher

/-! ### Choosing a servant -/

/-- `find_env`: the servant has the compiler of the task. -/
def findEnv (info : ServantInfo) (taskInfo : TaskInfo) : Bool :=
  info.envDecs.any fun env => env.compilerDigest == taskInfo.envDesc.compilerDigest

/-- The tests that `UnsafeGetServantsHasEnv` makes on one servant: none of its three `continue`s
is taken. -/
def hasEnv (info : ServantInfo) (taskInfo : TaskInfo) : Bool :=
  findEnv info taskInfo && !decide (info.concurrency ≤ 0) &&
    !decide (info.version > taskInfo.minVersion)

def unsafeGetServantsHasEnv (s : TaskDispatcher) (taskInfo : TaskInfo) : List ServantPtr :=
  s.servants.filter fun p => hasEnv (s.infoOf p) taskInfo

/-- `AvailableTasks`, for a given `min_memory_for_new_task_`.  Both differences are taken in
`size_t`, so they wrap around before they are compared with `0`. -/
def availableTasks (minMemoryForNewTask : UInt64) (servant : Servant) : UInt64 :=
  if servant.servantInfo.totalMemoryInBytes ≠ 0 ∧
      servant.servantInfo.availMemoryInBytes < minMemoryForNewTask then
    servant.runningTasks
  else
    let load := max (servant.servantInfo.currentLoad - servant.runningTasks) 0
    let availTasks := max (servant.servantInfo.numCpuCores - load) 0
    min servant.servantInfo.concurrency availTasks

/-- The test of `UnsafeGetFreeServants` on one servant: it is not busy. -/
def isFree (minMemoryForNewTask : UInt64) (servant : Servant) : Bool :=
  !decide (servant.runningTasks ≥ availableTasks minMemoryForNewTask servant)

def unsafeGetFreeServants (s : TaskDispatcher) (eligibleServants : List ServantPtr) :
    List ServantPtr :=
  eligibleServants.filter fun p => isFree s.minMemoryForNewTask (s.heap p)

/-- The value of `double(n)` for a 64-bit `n`: rounded to 53 significant bits, to the nearest and
to even on a tie.  It is an integer again. -/
def toDouble (n : UInt64) : ℕ :=
  let e := Nat.log2 n.toNat - 52
  let q := n.toNat / 2 ^ e
  let r := n.toNat % 2 ^ e
  if 2 * r < 2 ^ e ∨ (2 * r = 2 ^ e ∧ q % 2 = 0) then q * 2 ^ e else (q + 1) * 2 ^ e

/-- `std::numeric_limits<double>::max()`. -/
def doubleMax : ℕ := (2 ^ 53 - 1) * 2 ^ 971

/-- `utilization`: the quotient is taken between integers and converted afterwards. -/
def utilization (servant : Servant) : ℕ :=
  toDouble (servant.runningTasks / servant.servantInfo.concurrency)

/-- One pass of the loop of `UnsafePickUpServant`, on `(result, min_utilization)`. -/
def pickUpStep (s : TaskDispatcher) (filter : Servant → Bool) (best : ServantPtr × ℕ)
    (p : ServantPtr) : ServantPtr × ℕ :=
  if !filter (s.heap p) then best
  else if utilization (s.heap p) < best.2 then (p, utilization (s.heap p))
  else best

/-- `UnsafePickUpServant`; `none` is the null pointer. -/
def unsafePickUpServant (s : TaskDispatcher) (servants : List ServantPtr)
    (filter : Servant → Bool) : Option ServantPtr :=
  match servants with
  | [] => none
  | p :: ps => some ((p :: ps).foldl (pickUpStep s filter) (p, doubleMax)).1

/-- The servant runs on the machine of the requester: its location is the requester's address, a
colon and something else.  (`size`, `[]` and `StartWith` count bytes; once the address is a prefix
of the location, counting characters comes to the same.) -/
def sameIp (requestorIp : String) (location : String) : Bool :=
  decide (location.toList.length > requestorIp.toList.length) &&
    (location.toList[requestorIp.toList.length]? == some ':') &&
    requestorIp.toList.isPrefixOf location.toList

/-- The first stage of `UnsafePickUpFreeServant` looks for a dedicated machine. -/
def isDedicated (servant : Servant) : Bool :=
  servant.servantInfo.priority == .dedicated &&
    decide (servant.servantInfo.concurrency > 2 * servant.runningTasks)

/-- `UnsafePickUpFreeServant`.  The second component says whether its two final checks held on the
path that was taken; on the other paths they are not made. -/
def unsafePickUpFreeServant (s : TaskDispatcher) (freeServants : List ServantPtr)
    (requestorIp : String) : Option ServantPtr × Bool :=
  let self := freeServants.find? fun p => sameIp requestorIp (s.locationOf p)
  let rest := freeServants.eraseP fun p => sameIp requestorIp (s.locationOf p)
  match unsafePickUpServant s rest isDedicated with
  | some p => (some p, true)
  | none =>
      match unsafePickUpServant s rest fun _ => true with
      | some p => (some p, true)
      | none =>
          match self with
          | some p => (some p, decide (availableTasks s.minMemoryForNewTask (s.heap p) ≠ 0))
          | none => (none, false)

/-! ### Granting a task -/

/-- What one look at the servants in `WaitForStartingNewTask` ends with. -/
inductive StartResult
  /-- `{{TaskAllocation}, WaitStatus::OK}`; the chosen servant object is recorded as well. -/
  | granted (allocation : TaskAllocation) (servant : ServantPtr)
  /-- `{std::nullopt, WaitStatus::EnvNotFound}`. -/
  | envNotFound
  /-- No free machine: the caller goes to sleep on `alloc_cv_`. -/
  | noFreeServant
  /-- A null pointer was picked and is dereferenced. -/
  | nullServant
deriving DecidableEq, Repr

/-- The part of `WaitForStartingNewTask` after the loop, for a picked servant. -/
def startNewTask (s : TaskDispatcher) (picked : ServantPtr) (taskInfo : TaskInfo)
    (expiresIn : Duration) (prefetching : Bool) (now : TimePoint) :
    TaskDispatcher × TaskAllocation :=
  let s := s.modifyServant picked fun servant =>
    { servant with
      runningTasks := servant.runningTasks + 1
      assignedTasks := servant.assignedTasks + 1 }
  let taskId := s.nextTaskId
  let newTask : Task :=
    { taskId := taskId
      taskInfo := taskInfo
      servant := picked
      startedTp := now
      expiresTp := now + expiresIn
      isPrefetch := prefetching
      -- `tasks_[task_id]` is not assigned anew as a whole: an old entry keeps this flag
      isZombie := ((s.tasks.lookup taskId).map Task.isZombie).getD false }
  ({ s with tasks := s.tasks.insert taskId newTask, nextTaskId := taskId + 1 },
    { taskId := taskId, servantLocation := s.locationOf picked })

/-- The free servants for a request, as the loop of `WaitForStartingNewTask` computes them. -/
def freeServantsFor (s : TaskDispatcher) (taskInfo : TaskInfo) : List ServantPtr :=
  unsafeGetFreeServants s (unsafeGetServantsHasEnv s taskInfo)

/-- `WaitForStartingNewTask`: one look at the servants, and the grant if one of them is free. -/
def waitForStartingNewTask (s : TaskDispatcher) (taskInfo : TaskInfo) (expiresIn : Duration)
    (prefetching : Bool) (now : TimePoint) : TaskDispatcher × StartResult :=
  if (unsafeGetServantsHasEnv s taskInfo).isEmpty then (s, .envNotFound)
  else if (freeServantsFor s taskInfo).isEmpty then (s, .noFreeServant)
  else
    match (unsafePickUpFreeServant s (freeServantsFor s taskInfo) taskInfo.requesterIp).1 with
    | none => (s, .nullServant)
    | some picked =>
        let r := startNewTask s picked taskInfo expiresIn prefetching now
        (r.1, .granted r.2 picked)

/-! ### Keeping alive and freeing -/

def keepTaskAlive (s : TaskDispatcher) (taskId : UInt64) (expireTime : Duration)
    (now : TimePoint) : TaskDispatcher × Bool :=
  match s.tasks.lookup taskId with
  | none => (s, false)
  | some task =>
      if task.isZombie then (s, false)
      else
        ({ s with tasks := s.tasks.insert taskId { task with expiresTp := now + expireTime } },
          true)

/-- The body of the loop of `UnsafeFreeTask`, for a task that was found. -/
def releaseTask (s : TaskDispatcher) (id : UInt64) (task : Task) : TaskDispatcher :=
  { s.modifyServant task.servant fun servant =>
      { servant with runningTasks := servant.runningTasks - 1 } with
    tasks := s.tasks.erase id }

/-- `UnsafeFreeTask`; the second component says whether `alloc_cv_.notify_all()` was reached.  An
unknown id makes the function return in the middle of its loop. -/
def unsafeFreeTask (s : TaskDispatcher) : List UInt64 → TaskDispatcher × Bool
  | [] => (s, true)
  | id :: ids =>
      match s.tasks.lookup id with
      | none => (s, false)
      | some task => unsafeFreeTask (releaseTask s id task) ids

def freeTask (s : TaskDispatcher) (taskId : UInt64) : TaskDispatcher × Bool :=
  unsafeFreeTask s [taskId]

/-- The tasks that `UnsafeClearZombies` frees. -/
def zombiesOf (s : TaskDispatcher) (servant : ServantPtr) (runningTaskIds : List UInt64) :
    List UInt64 :=
  s.tasks.keysWhere fun _ task =>
    task.servant == servant && task.isZombie && !runningTaskIds.contains task.taskId

def unsafeClearZombies (s : TaskDispatcher) (servant : ServantPtr)
    (runningTaskIds : List UInt64) : TaskDispatcher × Bool :=
  unsafeFreeTask s (zombiesOf s servant runningTaskIds)

/-! ### Heartbeats and expiry -/

/-- `KeepServantAlive`; the object that was written is returned as well. -/
def keepServantAlive (s : TaskDispatcher) (servantInfo : ServantInfo) (expireTime : Duration)
    (now : TimePoint) : TaskDispatcher × ServantPtr :=
  match s.findServant servantInfo.observedLocation with
  | some p =>
      (s.modifyServant p fun servant =>
        { servant with servantInfo := servantInfo, expiresTp := now + expireTime }, p)
  | none =>
      ({ s with
          heap := Function.update s.heap s.heapTop
            { servantInfo := servantInfo, discoveredTp := now, expiresTp := now + expireTime }
          heapTop := s.heapTop + 1
          servants := s.servants ++ [s.heapTop] }, s.heapTop)

/-- The tasks a servant may run: its own tasks that are not zombies. -/
def permittedTaskIds (s : TaskDispatcher) (servant : ServantPtr) : List UInt64 :=
  s.tasks.keysWhere fun _ task => task.servant == servant && !task.isZombie

/-- What `NotifyServantRunningTasks` gives back: the state, the ids that are not permitted in the
order of the report, and whether `notify_all` was reached. -/
structure NotifyResult where
  dispatcher : TaskDispatcher
  unknownTasks : List UInt64
  notified : Bool

def notifyServantRunningTasks (s : TaskDispatcher) (servantLocation : String)
    (tasks : List RunningTask) : NotifyResult :=
  let taskGrantIds := tasks.map RunningTask.taskGrantId
  match s.findServant servantLocation with
  | none => { dispatcher := s, unknownTasks := taskGrantIds, notified := false }
  | some servant =>
      let cleared := unsafeClearZombies s servant taskGrantIds
      let permitted := permittedTaskIds cleared.1 servant
      let unknown := tasks.filter fun t => !permitted.contains t.taskGrantId
      let known := tasks.filter fun t => permitted.contains t.taskGrantId
      { dispatcher :=
          { cleared.1 with
            runningTaskBookkeeper :=
              cleared.1.runningTaskBookkeeper.setRunningTask servantLocation known }
        unknownTasks := unknown.map RunningTask.taskGrantId
        notified := cleared.2 }

/-- The first pass of `OnTimerExpiration`: expired servants leave `servants_` and the
bookkeeper. -/
def expireServants (s : TaskDispatcher) (now : TimePoint) : TaskDispatcher :=
  let expired := s.servants.filter fun p => decide ((s.heap p).expiresTp < now)
  { s with
    servants := s.servants.filter fun p => !decide ((s.heap p).expiresTp < now)
    runningTaskBookkeeper :=
      expired.foldl (fun b p => b.delServant (s.locationOf p)) s.runningTaskBookkeeper }

/-- The tasks whose servant is no longer in `servants_`. -/
def orphans (s : TaskDispatcher) : List UInt64 :=
  s.tasks.keysWhere fun _ task => !s.servants.contains task.servant

/-- The last pass of `OnTimerExpiration`: expired tasks become zombies. -/
def markZombies (s : TaskDispatcher) (now : TimePoint) : TaskDispatcher :=
  { s with
    tasks := s.tasks.mapVal fun task =>
      { task with isZombie := task.isZombie || decide (task.expiresTp < now) } }

/-- `OnTimerExpiration`; the second component says whether `notify_all` was reached. -/
def onTimerExpiration (s : TaskDispatcher) (now : TimePoint) : TaskDispatcher × Bool :=
  let s := expireServants s now
  let freed := unsafeFreeTask s (orphans s)
  (markZombies freed.1 now, freed.2)

/-! ### The dispatcher as a machine -/

/-- The operations of the dispatcher.  `rehash` is none of them: the iteration order of an
`unordered_map` is not specified, so it may change between any two operations. -/
inductive Op
  | waitForStartingNewTask (taskInfo : TaskInfo) (expiresIn : Duration) (prefetching : Bool)
      (now : TimePoint)
  | keepTaskAlive (taskId : UInt64) (expireTime : Duration) (now : TimePoint)
  | freeTask (taskId : UInt64)
  | keepServantAlive (servantInfo : ServantInfo) (expireTime : Duration) (now : TimePoint)
  | notifyServantRunningTasks (servantLocation : String) (tasks : List RunningTask)
  | onTimerExpiration (now : TimePoint)
  | rehash (taskRank : UInt64 → ℕ) (locationRank : String → ℕ)

/-- What an operation returns.  `KeepServantAlive` is a `void` function; the object it wrote is
recorded so that the history of a servant object can be read off a run. -/
inductive Output
  | started (result : StartResult)
  | kept (alive : Bool)
  | freed
  | wrote (servant : ServantPtr)
  | unknownTasks (ids : List UInt64)
  | silent
deriving DecidableEq, Repr

/-- Every table of the dispatcher in another iteration order. -/
def TaskDispatcher.rehash (s : TaskDispatcher) (taskRank : UInt64 → ℕ)
    (locationRank : String → ℕ) : TaskDispatcher :=
  { s with
    tasks := Table.rehash taskRank s.tasks
    runningTaskBookkeeper :=
      { runningTasks := Table.rehash locationRank s.runningTaskBookkeeper.runningTasks } }

/-- One operation on the dispatcher. -/
def exec (s : TaskDispatcher) : Op → TaskDispatcher × Output
  | .waitForStartingNewTask taskInfo expiresIn prefetching now =>
      let r := waitForStartingNewTask s taskInfo expiresIn prefetching now
      (r.1, .started r.2)
  | .keepTaskAlive taskId expireTime now =>
      let r := keepTaskAlive s taskId expireTime now
      (r.1, .kept r.2)
  | .freeTask taskId => ((freeTask s taskId).1, .freed)
  | .keepServantAlive servantInfo expireTime now =>
      let r := keepServantAlive s servantInfo expireTime now
      (r.1, .wrote r.2)
  | .notifyServantRunningTasks servantLocation tasks =>
      let r := notifyServantRunningTasks s servantLocation tasks
      (r.dispatcher, .unknownTasks r.unknownTasks)
  | .onTimerExpiration now => ((onTimerExpiration s now).1, .silent)
  | .rehash taskRank locationRank => (s.rehash taskRank locationRank, .silent)

/-- **The dispatcher as a machine.** -/
def dispatcher : Machine TaskDispatcher Op Output := ⟨exec⟩

@[simp] theorem dispatcher_next (s : TaskDispatcher) (op : Op) :
    dispatcher.next s op = (exec s op).1 := rfl

@[simp] theorem dispatcher_out (s : TaskDispatcher) (op : Op) :
    dispatcher.out s op = (exec s op).2 := rfl

/-- An object that no constructor has been run on. -/
def noServant : Servant where
  servantInfo :=
    { version := 0, observedLocation := "", reportedLocation := "", numCpuCores := 0
      currentLoad := 0, totalMemoryInBytes := 0, availMemoryInBytes := 0, concurrency := 0
      priority := .unknown, envDecs := [] }
  discoveredTp := 0
  expiresTp := 0

/-- The dispatcher as its constructor leaves it, for a value of `FLAGS_min_memory_for_new_task`. -/
def TaskDispatcher.init (minMemoryForNewTask : UInt64) : TaskDispatcher where
  heap := fun _ => noServant
  minMemoryForNewTask := minMemoryForNewTask

end Scheduler
