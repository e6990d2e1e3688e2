/-
**The executor with its processes and threads.**

`Distribuild/CloudExecutor.lean` embeds the functions of `Executor` and cuts them where they leave
`task_mutex_`.  This module puts them back together with what runs around them: the child processes,
the thread `WaiterProc` that waits for them, the `OnExitTask`s it hands to the thread pool, and the
threads that are in the middle of `FreeTask` and `WaitForTask`.  It embeds `Executor::Executor`,
`Executor::WaiterProc` and `StartProgram`, as far as they are not about files.

The operating system decides which pid a new child gets.  It may be any that no child has which
`wait` has not returned yet: after that a pid is free to be used again.  It also decides which child
`wait` returns, and `fork` may fail.

Main definitions:

* `Cloud.Host` — the executor, its children, and its threads;
* `Cloud.HostEvent`, `Cloud.host` — their steps, and the machine;
* `Cloud.Host.init` — the executor as its constructor leaves it;
* `Cloud.Host.Sound` — which objects the parts of the host refer to.

Main results:

* `Cloud.host_simulates` — the steps of the host are operations of the executor;
* `Cloud.sound_run` — **every child and every pending callback belongs to an object with its pid**,
  and no object is filed twice.
-/

import Distribuild.CloudOperations

set_option relaxedAutoImplicit false
set_option autoImplicit false

namespace Cloud

/-! ### Children and threads -/

/-- A child process, with the object it was started for. -/
structure Child where
  pid : Pid
  desc : TaskPtr
deriving DecidableEq, Repr

/-- An `OnExitTask` that has been handed to the thread pool, with the object whose child has ended.
There is none when `wait` has failed. -/
structure ExitTask where
  pid : Pid
  desc : Option TaskPtr
deriving DecidableEq, Repr

/-- Where the thread `WaiterProc` is. -/
inductive WaiterState
  /-- At the condition of its loop. -/
  | checking
  /-- In `waitpid_semaphore_.acquire()`. -/
  | acquiring
  /-- At the test after it. -/
  | rechecking
  /-- In `wait(&status)`. -/
  | waiting
  | exited
deriving DecidableEq, Repr

/-- The executor and what runs around it. -/
structure Host (τ : Type) where
  executor : Executor τ
  /-- The children that `wait` has not returned. -/
  children : List Child := []
  /-- The callbacks that have not run. -/
  exits : List ExitTask := []
  /-- The callbacks that have left the lock and have not yet reported the result. -/
  completing : List TaskPtr := []
  /-- The threads in `FreeTask` that have left the lock and have not yet called `KillTask`. -/
  killing : List TaskPtr := []
  /-- The threads in `WaitForTask` that have found their object. -/
  callers : List TaskPtr := []
  waiter : WaiterState := .checking
  /-- How many of the permits that were released `WaiterProc` has acquired. -/
  acquired : ℕ := 0

variable {τ : Type}

/-- The operating system can return this pid from `fork`. -/
def Host.CanFork (h : Host τ) (pid : Pid) : Prop :=
  pid = -1 ∨ (0 < pid ∧ ∀ child ∈ h.children, child.pid ≠ pid)

instance (h : Host τ) (pid : Pid) : Decidable (h.CanFork pid) :=
  inferInstanceAs (Decidable (pid = -1 ∨ (0 < pid ∧ ∀ child ∈ h.children, child.pid ≠ pid)))

/-- `has_work`. -/
def hasWork (e : Executor τ) : Bool := !e.exiting || decide (e.runningTasks ≠ 0)

/-! ### The steps -/

/-- The steps of the host.  A number names one of the threads or children in a list. -/
inductive HostEvent (τ : Type)
  | tryQueueTask (grantId : UInt64) (userTask : τ) (availMemory : UInt64) (pid : Pid)
      (now : TimePoint)
  | tryAddTaskRef (taskId : UInt64)
  | freeTask (taskId : UInt64)
  /-- A thread in `FreeTask` calls `KillTask`. -/
  | killTask (thread : ℕ)
  | waitForTask (taskId : UInt64)
  /-- The wait of a thread in `WaitForTask` ends, since the event is set or since it times out. -/
  | tryWait (thread : ℕ)
  | killExpiredTasks (expiredGrantIds : List UInt64)
  | onTimerClean (now : TimePoint)
  | stop
  | rehash (rank : UInt64 → ℕ)
  /-- `WaiterProc` goes on, as long as it is not in `wait`. -/
  | waiterProc
  /-- `wait` returns a child, and an `OnExitTask` is started for it. -/
  | reap (child : ℕ)
  /-- `wait` returns `-1`, since there is no child. -/
  | waitFails
  | onExitCallback (thread : ℕ) (now : TimePoint)
  /-- A callback ends: the task is completed and the event set. -/
  | reportCompletion (thread : ℕ)

/-- What a step shows. -/
inductive HostOutput (τ : Type)
  /-- The step is not possible. -/
  | disabled
  | queued (taskId : Option UInt64)
  | added (found : Bool)
  | freed (desc : Option TaskPtr)
  | signals (signals : List Signal)
  | waits (desc : Option TaskPtr)
  /-- `WaitForTask` returns. -/
  | waited (desc : TaskPtr) (task : Option τ) (status : ExecutionStatus)
  | calledBack (desc : Option TaskPtr)
  /-- `OnCompleted` has been called and the event set. -/
  | completed (desc : TaskPtr)
  | done
deriving DecidableEq, Repr

/-- `TryQueueTask`, with the child that `fork` has made. -/
def Host.tryQueueTask (h : Host τ) (grantId : UInt64) (userTask : τ) (availMemory : UInt64)
    (pid : Pid) (now : TimePoint) : Host τ × HostOutput τ :=
  let r := Cloud.tryQueueTask h.executor grantId userTask availMemory pid now
  let started := if r.2.isSome ∧ pid ≠ -1 then [⟨pid, h.executor.heapTop⟩] else []
  ({ h with executor := r.1, children := h.children ++ started }, .queued r.2)

/-- One step of `WaiterProc`. -/
def Host.waiterProc (h : Host τ) : Host τ × HostOutput τ :=
  match h.waiter with
  | .checking =>
      ({ h with waiter := if hasWork h.executor then .acquiring else .exited }, .done)
  | .acquiring =>
      if h.acquired < h.executor.permits then
        ({ h with waiter := .rechecking, acquired := h.acquired + 1 }, .done)
      else (h, .disabled)
  | .rechecking =>
      ({ h with waiter := if hasWork h.executor then .waiting else .exited }, .done)
  | .waiting => (h, .disabled)
  | .exited => (h, .disabled)

/-- `wait` returns the given child. -/
def Host.reap (h : Host τ) (i : ℕ) : Host τ × HostOutput τ :=
  match h.waiter, h.children[i]? with
  | .waiting, some child =>
      ({ h with
          children := h.children.eraseIdx i
          exits := h.exits ++ [⟨child.pid, some child.desc⟩]
          waiter := .checking }, .done)
  | _, _ => (h, .disabled)

/-- `wait` fails.  The check on the pid only logs, so outside of `Stop` a callback for `-1` is
started. -/
def Host.waitFails (h : Host τ) : Host τ × HostOutput τ :=
  match h.waiter, h.children with
  | .waiting, [] =>
      if h.executor.exiting then ({ h with waiter := .exited }, .done)
      else ({ h with exits := h.exits ++ [⟨-1, none⟩], waiter := .checking }, .done)
  | _, _ => (h, .disabled)

/-- One step of the host. -/
def hostStep (h : Host τ) : HostEvent τ → Host τ × HostOutput τ
  | .tryQueueTask grantId userTask availMemory pid now =>
      if h.CanFork pid then h.tryQueueTask grantId userTask availMemory pid now
      else (h, .disabled)
  | .tryAddTaskRef taskId =>
      let r := tryAddTaskRef h.executor taskId
      ({ h with executor := r.1 }, .added r.2)
  | .freeTask taskId =>
      let r := freeTask h.executor taskId
      ({ h with executor := r.1, killing := h.killing ++ r.2.toList }, .freed r.2)
  | .killTask i =>
      match h.killing[i]? with
      | some p => ({ h with killing := h.killing.eraseIdx i }, .signals (killTask h.executor p))
      | none => (h, .disabled)
  | .waitForTask taskId =>
      let r := waitForTask h.executor taskId
      ({ h with callers := h.callers ++ r.toList }, .waits r)
  | .tryWait i =>
      match h.callers[i]? with
      | some p =>
          let r := tryWait h.executor p
          let task := if r.2 = .unknown then (h.executor.heap p).map TaskDesc.task else none
          ({ h with executor := r.1, callers := h.callers.eraseIdx i }, .waited p task r.2)
      | none => (h, .disabled)
  | .killExpiredTasks expiredGrantIds =>
      (h, .signals (killExpiredTasks h.executor expiredGrantIds))
  | .onTimerClean now => ({ h with executor := onTimerClean h.executor now }, .done)
  | .stop => ({ h with executor := (stop h.executor).1 }, .signals (stop h.executor).2)
  | .rehash rank =>
      ({ h with executor := { h.executor with tasks := Table.rehash rank h.executor.tasks } },
        .done)
  | .waiterProc => h.waiterProc
  | .reap i => h.reap i
  | .waitFails => h.waitFails
  | .onExitCallback i now =>
      match h.exits[i]? with
      | some exit =>
          let r := onExitCallback h.executor exit.pid now
          ({ h with
              executor := r.1
              exits := h.exits.eraseIdx i
              completing := h.completing ++ r.2.toList }, .calledBack r.2)
      | none => (h, .disabled)
  | .reportCompletion i =>
      match h.completing[i]? with
      | some p =>
          ({ h with
              executor := reportCompletion h.executor p
              completing := h.completing.eraseIdx i }, .completed p)
      | none => (h, .disabled)

/-- **The host as a machine.** -/
def host (τ : Type) : Machine (Host τ) (HostEvent τ) (HostOutput τ) := ⟨hostStep⟩

@[simp] theorem host_next (h : Host τ) (event : HostEvent τ) :
    (host τ).next h event = (hostStep h event).1 := rfl

@[simp] theorem host_out (h : Host τ) (event : HostEvent τ) :
    (host τ).out h event = (hostStep h event).2 := rfl

/-- What a step shows is an answer to it. -/
def HostEvent.answeredBy : HostEvent τ → HostOutput τ → Bool
  | _, .disabled => true
  | .tryQueueTask .., .queued _ => true
  | .tryAddTaskRef _, .added _ => true
  | .freeTask _, .freed _ => true
  | .killTask _, .signals _ => true
  | .killExpiredTasks _, .signals _ => true
  | .stop, .signals _ => true
  | .waitForTask _, .waits _ => true
  | .tryWait _, .waited .. => true
  | .onExitCallback .., .calledBack _ => true
  | .reportCompletion _, .completed _ => true
  | .onTimerClean _, .done => true
  | .rehash _, .done => true
  | .waiterProc, .done => true
  | .reap _, .done => true
  | .waitFails, .done => true
  | _, _ => false

theorem answeredBy_hostStep (h : Host τ) (event : HostEvent τ) :
    event.answeredBy (hostStep h event).2 = true := by
  cases event with
  | waiterProc =>
      simp only [hostStep, Host.waiterProc]
      split
      · rfl
      · split
        · rfl
        · rfl
      · rfl
      · rfl
      · rfl
  | waitFails =>
      simp only [hostStep, Host.waitFails]
      split
      · split
        · rfl
        · rfl
      · rfl
  | reap i =>
      simp only [hostStep, Host.reap]
      split
      · rfl
      · rfl
  | tryQueueTask grantId userTask availMemory pid now =>
      simp only [hostStep]
      split
      · rfl
      · rfl
  | killTask i =>
      simp only [hostStep]
      split
      · rfl
      · rfl
  | tryWait i =>
      simp only [hostStep]
      split
      · rfl
      · rfl
  | onExitCallback i now =>
      simp only [hostStep]
      split
      · rfl
      · rfl
  | reportCompletion i =>
      simp only [hostStep]
      split
      · rfl
      · rfl
  | _ => rfl

/-- The step asks for a compile. -/
def HostEvent.queues : HostEvent τ → Bool
  | .tryQueueTask .. => true
  | _ => false

/-- Only `FreeTask` adds to the objects that are to be killed. -/
theorem killing_hostStep (h : Host τ) {event : HostEvent τ} (hfree : ∀ id, event ≠ .freeTask id) :
    ∀ p ∈ (hostStep h event).1.killing, p ∈ h.killing := by
  intro p hmem
  cases event with
  | freeTask id => exact absurd rfl (hfree id)
  | killTask i =>
      simp only [hostStep] at hmem
      split at hmem
      · exact List.mem_of_mem_eraseIdx hmem
      · exact hmem
  | waiterProc =>
      simp only [hostStep, Host.waiterProc] at hmem
      split at hmem
      · exact hmem
      · split at hmem
        · exact hmem
        · exact hmem
      · exact hmem
      · exact hmem
      · exact hmem
  | waitFails =>
      simp only [hostStep, Host.waitFails] at hmem
      split at hmem
      · split at hmem
        · exact hmem
        · exact hmem
      · exact hmem
  | reap i =>
      simp only [hostStep, Host.reap] at hmem
      split at hmem
      · exact hmem
      · exact hmem
  | tryQueueTask grantId userTask availMemory pid now =>
      simp only [hostStep] at hmem
      split at hmem
      · exact hmem
      · exact hmem
  | tryWait i =>
      simp only [hostStep] at hmem
      split at hmem
      · exact hmem
      · exact hmem
  | onExitCallback i now =>
      simp only [hostStep] at hmem
      split at hmem
      · exact hmem
      · exact hmem
  | reportCompletion i =>
      simp only [hostStep] at hmem
      split at hmem
      · exact hmem
      · exact hmem
  | _ => exact hmem

/-! ### The constructor -/

/-- The flags that `Executor::Executor` reads. -/
structure ExecutorFlags where
  /-- `FLAGS_max_concurrency`. -/
  maxConcurrency : Int32
  /-- `FLAGS_servant_priority`. -/
  servantPriority : String
  /-- `FLAGS_poor_cpu_cores_threshold`. -/
  poorCpuCoresThreshold : UInt32
  /-- `FLAGS_min_memory_for_starting_new_task`, parsed. -/
  minMemory : UInt64

/-- A servant that is told how many compiles to run at a time. -/
def sampleFlags (maxConcurrency : Int32) : ExecutorFlags where
  maxConcurrency := maxConcurrency
  servantPriority := "user"
  poorCpuCoresThreshold := 4
  minMemory := 10

/-- `max_concurrency_`.  A flag other than `-1` is converted to `size_t` as it is. -/
def ExecutorFlags.configuredConcurrency (flags : ExecutorFlags) (numCpuCores : UInt64) : UInt64 :=
  if flags.maxConcurrency = -1 then
    if flags.servantPriority = "dedicated" then numCpuCores * 95 / 100
    else if flags.servantPriority = "user" then
      if numCpuCores < flags.poorCpuCoresThreshold.toUInt64 then 0 else numCpuCores * 40 / 100
    else 0
  else flags.maxConcurrency.toInt64.toUInt64

/-- The executor as its constructor leaves it, with `WaiterProc` started. -/
def Host.init (τ : Type) (flags : ExecutorFlags) (numCpuCores : UInt64) : Host τ where
  executor :=
    { maxConcurrency := flags.configuredConcurrency numCpuCores, minMemory := flags.minMemory }

/-! ### The executor in the host -/

/-- The operation of the executor that a step performs, if it performs one. -/
def Host.operation (h : Host τ) : HostEvent τ → Option (ExecutorOp τ)
  | .tryQueueTask grantId userTask availMemory pid now =>
      if h.CanFork pid then some (.tryQueueTask grantId userTask availMemory pid now) else none
  | .tryAddTaskRef taskId => some (.tryAddTaskRef taskId)
  | .freeTask taskId => some (.freeTask taskId)
  | .tryWait i => h.callers[i]?.map .tryWait
  | .onTimerClean now => some (.onTimerClean now)
  | .stop => some .stop
  | .rehash rank => some (.rehash rank)
  | .onExitCallback i now => h.exits[i]?.map fun exit => .onExitCallback exit.pid now
  | .reportCompletion i => h.completing[i]?.map .reportCompletion
  | _ => none

/-- The step from which an operation comes. -/
def ExecutorOp.ComesFrom (event : HostEvent τ) : ExecutorOp τ → Prop
  | .tryQueueTask grantId userTask availMemory pid now =>
      event = .tryQueueTask grantId userTask availMemory pid now
  | .tryAddTaskRef taskId => event = .tryAddTaskRef taskId
  | .freeTask taskId => event = .freeTask taskId
  | .tryWait _ => ∃ i, event = .tryWait i
  | .onExitCallback _ now => ∃ i, event = .onExitCallback i now
  | .reportCompletion _ => ∃ i, event = .reportCompletion i
  | .onTimerClean now => event = .onTimerClean now
  | .stop => event = .stop
  | .rehash rank => event = .rehash rank
  | _ => False

theorem comesFrom_of_operation {h : Host τ} {event : HostEvent τ} {op : ExecutorOp τ}
    (hoper : h.operation event = some op) : op.ComesFrom event := by
  cases event with
  | tryQueueTask grantId userTask availMemory pid now =>
      simp only [Host.operation] at hoper
      split at hoper
      · cases hoper
        rfl
      · cases hoper
  | tryWait i =>
      obtain ⟨p, -, rfl⟩ := Option.map_eq_some_iff.1 hoper
      exact ⟨i, rfl⟩
  | onExitCallback i now =>
      obtain ⟨exit, -, rfl⟩ := Option.map_eq_some_iff.1 hoper
      exact ⟨i, rfl⟩
  | reportCompletion i =>
      obtain ⟨p, -, rfl⟩ := Option.map_eq_some_iff.1 hoper
      exact ⟨i, rfl⟩
  | tryAddTaskRef taskId =>
      cases hoper
      rfl
  | freeTask taskId =>
      cases hoper
      rfl
  | onTimerClean now =>
      cases hoper
      rfl
  | stop =>
      cases hoper
      rfl
  | rehash rank =>
      cases hoper
      rfl
  | _ => cases hoper

/-- **A step performs its operation and changes nothing else in the executor.** -/
theorem executor_hostStep (h : Host τ) (event : HostEvent τ) :
    (hostStep h event).1.executor =
      (h.operation event).elim h.executor fun op => (exec h.executor op).1 := by
  cases event with
  | tryQueueTask grantId userTask availMemory pid now =>
      simp only [hostStep, Host.operation]
      split
      · rfl
      · rfl
  | tryAddTaskRef taskId => rfl
  | freeTask taskId => rfl
  | killTask i =>
      simp only [hostStep]
      split
      · rfl
      · rfl
  | waitForTask taskId => rfl
  | tryWait i =>
      simp only [hostStep, Host.operation]
      cases h.callers[i]? with
      | none => rfl
      | some p => rfl
  | killExpiredTasks expiredGrantIds => rfl
  | onTimerClean now => rfl
  | stop => rfl
  | rehash rank => rfl
  | waiterProc =>
      simp only [hostStep, Host.waiterProc]
      split
      · rfl
      · split
        · rfl
        · rfl
      · rfl
      · rfl
      · rfl
  | reap i =>
      simp only [hostStep, Host.reap]
      split
      · rfl
      · rfl
  | waitFails =>
      simp only [hostStep, Host.waitFails]
      split
      · split
        · rfl
        · rfl
      · rfl
  | onExitCallback i now =>
      simp only [hostStep, Host.operation]
      cases h.exits[i]? with
      | none => rfl
      | some exit => rfl
  | reportCompletion i =>
      simp only [hostStep, Host.operation]
      cases h.completing[i]? with
      | none => rfl
      | some p => rfl

/-- The steps of the host are operations of the executor. -/
theorem host_simulates (τ : Type) : (executor τ).Simulates (host τ) Host.executor := by
  intro h event
  rw [host_next, executor_hostStep]
  cases h.operation event with
  | none => exact Machine.Reachable.refl _
  | some op => exact ⟨[op], rfl⟩

/-! ### What the host refers to -/

/-- Which objects the parts of the host refer to. -/
structure Host.Sound (h : Host τ) : Prop where
  executor : h.executor.Sound
  /-- A child has the pid of its object. -/
  child : ∀ child ∈ h.children,
    ∃ desc, h.executor.heap child.desc = some desc ∧ desc.pid = child.pid
  /-- So has a pending callback. -/
  exit : ∀ exit ∈ h.exits, ∀ p, exit.desc = some p →
    ∃ desc, h.executor.heap p = some desc ∧ desc.pid = exit.pid
  /-- An object that is to be killed has left `tasks_`. -/
  killing : ∀ p ∈ h.killing, (∃ desc, h.executor.heap p = some desc) ∧
    ∀ taskId, h.executor.tasks.lookup taskId ≠ some p
  callers : ∀ p ∈ h.callers, ∃ desc, h.executor.heap p = some desc
  completing : ∀ p ∈ h.completing, ∃ desc, h.executor.heap p = some desc

theorem sound_init (flags : ExecutorFlags) (numCpuCores : UInt64) :
    (Host.init τ flags numCpuCores).Sound where
  executor :=
    { top := fun _ _ => rfl
      filed := fun _ _ hlook => by cases hlook
      single := fun _ _ _ hlook => by cases hlook }
  child := fun _ hmem => by cases hmem
  exit := fun _ hmem => by cases hmem
  killing := fun _ hmem => by cases hmem
  callers := fun _ hmem => by cases hmem
  completing := fun _ hmem => by cases hmem

namespace Host.Sound

variable {h : Host τ}

/-- An operation of the executor leaves every reference in place. -/
theorem exec (hs : h.Sound) (op : ExecutorOp τ) :
    { h with executor := (Cloud.exec h.executor op).1 }.Sound where
  executor := sound_exec hs.executor op
  child := by
    intro child hmem
    obtain ⟨desc, hdesc, hpid⟩ := hs.child child hmem
    obtain ⟨desc', hdesc', hid⟩ := hs.executor.object op hdesc
    exact ⟨desc', hdesc', (congrArg Prod.fst hid).trans hpid⟩
  exit := by
    intro exit hmem p hp
    obtain ⟨desc, hdesc, hpid⟩ := hs.exit exit hmem p hp
    obtain ⟨desc', hdesc', hid⟩ := hs.executor.object op hdesc
    exact ⟨desc', hdesc', (congrArg Prod.fst hid).trans hpid⟩
  killing := by
    intro p hmem
    obtain ⟨⟨desc, hdesc⟩, hgone⟩ := hs.killing p hmem
    obtain ⟨desc', hdesc', -⟩ := hs.executor.object op hdesc
    refine ⟨⟨desc', hdesc'⟩, fun taskId hlook => ?_⟩
    -- a new entry is that of a new object
    rcases (ages_exec h.executor op).entries taskId p hlook with hold | ⟨hge, -⟩
    · exact hgone taskId hold
    · exact absurd (hs.executor.lt hdesc) (Nat.not_lt.2 hge)
  callers := by
    intro p hmem
    obtain ⟨desc, hdesc⟩ := hs.callers p hmem
    obtain ⟨desc', hdesc', -⟩ := hs.executor.object op hdesc
    exact ⟨desc', hdesc'⟩
  completing := by
    intro p hmem
    obtain ⟨desc, hdesc⟩ := hs.completing p hmem
    obtain ⟨desc', hdesc', -⟩ := hs.executor.object op hdesc
    exact ⟨desc', hdesc'⟩

theorem tryQueueTask (hs : h.Sound) (grantId : UInt64) (userTask : τ) (availMemory : UInt64)
    (pid : Pid) (now : TimePoint) :
    (h.tryQueueTask grantId userTask availMemory pid now).1.Sound := by
  have hexec := hs.exec (.tryQueueTask grantId userTask availMemory pid now)
  refine ⟨hexec.executor, fun child hmem => ?_, hexec.exit, hexec.killing, hexec.callers,
    hexec.completing⟩
  rcases List.mem_append.1 hmem with hold | hnew
  · exact hexec.child child hold
  · split at hnew
    next hstarted =>
      rw [List.mem_singleton.1 hnew]
      rcases tryQueueTask_cases h.executor grantId userTask availMemory pid now with
        ⟨n, -, heq⟩ | ⟨-, -, heq⟩
      · rw [heq] at hstarted
        exact absurd hstarted.1 Bool.false_ne_true
      · refine ⟨newDesc grantId userTask pid now, ?_, rfl⟩
        simp only [Host.tryQueueTask, heq]
        exact Function.update_self ..
    next => cases hnew

theorem freeTask (hs : h.Sound) (taskId : UInt64) : (hostStep h (.freeTask taskId)).1.Sound := by
  have hexec := hs.exec (.freeTask taskId)
  refine ⟨hexec.executor, hexec.child, hexec.exit, fun p hmem => ?_, hexec.callers,
    hexec.completing⟩
  rcases List.mem_append.1 hmem with hold | hnew
  · exact hexec.killing p hold
  · have hfreed : (Cloud.freeTask h.executor taskId).2 = some p := Option.mem_toList.1 hnew
    obtain ⟨desc, hlook, hdesc, -, heq⟩ := freeTask_eq_some hfreed
    obtain ⟨desc', hdesc', -⟩ := hs.executor.object (.freeTask taskId) hdesc
    refine ⟨⟨desc', hdesc'⟩, fun k hk => ?_⟩
    have hk : (Cloud.freeTask h.executor taskId).1.tasks.lookup k = some p := hk
    rw [heq] at hk
    -- it was filed under the id that was freed, and under no other
    have hkid : k = taskId := hs.executor.single k taskId p (lookup_of_erase hk) hlook
    rw [hkid] at hk
    cases hk.symm.trans (AList.lookup_erase _ _)

/-- **Every step keeps the references.** -/
theorem step (hs : h.Sound) (event : HostEvent τ) : (hostStep h event).1.Sound := by
  cases event with
  | tryQueueTask grantId userTask availMemory pid now =>
      simp only [hostStep]
      split
      · exact hs.tryQueueTask grantId userTask availMemory pid now
      · exact hs
  | tryAddTaskRef taskId => exact hs.exec (.tryAddTaskRef taskId)
  | freeTask taskId => exact hs.freeTask taskId
  | killTask i =>
      simp only [hostStep]
      split
      · exact ⟨hs.executor, hs.child, hs.exit,
          fun p hmem => hs.killing p (List.mem_of_mem_eraseIdx hmem), hs.callers, hs.completing⟩
      · exact hs
  | waitForTask taskId =>
      refine ⟨hs.executor, hs.child, hs.exit, hs.killing, fun p hmem => ?_, hs.completing⟩
      rcases List.mem_append.1 hmem with hold | hnew
      · exact hs.callers p hold
      · exact hs.executor.filed taskId p (Option.mem_toList.1 hnew)
  | tryWait i =>
      simp only [hostStep]
      split
      next p hp =>
        have hexec := hs.exec (.tryWait p)
        exact ⟨hexec.executor, hexec.child, hexec.exit, hexec.killing,
          fun q hmem => hexec.callers q (List.mem_of_mem_eraseIdx hmem), hexec.completing⟩
      · exact hs
  | killExpiredTasks expiredGrantIds => exact hs
  | onTimerClean now => exact hs.exec (.onTimerClean now)
  | stop => exact hs.exec .stop
  | rehash rank => exact hs.exec (.rehash rank)
  | waiterProc =>
      simp only [hostStep, Host.waiterProc]
      split
      · exact ⟨hs.executor, hs.child, hs.exit, hs.killing, hs.callers, hs.completing⟩
      · split
        · exact ⟨hs.executor, hs.child, hs.exit, hs.killing, hs.callers, hs.completing⟩
        · exact hs
      · exact ⟨hs.executor, hs.child, hs.exit, hs.killing, hs.callers, hs.completing⟩
      · exact hs
      · exact hs
  | reap i =>
      simp only [hostStep, Host.reap]
      split
      next child _ hchild =>
        refine ⟨hs.executor, fun c hmem => hs.child c (List.mem_of_mem_eraseIdx hmem),
          fun exit hmem p hp => ?_, hs.killing, hs.callers, hs.completing⟩
        rcases List.mem_append.1 hmem with hold | hnew
        · exact hs.exit exit hold p hp
        · rw [List.mem_singleton.1 hnew] at hp ⊢
          cases hp
          exact hs.child child (List.mem_of_getElem? hchild)
      · exact hs
  | waitFails =>
      simp only [hostStep, Host.waitFails]
      split
      · split
        · exact ⟨hs.executor, hs.child, hs.exit, hs.killing, hs.callers, hs.completing⟩
        · refine ⟨hs.executor, hs.child, fun exit hmem p hp => ?_, hs.killing, hs.callers,
            hs.completing⟩
          rcases List.mem_append.1 hmem with hold | hnew
          · exact hs.exit exit hold p hp
          · rw [List.mem_singleton.1 hnew] at hp
            cases hp
      · exact hs
  | onExitCallback i now =>
      simp only [hostStep]
      split
      next exit _ =>
        have hexec := hs.exec (.onExitCallback exit.pid now)
        refine ⟨hexec.executor, hexec.child,
          fun exit' hmem => hexec.exit exit' (List.mem_of_mem_eraseIdx hmem), hexec.killing,
          hexec.callers, fun p hmem => ?_⟩
        rcases List.mem_append.1 hmem with hold | hnew
        · exact hexec.completing p hold
        · have hfound : exitFound h.executor exit.pid = some p :=
            (onExitCallback_spec h.executor exit.pid now).1 ▸ Option.mem_toList.1 hnew
          obtain ⟨-, desc, -, hdesc, -⟩ := exitFound_some hfound
          obtain ⟨desc', hdesc', -⟩ := hs.executor.object (.onExitCallback exit.pid now) hdesc
          exact ⟨desc', hdesc'⟩
      · exact hs
  | reportCompletion i =>
      simp only [hostStep]
      split
      next p _ =>
        have hexec := hs.exec (.reportCompletion p)
        exact ⟨hexec.executor, hexec.child, hexec.exit, hexec.killing, hexec.callers,
          fun q hmem => hexec.completing q (List.mem_of_mem_eraseIdx hmem)⟩
      · exact hs

end Host.Sound

/-- **Every child and every pending callback belongs to an object with its pid.** -/
theorem sound_run (flags : ExecutorFlags) (numCpuCores : UInt64) (events : List (HostEvent τ)) :
    ((host τ).run (.init τ flags numCpuCores) events).Sound :=
  Machine.run_invariant (M := host τ) (P := Host.Sound) (fun _ event hs => hs.step event)
    (sound_init flags numCpuCores) events

end Cloud
