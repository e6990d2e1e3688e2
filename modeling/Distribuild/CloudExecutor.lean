/-
**The servant's executor.**

Every servant has one `Executor`: the compiles it runs, each in a process of its own, with the grant
of the scheduler it was started under and the number of clients that wait for it.  This module
embeds `daemon/cloud/executor.h` and `daemon/cloud/executor.cpp`.

A `TaskDesc` is an object behind a `shared_ptr`.  Threads keep a pointer to one after they have
released `task_mutex_`: `FreeTask` kills the process only then, `OnExitCallback` reports the result
only then, and `WaitForTask` waits only then.  So there is a heap of these objects, the part of a
function under the lock is an operation, and what follows it is an operation on a pointer.

What the operating system does is an input: the memory that is available, the pid that `fork`
returns, the pid of a child that has ended.  A signal is an output.

Main definitions:

* `Cloud.TaskDesc`, `Cloud.Executor` — the state;
* `Cloud.tryQueueTask`, `Cloud.tryAddTaskRef`, `Cloud.waitForTask`, `Cloud.freeTask`,
  `Cloud.getAllTasks`, `Cloud.killExpiredTasks`, `Cloud.stop`, `Cloud.onTimerClean`,
  `Cloud.onExitCallback` — the operations;
* `Cloud.executor` — the machine;
* `Cloud.Executor.Ages` — what the operations leave alone of the objects there are.

Main results:

* `Cloud.ages_exec` — **objects only age**: a grant never changes, a compile that has ended does not
  start again, and an object that has left `tasks_` does not come back;
* `Cloud.mem_killExpiredTasks` — whom `KillExpiredTasks` kills.
-/

import Distribuild.Machine
import Distribuild.Table

set_option relaxedAutoImplicit false
set_option autoImplicit false

namespace Cloud

/-! ### The data model -/

/-- A reading of `std::chrono::steady_clock`, in nanoseconds. -/
abbrev TimePoint := ℕ

/-- A `pid_t`; `-1` is what a failed `fork` returns. -/
abbrev Pid := ℤ

/-- A compile that the executor runs or has run, for tasks of type `τ`.  (The temporary files and
the command line are only ever handed on, and are left out.) -/
structure TaskDesc (τ : Type) where
  pid : Pid
  isRunning : Bool := true
  grantId : UInt64
  refCount : UInt32
  startTp : TimePoint
  completedTp : TimePoint := 0
  task : τ
  /-- `completion_event`, which is reset by the thread that waits for it. -/
  completionEvent : Bool := false

/-- The identity of a `TaskDesc` object. -/
abbrev TaskPtr := ℕ

/-- The state of the executor.  `heap` holds the `TaskDesc` objects there have been, and `heapTop`
is the first address that has never been used. -/
structure Executor (τ : Type) where
  heap : TaskPtr → Option (TaskDesc τ) := fun _ => none
  heapTop : TaskPtr := 0
  tasks : Table UInt64 TaskPtr := ∅
  exiting : Bool := false
  nextTaskId : UInt64 := 1
  runningTasks : UInt64 := 0
  taskRanSum : UInt64 := 0
  maxConcurrency : UInt64
  minMemory : UInt64
  /-- The permits of `waitpid_semaphore_`. -/
  permits : ℕ := 0

/-- `kill(-pid, SIGKILL)`, with the object whose process it is meant for. -/
structure Signal where
  desc : TaskPtr
  pid : Pid
deriving DecidableEq, Repr

/-- `Executor::RunningTask`. -/
structure RunningTask (τ : Type) where
  servantTaskId : UInt64
  taskGrantId : UInt64
  task : τ
deriving DecidableEq, Repr

inductive ExecutionStatus
  | unknown
  | failed
  | running
  | notFound
deriving DecidableEq, Repr

variable {τ : Type}

namespace Executor

/-- The object at `p` after `f` has been applied to it. -/
def modifyDesc (e : Executor τ) (p : TaskPtr) (f : TaskDesc τ → TaskDesc τ) : Executor τ :=
  { e with heap := Function.update e.heap p ((e.heap p).map f) }

/-- The compile under this id. -/
def find (e : Executor τ) (taskId : UInt64) : Option (TaskPtr × TaskDesc τ) :=
  (e.tasks.lookup taskId).bind fun p => (e.heap p).map fun desc => (p, desc)

/-- The entries of `tasks_` with their objects, in the order in which they are iterated. -/
def all (e : Executor τ) : List (UInt64 × TaskPtr × TaskDesc τ) :=
  e.tasks.entries.filterMap fun entry =>
    (e.heap entry.2).map fun desc => (entry.1, entry.2, desc)

end Executor

/-! ### Starting a compile -/

/-- `TryStartingNewTaskUnsafe`, where `availMemory` is what `GetAvailMemory` returns. -/
def tryStartingNewTaskUnsafe (e : Executor τ) (availMemory : UInt64) :
    Executor τ × Option UInt64 :=
  if e.exiting then (e, none)
  else
    let taskId := e.nextTaskId
    let e := { e with nextTaskId := e.nextTaskId + 1 }
    -- in both cases the counter that was raised is lowered again
    if e.runningTasks + 1 > e.maxConcurrency then (e, none)
    else if availMemory < e.minMemory then (e, none)
    else
      ({ e with runningTasks := e.runningTasks + 1, taskRanSum := e.taskRanSum + 1 }, some taskId)

/-- `TryQueueTask`, where `pid` is what `StartProgram` returns. -/
def tryQueueTask (e : Executor τ) (grantId : UInt64) (userTask : τ) (availMemory : UInt64)
    (pid : Pid) (now : TimePoint) : Executor τ × Option UInt64 :=
  match tryStartingNewTaskUnsafe e availMemory with
  | (e, none) => (e, none)
  | (e, some taskId) =>
      let desc : TaskDesc τ :=
        { pid := pid, grantId := grantId, refCount := 1, startTp := now, task := userTask }
      ({ e with
          heap := Function.update e.heap e.heapTop (some desc)
          heapTop := e.heapTop + 1
          tasks := e.tasks.insert taskId e.heapTop
          permits := e.permits + 1 }, some taskId)

/-! ### References -/

def tryAddTaskRef (e : Executor τ) (taskId : UInt64) : Executor τ × Bool :=
  match e.tasks.lookup taskId with
  | none => (e, false)
  | some p => (e.modifyDesc p fun desc => { desc with refCount := desc.refCount + 1 }, true)

/-- `FreeTask` under the lock; the object it then passes to `KillTask`, if the last reference is
gone. -/
def freeTask (e : Executor τ) (taskId : UInt64) : Executor τ × Option TaskPtr :=
  match e.find taskId with
  | none => (e, none)
  | some (p, desc) =>
      let e := e.modifyDesc p fun desc => { desc with refCount := desc.refCount - 1 }
      if desc.refCount - 1 > 0 then (e, none)
      else ({ e with tasks := e.tasks.erase taskId }, some p)

/-- `KillTask`. -/
def killTask (e : Executor τ) (p : TaskPtr) : List Signal :=
  match e.heap p with
  | none => []
  | some desc => if desc.isRunning then [{ desc := p, pid := desc.pid }] else []

/-! ### Waiting for a compile -/

/-- `WaitForTask` under the lock: the object to wait for. -/
def waitForTask (e : Executor τ) (taskId : UInt64) : Option TaskPtr := e.tasks.lookup taskId

/-- The wait of `WaitForTask` for its object: it takes the event, or it times out. -/
def tryWait (e : Executor τ) (p : TaskPtr) : Executor τ × ExecutionStatus :=
  match e.heap p with
  | some desc =>
      if desc.completionEvent then
        (e.modifyDesc p fun desc => { desc with completionEvent := false }, .unknown)
      else (e, .running)
  | none => (e, .notFound)

/-! ### Heartbeats -/

def getAllTasks (e : Executor τ) : List (RunningTask τ) :=
  e.all.map fun entry =>
    { servantTaskId := entry.1, taskGrantId := entry.2.2.grantId, task := entry.2.2.task }

def killExpiredTasks (e : Executor τ) (expiredGrantIds : List UInt64) : List Signal :=
  e.all.flatMap fun entry =>
    if entry.2.2.isRunning && expiredGrantIds.contains entry.2.2.grantId then
      killTask e entry.2.1
    else []

/-! ### The end of a compile -/

/-- `OnExitCallback` under the lock, for a child that has ended; the object whose result it then
reports. -/
def onExitCallback (e : Executor τ) (pid : Pid) (now : TimePoint) : Executor τ × Option TaskPtr :=
  let found := (e.all.find? fun entry => entry.2.2.pid == pid).map fun entry => entry.2.1
  let e := { e with runningTasks := e.runningTasks - 1 }
  match found with
  | none => (e, none)
  | some p =>
      (e.modifyDesc p fun desc => { desc with completedTp := now, isRunning := false }, some p)

/-- The end of `OnExitCallback`: the task is completed and the event set. -/
def reportCompletion (e : Executor τ) (p : TaskPtr) : Executor τ :=
  e.modifyDesc p fun desc => { desc with completionEvent := true }

/-- `1min`. -/
def minute : ℕ := 60 * 1000000000

/-- `OnTimerClean`: a compile that ended more than a minute ago is dropped. -/
def onTimerClean (e : Executor τ) (now : TimePoint) : Executor τ :=
  let dropped := e.all.filter fun entry =>
    !entry.2.2.isRunning && decide (entry.2.2.completedTp + minute < now)
  { e with tasks := dropped.foldl (fun tasks entry => tasks.erase entry.1) e.tasks }

/-- `Stop`. -/
def stop (e : Executor τ) : Executor τ × List Signal :=
  ({ e with exiting := true, permits := e.permits + 1 },
    e.all.flatMap fun entry => killTask e entry.2.1)

/-! ### The executor as a machine -/

/-- The operations of the executor.  `rehash` is none of them: it changes the iteration order of
`tasks_`. -/
inductive ExecutorOp (τ : Type)
  | tryQueueTask (grantId : UInt64) (userTask : τ) (availMemory : UInt64) (pid : Pid)
      (now : TimePoint)
  | tryAddTaskRef (taskId : UInt64)
  | freeTask (taskId : UInt64)
  | killTask (p : TaskPtr)
  | waitForTask (taskId : UInt64)
  | tryWait (p : TaskPtr)
  | killExpiredTasks (expiredGrantIds : List UInt64)
  | onExitCallback (pid : Pid) (now : TimePoint)
  | reportCompletion (p : TaskPtr)
  | onTimerClean (now : TimePoint)
  | stop
  | rehash (rank : UInt64 → ℕ)

/-- What an operation returns, and the signals it sends. -/
structure ExecutorOutput where
  taskId : Option UInt64 := none
  found : Bool := false
  desc : Option TaskPtr := none
  status : ExecutionStatus := .unknown
  signals : List Signal := []
deriving DecidableEq, Repr

/-- One operation of the executor. -/
def exec (e : Executor τ) : ExecutorOp τ → Executor τ × ExecutorOutput
  | .tryQueueTask grantId userTask availMemory pid now =>
      let r := tryQueueTask e grantId userTask availMemory pid now
      (r.1, { taskId := r.2 })
  | .tryAddTaskRef taskId =>
      let r := tryAddTaskRef e taskId
      (r.1, { found := r.2 })
  | .freeTask taskId =>
      let r := freeTask e taskId
      (r.1, { desc := r.2 })
  | .killTask p => (e, { signals := killTask e p })
  | .waitForTask taskId => (e, { desc := waitForTask e taskId })
  | .tryWait p =>
      let r := tryWait e p
      (r.1, { status := r.2 })
  | .killExpiredTasks expiredGrantIds => (e, { signals := killExpiredTasks e expiredGrantIds })
  | .onExitCallback pid now =>
      let r := onExitCallback e pid now
      (r.1, { desc := r.2 })
  | .reportCompletion p => (reportCompletion e p, {})
  | .onTimerClean now => (onTimerClean e now, {})
  | .stop => ((stop e).1, { signals := (stop e).2 })
  | .rehash rank => ({ e with tasks := Table.rehash rank e.tasks }, {})

/-- **The executor as a machine.** -/
def executor (τ : Type) : Machine (Executor τ) (ExecutorOp τ) ExecutorOutput := ⟨exec⟩

/-! ### Objects only age -/

namespace Executor

/-- The grant under which an object compiles: it is in `tasks_` and its compile has not ended. -/
def compiling (e : Executor τ) (p : TaskPtr) : Option UInt64 :=
  (e.heap p).bind fun desc =>
    if desc.isRunning && e.tasks.entries.any (fun entry => entry.2 == p) then some desc.grantId
    else none

theorem mem_compiling {e : Executor τ} {p : TaskPtr} {grantId : UInt64} :
    grantId ∈ e.compiling p ↔ (∃ taskId, e.tasks.lookup taskId = some p) ∧
      ∃ desc, e.heap p = some desc ∧ desc.isRunning = true ∧ desc.grantId = grantId := by
  have hentry : (e.tasks.entries.any fun entry => entry.2 == p) = true ↔
      ∃ taskId, e.tasks.lookup taskId = some p := by
    rw [List.any_eq_true]
    constructor
    · rintro ⟨⟨taskId, q⟩, hmem, hq⟩
      exact ⟨taskId, Table.mem_entries_iff.1 (beq_iff_eq.1 hq ▸ hmem)⟩
    · rintro ⟨taskId, hlook⟩
      exact ⟨⟨taskId, p⟩, Table.mem_entries_iff.2 hlook, beq_self_eq_true p⟩
  rw [compiling, Option.mem_def, Option.bind_eq_some_iff]
  constructor
  · rintro ⟨desc, hdesc, hif⟩
    split at hif
    next hcond =>
      obtain ⟨hrun, hany⟩ := Bool.and_eq_true_iff.1 hcond
      exact ⟨hentry.1 hany, desc, hdesc, hrun, Option.some_inj.1 hif⟩
    next => cases hif
  · rintro ⟨hmem, desc, hdesc, hrun, hid⟩
    refine ⟨desc, hdesc, ?_⟩
    rw [if_pos (Bool.and_eq_true_iff.2 ⟨hrun, hentry.2 hmem⟩), hid]

/-- The objects of `e` have aged: none has been given up or filed under another id, no grant has
changed, and no compile that had ended runs again. -/
structure Ages (e e' : Executor τ) : Prop where
  top : e.heapTop ≤ e'.heapTop
  /-- An entry of `tasks_` is an old one or that of a new object. -/
  entries : ∀ taskId p, e'.tasks.lookup taskId = some p →
    e.tasks.lookup taskId = some p ∨ (e.heapTop ≤ p ∧ p < e'.heapTop)
  objects : ∀ p < e.heapTop, ∀ desc', e'.heap p = some desc' →
    ∃ desc, e.heap p = some desc ∧ desc'.grantId = desc.grantId ∧
      (desc'.isRunning = true → desc.isRunning = true)

theorem Ages.refl (e : Executor τ) : e.Ages e where
  top := Nat.le_refl _
  entries := fun _ _ h => Or.inl h
  objects := fun _ _ desc h => ⟨desc, h, rfl, id⟩

theorem Ages.trans {e e' e'' : Executor τ} (h : e.Ages e') (h' : e'.Ages e'') : e.Ages e'' where
  top := Nat.le_trans h.top h'.top
  entries := by
    intro taskId p hentry
    rcases h'.entries taskId p hentry with hold | ⟨hge, hlt⟩
    · rcases h.entries taskId p hold with hold | ⟨hge, hlt⟩
      · exact Or.inl hold
      · exact Or.inr ⟨hge, Nat.lt_of_lt_of_le hlt h'.top⟩
    · exact Or.inr ⟨Nat.le_trans h.top hge, hlt⟩
  objects := by
    intro p hp desc'' hdesc''
    obtain ⟨desc', hdesc', hgrant', hrun'⟩ :=
      h'.objects p (Nat.lt_of_lt_of_le hp h.top) desc'' hdesc''
    obtain ⟨desc, hdesc, hgrant, hrun⟩ := h.objects p hp desc' hdesc'
    exact ⟨desc, hdesc, hgrant'.trans hgrant, fun h'' => hrun (hrun' h'')⟩

/-- Whatever compiles under a grant, and was there before, has compiled under it before. -/
theorem Ages.compiling {e e' : Executor τ} (h : e.Ages e') {p : TaskPtr} (hp : p < e.heapTop)
    {grantId : UInt64} (hc : grantId ∈ e'.compiling p) : grantId ∈ e.compiling p := by
  obtain ⟨⟨taskId, hentry⟩, desc', hdesc', hrunning, hid⟩ := mem_compiling.1 hc
  obtain ⟨desc, hdesc, hgrant, hrun⟩ := h.objects p hp desc' hdesc'
  refine mem_compiling.2 ⟨⟨taskId, ?_⟩, desc, hdesc, hrun hrunning, hgrant.symm.trans hid⟩
  rcases h.entries taskId p hentry with hold | ⟨hge, -⟩
  · exact hold
  · exact absurd hp (Nat.not_lt.2 hge)

/-- The entries of `tasks_` refer to objects of the heap. -/
def Allocated (e : Executor τ) : Prop :=
  ∀ taskId p, e.tasks.lookup taskId = some p → p < e.heapTop

theorem Ages.allocated {e e' : Executor τ} (h : e.Ages e') (ha : e.Allocated) : e'.Allocated := by
  intro taskId p hentry
  rcases h.entries taskId p hentry with hold | ⟨-, hlt⟩
  · exact Nat.lt_of_lt_of_le (ha taskId p hold) h.top
  · exact hlt

/-- An update of one object that keeps its grant, and does not start it again, is ageing. -/
theorem ages_modifyDesc (e : Executor τ) (p : TaskPtr) {f : TaskDesc τ → TaskDesc τ}
    (hgrant : ∀ desc, (f desc).grantId = desc.grantId)
    (hrun : ∀ desc, (f desc).isRunning = true → desc.isRunning = true) :
    e.Ages (e.modifyDesc p f) where
  top := Nat.le_refl _
  entries := fun _ _ h => Or.inl h
  objects := by
    intro q _ desc' hdesc'
    by_cases hqp : q = p
    · subst hqp
      simp only [modifyDesc, Function.update_self] at hdesc'
      obtain ⟨desc, hdesc, rfl⟩ := Option.map_eq_some_iff.1 hdesc'
      exact ⟨desc, hdesc, hgrant desc, hrun desc⟩
    · simp only [modifyDesc, Function.update_of_ne hqp] at hdesc'
      exact ⟨desc', hdesc', rfl, id⟩

/-- Taking entries out of `tasks_` is ageing. -/
theorem ages_tasks (e : Executor τ) {tasks : Table UInt64 TaskPtr}
    (h : ∀ taskId p, tasks.lookup taskId = some p → e.tasks.lookup taskId = some p) :
    e.Ages { e with tasks := tasks } where
  top := Nat.le_refl _
  entries := fun taskId p hentry => Or.inl (h taskId p hentry)
  objects := fun _ _ desc hdesc => ⟨desc, hdesc, rfl, id⟩

/-- Counters and flags of the executor do not matter. -/
theorem ages_of_eq {e e' : Executor τ} (hheap : e'.heap = e.heap) (htop : e'.heapTop = e.heapTop)
    (htasks : e'.tasks = e.tasks) : e.Ages e' where
  top := Nat.le_of_eq htop.symm
  entries := fun _ _ hentry => Or.inl (htasks ▸ hentry)
  objects := fun _ _ desc hdesc => ⟨desc, hheap ▸ hdesc, rfl, id⟩

end Executor

open Executor

theorem lookup_of_erase {tasks : Table UInt64 TaskPtr} {id taskId : UInt64} {p : TaskPtr}
    (h : (tasks.erase id).lookup taskId = some p) : tasks.lookup taskId = some p := by
  by_cases hid : taskId = id
  · rw [hid, AList.lookup_erase] at h
    cases h
  · rwa [AList.lookup_erase_ne hid] at h

theorem lookup_of_eraseAll {entries : List (UInt64 × TaskPtr × TaskDesc τ)}
    {tasks : Table UInt64 TaskPtr} {taskId : UInt64} {p : TaskPtr}
    (h : (entries.foldl (fun tasks entry => tasks.erase entry.1) tasks).lookup taskId = some p) :
    tasks.lookup taskId = some p := by
  induction entries generalizing tasks with
  | nil => exact h
  | cons entry entries ih => exact lookup_of_erase (ih h)

theorem ages_tryStartingNewTaskUnsafe (e : Executor τ) (availMemory : UInt64) :
    e.Ages (tryStartingNewTaskUnsafe e availMemory).1 := by
  simp only [tryStartingNewTaskUnsafe]
  split
  · exact Ages.refl e
  · split
    · exact ages_of_eq rfl rfl rfl
    · split
      · exact ages_of_eq rfl rfl rfl
      · exact ages_of_eq rfl rfl rfl

/-- A new object that is filed under an id leaves the others alone. -/
theorem ages_newDesc (e : Executor τ) (taskId : UInt64) (desc : TaskDesc τ) :
    e.Ages { e with
      heap := Function.update e.heap e.heapTop (some desc)
      heapTop := e.heapTop + 1
      tasks := e.tasks.insert taskId e.heapTop
      permits := e.permits + 1 } where
  top := Nat.le_succ _
  entries := by
    intro k p hentry
    rcases Table.lookup_insert_cases hentry with ⟨-, rfl⟩ | ⟨-, hold⟩
    · exact Or.inr ⟨Nat.le_refl _, Nat.lt_succ_self _⟩
    · exact Or.inl hold
  objects := by
    intro p hp desc' hdesc'
    simp only [Function.update_of_ne (Nat.ne_of_lt hp)] at hdesc'
    exact ⟨desc', hdesc', rfl, id⟩

theorem ages_tryQueueTask (e : Executor τ) (grantId : UInt64) (userTask : τ)
    (availMemory : UInt64) (pid : Pid) (now : TimePoint) :
    e.Ages (tryQueueTask e grantId userTask availMemory pid now).1 := by
  have hstart := ages_tryStartingNewTaskUnsafe e availMemory
  unfold tryQueueTask
  split
  next e' h =>
    rw [h] at hstart
    exact hstart
  next e' taskId h =>
    rw [h] at hstart
    exact hstart.trans (ages_newDesc e' taskId _)

/-- **Objects only age**, whatever the operation. -/
theorem ages_exec (e : Executor τ) (op : ExecutorOp τ) : e.Ages (exec e op).1 := by
  cases op with
  | tryQueueTask grantId userTask availMemory pid now => exact ages_tryQueueTask ..
  | tryAddTaskRef taskId =>
      simp only [exec, tryAddTaskRef]
      split
      · exact Ages.refl e
      · exact ages_modifyDesc e _ (fun _ => rfl) (fun _ h => h)
  | freeTask taskId =>
      simp only [exec, freeTask]
      split
      · exact Ages.refl e
      next p desc hfind =>
        have hmod : e.Ages (e.modifyDesc p fun desc =>
            { desc with refCount := desc.refCount - 1 }) :=
          ages_modifyDesc e p (fun _ => rfl) (fun _ h => h)
        split
        · exact hmod
        · exact hmod.trans (ages_tasks _ fun _ _ h => lookup_of_erase h)
  | killTask p => exact Ages.refl e
  | waitForTask taskId => exact Ages.refl e
  | tryWait p =>
      simp only [exec, tryWait]
      split
      · split
        · exact ages_modifyDesc e _ (fun _ => rfl) (fun _ h => h)
        · exact Ages.refl e
      · exact Ages.refl e
  | killExpiredTasks expiredGrantIds => exact Ages.refl e
  | onExitCallback pid now =>
      simp only [exec, onExitCallback]
      have hcount : e.Ages { e with runningTasks := e.runningTasks - 1 } :=
        ages_of_eq rfl rfl rfl
      split
      · exact hcount
      next p hfound =>
        refine hcount.trans (ages_modifyDesc _ p (fun _ => rfl) fun _ h => ?_)
        cases h
  | reportCompletion p => exact ages_modifyDesc e p (fun _ => rfl) (fun _ h => h)
  | onTimerClean now => exact ages_tasks e fun _ _ h => lookup_of_eraseAll h
  | stop => exact ages_of_eq rfl rfl rfl
  | rehash rank =>
      refine ages_tasks e fun taskId p h => ?_
      rwa [Table.lookup_rehash] at h

/-! ### Whom `KillExpiredTasks` kills -/

theorem mem_all {e : Executor τ} {taskId : UInt64} {p : TaskPtr} {desc : TaskDesc τ} :
    (taskId, p, desc) ∈ e.all ↔ e.tasks.lookup taskId = some p ∧ e.heap p = some desc := by
  unfold Executor.all
  rw [List.mem_filterMap]
  constructor
  · rintro ⟨entry, hentry, hmap⟩
    obtain ⟨desc', hdesc, heq⟩ := Option.map_eq_some_iff.1 hmap
    cases heq
    exact ⟨Table.mem_entries_iff.1 hentry, hdesc⟩
  · rintro ⟨hlook, hdesc⟩
    exact ⟨⟨taskId, p⟩, Table.mem_entries_iff.2 hlook, by simp [hdesc]⟩

/-- **A signal of `KillExpiredTasks`** goes to a compile under one of the expired grants. -/
theorem mem_killExpiredTasks {e : Executor τ} {expiredGrantIds : List UInt64} {signal : Signal}
    (h : signal ∈ killExpiredTasks e expiredGrantIds) :
    ∃ grantId ∈ expiredGrantIds, grantId ∈ e.compiling signal.desc := by
  obtain ⟨⟨taskId, p, desc⟩, hmem, hsignal⟩ := List.mem_flatMap.1 h
  obtain ⟨hlook, hdesc⟩ := mem_all.1 hmem
  split at hsignal
  next hcond =>
    obtain ⟨hrun, hgrant⟩ := Bool.and_eq_true_iff.1 hcond
    have hp : signal.desc = p := by
      simp only [killTask, hdesc] at hsignal
      rw [if_pos hrun, List.mem_singleton] at hsignal
      rw [hsignal]
    rw [hp]
    exact ⟨desc.grantId, List.contains_iff_mem.1 hgrant,
      mem_compiling.2 ⟨⟨taskId, hlook⟩, desc, hdesc, hrun, rfl⟩⟩
  next => cases hsignal

end Cloud
