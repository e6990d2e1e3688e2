/-
**The directory of running compiles.**

Before a local daemon starts a compile it looks for one that is running already.  What it knows has
come a long way: a servant lists its compiles in a heartbeat, the scheduler records those it
permits, `GetRunningTasks` copies all records into an answer, and `OnTimerRefresh` makes a table of
that.  Between two of these steps the compile may end, its grant may expire, its entry may be
dropped, and messages may be lost, or be late and overtake others.  So an entry of the table may be
wrong about what runs.  This module proves what it is never wrong about.

A servant is a process here.  One that has been started again is another one at the same location,
and counts its ids from 1 again.

Main definitions:

* `Cloud.Issued` — an id that `TryQueueTask` has returned, with the grant and the task;
* `Cluster.Directory`, `Cluster.directory` — servants, scheduler and keepers, as a machine;
* `Cluster.Reported`, `Cluster.Recorded` — what a record goes back to.

Main results:

* `Cloud.Chronicled.step`, `Cloud.chronicled_run` — **an id names one task**, as long as ids do not
  wrap around;
* `Cluster.sourced_run` — every record goes back to a servant and a permission;
* `Cluster.found_names_compile` — **what a keeper finds is what it looks for**, however old it is.
-/

import Distribuild.CloudOperations
import Distribuild.LocalJoin
import Distribuild.SchedulerReconcile
import Distribuild.SharedCompile

set_option relaxedAutoImplicit false
set_option autoImplicit false

/-! ### The ids of one servant -/

namespace Cloud

variable {τ : Type}

/-- The history of an executor. -/
abbrev ExecutorTrace (τ : Type) := List (ExecutorOp τ × ExecutorOutput)

/-- `TryQueueTask` has returned this id, for a task under this grant. -/
def Issued (tr : ExecutorTrace τ) (taskId grantId : UInt64) (userTask : τ) : Prop :=
  ∃ availMemory pid now out,
    (.tryQueueTask grantId userTask availMemory pid now, out) ∈ tr ∧ out.taskId = some taskId

/-- The operation asks for a new compile. -/
def ExecutorOp.queues : ExecutorOp τ → Bool
  | .tryQueueTask _ _ _ _ _ => true
  | _ => false

theorem Issued.append {tr : ExecutorTrace τ} {taskId grantId : UInt64} {userTask : τ}
    (h : Issued tr taskId grantId userTask) (more : ExecutorTrace τ) :
    Issued (tr ++ more) taskId grantId userTask := by
  obtain ⟨availMemory, pid, now, out, hmem, hout⟩ := h
  exact ⟨availMemory, pid, now, out, List.mem_append_left _ hmem, hout⟩

/-- An id is one that had been issued before, or the last operation has issued it. -/
theorem issued_concat {tr : ExecutorTrace τ} {op : ExecutorOp τ} {out : ExecutorOutput}
    {taskId grantId : UInt64} {userTask : τ} :
    Issued (tr ++ [(op, out)]) taskId grantId userTask ↔
      Issued tr taskId grantId userTask ∨ out.taskId = some taskId ∧
        ∃ availMemory pid now, op = .tryQueueTask grantId userTask availMemory pid now := by
  constructor
  · rintro ⟨availMemory, pid, now, out', hmem, hout⟩
    rcases List.mem_append.1 hmem with hold | hnew
    · exact Or.inl ⟨availMemory, pid, now, out', hold, hout⟩
    · cases List.mem_singleton.1 hnew
      exact Or.inr ⟨hout, availMemory, pid, now, rfl⟩
  · rintro (hold | ⟨hout, availMemory, pid, now, rfl⟩)
    · exact hold.append _
    · exact ⟨availMemory, pid, now, out,
        List.mem_append_right _ (List.mem_singleton_self _), hout⟩

/-- Every entry of `tasks_` goes back to the call that filed it, and `n` ids have been handed out
at most, modulo `2 ^ 64`. -/
structure Chronicled (tr : ExecutorTrace τ) (n : ℕ) (e : Executor τ) : Prop where
  sound : e.Sound
  next : e.nextTaskId = UInt64.ofNat (n + 1)
  ids : ∀ taskId grantId userTask, Issued tr taskId grantId userTask →
    ∃ k, 1 ≤ k ∧ k ≤ n ∧ taskId = UInt64.ofNat k
  /-- An id names one task, unless the ids have wrapped around. -/
  unique : n ≤ 2 ^ 64 → ∀ taskId grantId userTask grantId' userTask',
    Issued tr taskId grantId userTask → Issued tr taskId grantId' userTask' →
      grantId' = grantId ∧ userTask' = userTask
  entries : ∀ taskId p desc, e.tasks.lookup taskId = some p → e.heap p = some desc →
    Issued tr taskId desc.grantId desc.task

namespace Chronicled

variable {tr : ExecutorTrace τ} {n : ℕ} {e : Executor τ}

/-- The next id has not been issued. -/
theorem fresh (h : Chronicled tr n e) (hn : n < 2 ^ 64) {grantId : UInt64} {userTask : τ} :
    ¬Issued tr e.nextTaskId grantId userTask := by
  intro hissued
  obtain ⟨k, hpos, hle, heq⟩ := h.ids _ _ _ hissued
  have hnat := congrArg UInt64.toNat (h.next.symm.trans heq)
  simp only [UInt64.toNat_ofNat'] at hnat
  omega

/-- An operation that issues nothing. -/
theorem quiet (h : Chronicled tr n e) {op : ExecutorOp τ} {out : ExecutorOutput} {n' : ℕ}
    {e' : Executor τ} (hout : out.taskId = none) (hsound : e'.Sound) (hn : n ≤ n')
    (hnext : e'.nextTaskId = UInt64.ofNat (n' + 1))
    (hentries : ∀ taskId p desc', e'.tasks.lookup taskId = some p → e'.heap p = some desc' →
      Issued tr taskId desc'.grantId desc'.task) :
    Chronicled (tr ++ [(op, out)]) n' e' := by
  have hold : ∀ {taskId grantId userTask}, Issued (tr ++ [(op, out)]) taskId grantId userTask →
      Issued tr taskId grantId userTask := by
    intro taskId grantId userTask hissued
    rcases issued_concat.1 hissued with hold | ⟨hsome, -⟩
    · exact hold
    · rw [hout] at hsome
      cases hsome
  refine ⟨hsound, hnext, fun taskId grantId userTask hissued => ?_, ?_, ?_⟩
  · obtain ⟨k, hpos, hle, heq⟩ := h.ids _ _ _ (hold hissued)
    exact ⟨k, hpos, Nat.le_trans hle hn, heq⟩
  · intro hle taskId grantId userTask grantId' userTask' hissued hissued'
    exact h.unique (Nat.le_trans hn hle) _ _ _ _ _ (hold hissued) (hold hissued')
  · intro taskId p desc' hlook hdesc'
    exact (hentries taskId p desc' hlook hdesc').append _

/-- A compile is started. -/
theorem started (h : Chronicled tr n e) (grantId : UInt64) (userTask : τ) (availMemory : UInt64)
    (pid : Pid) (now : TimePoint) {out : ExecutorOutput} (hout : out.taskId = some e.nextTaskId) :
    Chronicled (tr ++ [(.tryQueueTask grantId userTask availMemory pid now, out)]) (n + 1)
      (e.started (newDesc grantId userTask pid now)) := by
  have hnew : Issued (tr ++ [(.tryQueueTask grantId userTask availMemory pid now, out)])
      e.nextTaskId grantId userTask :=
    issued_concat.2 (Or.inr ⟨hout, availMemory, pid, now, rfl⟩)
  -- an id that is issued now is the next one, for the task that is queued
  have hcases : ∀ {taskId grantId' userTask'},
      Issued (tr ++ [(.tryQueueTask grantId userTask availMemory pid now, out)]) taskId grantId'
        userTask' → Issued tr taskId grantId' userTask' ∨
          taskId = e.nextTaskId ∧ grantId' = grantId ∧ userTask' = userTask := by
    intro taskId grantId' userTask' hissued
    rcases issued_concat.1 hissued with hold | ⟨hsome, _, _, _, hop⟩
    · exact Or.inl hold
    · cases hop
      exact Or.inr ⟨(Option.some_inj.1 (hout.symm.trans hsome)).symm, rfl, rfl⟩
  refine ⟨h.sound.started _, ?_, ?_, ?_, ?_⟩
  · change e.nextTaskId + 1 = _
    rw [h.next]
    exact UInt64.ofNat_add_one _
  · intro taskId grantId' userTask' hissued
    rcases hcases hissued with hold | ⟨rfl, -, -⟩
    · obtain ⟨k, hpos, hle, heq⟩ := h.ids _ _ _ hold
      exact ⟨k, hpos, Nat.le_succ_of_le hle, heq⟩
    · exact ⟨n + 1, Nat.le_add_left 1 n, Nat.le_refl _, h.next⟩
  · intro hle taskId g t g' t' hissued hissued'
    have hfresh : n < 2 ^ 64 := hle
    rcases hcases hissued with hold | ⟨rfl, rfl, rfl⟩
    · rcases hcases hissued' with hold' | ⟨rfl, -, -⟩
      · exact h.unique (Nat.le_of_lt hfresh) _ _ _ _ _ hold hold'
      · exact absurd hold (h.fresh hfresh)
    · rcases hcases hissued' with hold' | ⟨-, rfl, rfl⟩
      · exact absurd hold' (h.fresh hfresh)
      · exact ⟨rfl, rfl⟩
  · intro taskId p desc hlook hdesc
    change Function.update e.heap e.heapTop _ p = some desc at hdesc
    rcases Table.lookup_insert_cases hlook with ⟨rfl, rfl⟩ | ⟨hne, hold⟩
    · rw [Function.update_self] at hdesc
      cases hdesc
      exact hnew
    · obtain ⟨desc', hdesc'⟩ := h.sound.filed taskId p hold
      rw [Function.update_of_ne (Nat.ne_of_lt (h.sound.lt hdesc'))] at hdesc
      exact (h.entries taskId p desc hold hdesc).append _

end Chronicled

/-- Only `TryQueueTask` returns an id. -/
theorem taskId_exec (e : Executor τ) {op : ExecutorOp τ} (hop : op.queues = false) :
    (exec e op).2.taskId = none := by
  cases op with
  | tryQueueTask grantId userTask availMemory pid now => cases hop
  | _ => rfl

/-- **One operation** hands out at most one id, and the entries go back to the calls that filed
them. -/
theorem Chronicled.step {tr : ExecutorTrace τ} {n : ℕ} {e : Executor τ} (h : Chronicled tr n e)
    (op : ExecutorOp τ) :
    ∃ n', n' ≤ n + (if op.queues then 1 else 0) ∧
      Chronicled (tr ++ [(op, (exec e op).2)]) n' (exec e op).1 := by
  cases hop : op.queues with
  | true =>
      cases op with
      | tryQueueTask grantId userTask availMemory pid now =>
          rcases tryQueueTask_cases e grantId userTask availMemory pid now with
            ⟨m, hm, heq⟩ | ⟨-, -, heq⟩
          · simp only [exec, heq]
            have hsame : ({ e with nextTaskId := m } : Executor τ).Sound :=
              ⟨h.sound.top, h.sound.filed, h.sound.single⟩
            rcases hm with rfl | rfl
            · exact ⟨n, Nat.le_add_right _ _,
                h.quiet rfl hsame (Nat.le_refl _) h.next h.entries⟩
            · refine ⟨n + 1, Nat.le_refl _, h.quiet rfl hsame (Nat.le_succ n) ?_ h.entries⟩
              change e.nextTaskId + 1 = _
              rw [h.next]
              exact UInt64.ofNat_add_one _
          · simp only [exec, heq]
            exact ⟨n + 1, Nat.le_refl _, h.started grantId userTask availMemory pid now rfl⟩
      | _ => cases hop
  | false =>
      have hop' : ∀ grantId userTask availMemory pid now,
          op ≠ .tryQueueTask grantId userTask availMemory pid now := by
        rintro grantId userTask availMemory pid now rfl
        cases hop
      obtain ⟨htop, hnext⟩ := unallocated_exec e hop'
      refine ⟨n, Nat.le_add_right _ _, h.quiet (taskId_exec e hop) (sound_exec h.sound op)
        (Nat.le_refl _) (hnext.trans h.next) fun taskId p desc' hlook hdesc' => ?_⟩
      rcases (ages_exec e op).entries taskId p hlook with hold | ⟨hge, hlt⟩
      · obtain ⟨desc, hdesc⟩ := h.sound.filed taskId p hold
        obtain ⟨desc'', hdesc'', hidentity⟩ := h.sound.object op hdesc
        obtain rfl := Option.some_inj.1 (hdesc'.symm.trans hdesc'')
        simp only [TaskDesc.identity, Prod.mk.injEq] at hidentity
        rw [hidentity.2.1, hidentity.2.2.2]
        exact h.entries taskId p desc hold hdesc
      · rw [htop] at hlt
        exact absurd hlt (Nat.not_lt.2 hge)

/-- An executor as its constructor leaves it. -/
def Executor.construct (τ : Type) (maxConcurrency minMemory : UInt64) : Executor τ where
  maxConcurrency := maxConcurrency
  minMemory := minMemory

theorem chronicled_run (maxConcurrency minMemory : UInt64) (ops : List (ExecutorOp τ)) :
    ∃ n ≤ ops.countP ExecutorOp.queues,
      Chronicled ((executor τ).trace (.construct τ maxConcurrency minMemory) ops) n
        ((executor τ).run (.construct τ maxConcurrency minMemory) ops) := by
  induction ops using List.reverseRecOn with
  | nil =>
      refine ⟨0, Nat.le_refl 0, ⟨fun _ _ => rfl, (fun _ _ h => by cases h), fun _ _ _ h => ?_⟩,
        rfl, ?_, ?_, fun _ _ _ h => by cases h⟩
      · cases h
      · rintro taskId grantId userTask ⟨_, _, _, _, hmem, -⟩
        cases hmem
      · rintro - taskId grantId userTask grantId' userTask' ⟨_, _, _, _, hmem, -⟩
        cases hmem
  | append_singleton ops op ih =>
      obtain ⟨n, hle, h⟩ := ih
      obtain ⟨n', hle', h'⟩ := h.step op
      rw [Machine.run_concat, Machine.trace_concat]
      refine ⟨n', ?_, h'⟩
      rw [List.countP_append, List.countP_singleton]
      omega

end Cloud

/-! ### What the scheduler keeps of a report -/

namespace Scheduler

/-- What has been recorded at a location stays, as long as its servant stays registered and does not
report again. -/
theorem record_stays {s : TaskDispatcher} (hs : Registered s) (op : Op) {location : String}
    (hnotify : ∀ reported, op ≠ .notifyServantRunningTasks location reported)
    (hstays : ∀ p, s.findServant location = some p → p ∈ (exec s op).1.servants) :
    (exec s op).1.runningTaskBookkeeper.runningTasks.lookup location =
      s.runningTaskBookkeeper.runningTasks.lookup location := by
  cases op with
  | waitForStartingNewTask taskInfo expiresIn prefetching now =>
      rcases waitForStartingNewTask_cases s taskInfo expiresIn prefetching now with
        ⟨-, heq⟩ | ⟨-, -, heq⟩ | ⟨p, -, -, heq⟩
      · simp only [exec, heq]
      · simp only [exec, heq]
      · simp only [exec, heq]
        rfl
  | keepTaskAlive taskId expireTime now =>
      simp only [exec, keepTaskAlive]
      split
      · rfl
      · split
        · rfl
        · rfl
  | freeTask taskId =>
      have hbook : (exec s (.freeTask taskId)).1.runningTaskBookkeeper = s.runningTaskBookkeeper :=
        unsafeFreeTask_field TaskDispatcher.runningTaskBookkeeper (fun _ _ _ => rfl) s [taskId]
      rw [hbook]
  | keepServantAlive servantInfo expireTime now =>
      simp only [exec, keepServantAlive]
      split
      · rfl
      · rfl
  | notifyServantRunningTasks servantLocation reported =>
      have hne : location ≠ servantLocation := fun heq => hnotify reported (heq ▸ rfl)
      cases hfind : s.findServant servantLocation with
      | none => simp only [exec, notifyServantRunningTasks, hfind]
      | some p =>
          have hbook : (unsafeClearZombies s p
              (reported.map RunningTask.taskGrantId)).1.runningTaskBookkeeper =
                s.runningTaskBookkeeper :=
            unsafeFreeTask_field TaskDispatcher.runningTaskBookkeeper (fun _ _ _ => rfl) s _
          simp only [exec, notify_of_some hfind, lookup_setRunningTask, if_neg hne, hbook]
  | onTimerExpiration now =>
      have hbook : (exec s (.onTimerExpiration now)).1.runningTaskBookkeeper =
          (expireServants s now).runningTaskBookkeeper :=
        unsafeFreeTask_field TaskDispatcher.runningTaskBookkeeper (fun _ _ _ => rfl)
          (expireServants s now) _
      have hserv : (exec s (.onTimerExpiration now)).1.servants =
          (expireServants s now).servants := unsafeFreeTask_servants ..
      rw [hbook, expireServants, lookup_delServants, if_neg]
      -- the servant at the location has not expired, and locations are unique
      rintro ⟨p, hp, rfl⟩
      obtain ⟨hmem, hexpired⟩ := List.mem_filter.1 hp
      have hkept := hstays p (hs.findServant hmem)
      rw [hserv] at hkept
      obtain ⟨-, halive⟩ := List.mem_filter.1 hkept
      rw [hexpired] at halive
      cases halive
  | rehash taskRank locationRank =>
      simp only [exec, TaskDispatcher.rehash, Table.lookup_rehash]

/-- A reported task whose grant is permitted is recorded. -/
theorem recorded_of_permitted {s : TaskDispatcher} {location : String} {tasks : List RunningTask}
    {task : RunningTask} (htask : task ∈ tasks)
    (hpermitted : Permitted s location task.taskGrantId) :
    ∃ recorded,
      (exec s (.notifyServantRunningTasks location
        tasks)).1.runningTaskBookkeeper.runningTasks.lookup location = some recorded ∧
      task ∈ recorded := by
  obtain ⟨p, hfind, hgrant⟩ := hpermitted
  simp only [exec, notify_of_some hfind, lookup_setRunningTask, if_pos, contains_permittedTaskIds]
  refine ⟨_, rfl, List.mem_filter.2 ⟨htask, ?_⟩⟩
  obtain ⟨entry, hlook, rfl, hzombie⟩ := mem_permittedTaskIds.1 hgrant
  simp [permitted, hlook, hzombie]

end Scheduler

/-! ### Servants, scheduler and keepers -/

namespace Cluster

open Cloud (Executor ExecutorOp TimePoint)
open Local (TaskRunKeeper RunningTaskDesc)
open Scheduler (TaskDispatcher Op RunningTask)

/-- What is on its way. -/
inductive Message
  /-- A heartbeat of a servant. -/
  | heartBeat (servant : ℕ) (report : Report)
  /-- The answer to `GetRunningTasks`. -/
  | runningTasks (keeper : ℕ) (tasks : List RunningTask)
deriving DecidableEq, Repr

/-- What does not change: the daemons of the servants, and the limits that servants and scheduler
have been started with. -/
structure Site where
  daemons : ℕ → DaemonServiceImpl
  maxConcurrency : ℕ → UInt64
  minMemory : ℕ → UInt64
  minMemoryForNewTask : UInt64

/-- The servants, the scheduler and the keepers of the local daemons. -/
structure Directory where
  servants : ℕ → Executor String
  dispatcher : TaskDispatcher
  keepers : ℕ → TaskRunKeeper := fun _ => {}
  inFlight : List Message := []

/-- The operation is `NotifyServantRunningTasks`. -/
def isNotify : Op → Bool
  | .notifyServantRunningTasks _ _ => true
  | _ => false

inductive DirectoryEvent
  /-- An operation of a servant's executor. -/
  | servant (servant : ℕ) (op : ExecutorOp String)
  /-- `OnTimerHeartbeat` sends a heartbeat. -/
  | beat (servant : ℕ) (availMemoryInBytes : UInt64) (currentLoad : UInt32)
  /-- Any operation of the scheduler but the one that a heartbeat ends with. -/
  | scheduler (op : Op) (h : isNotify op = false)
  /-- `OnTimerRefresh` asks, and the scheduler answers. -/
  | getRunningTasks (keeper : ℕ)
  /-- `OnTimerRefresh` gets no answer. -/
  | refreshFailed (keeper : ℕ) (now : TimePoint)
  /-- The `i`-th message arrives: the scheduler calls `NotifyServantRunningTasks`, or
  `OnTimerRefresh` goes on. -/
  | deliver (i : ℕ) (now : TimePoint)
  /-- The `i`-th message is lost, or refused. -/
  | lose (i : ℕ)

section Machine

variable (site : Site)

namespace Directory

def send (w : Directory) (message : Message) : Directory :=
  { w with inFlight := w.inFlight ++ [message] }

/-- `OnTimerRefresh` of a keeper, with the answer. -/
def refresh (w : Directory) (keeper : ℕ) (now : TimePoint) (answer : Option (List RunningTask)) :
    Directory :=
  { w with
    keepers := Function.update w.keepers keeper ((w.keepers keeper).onTimerRefresh now answer) }

def receive (w : Directory) (now : TimePoint) : Message → Directory
  | .heartBeat servant report =>
      { w with
        dispatcher := (Scheduler.exec w.dispatcher (.notifyServantRunningTasks
          (site.daemons servant).location ((site.daemons servant).runningTasks report))).1 }
  | .runningTasks keeper tasks => w.refresh keeper now (some tasks)

end Directory

def directoryStep (w : Directory) : DirectoryEvent → Directory
  | .servant k op =>
      { w with servants := Function.update w.servants k (Cloud.exec (w.servants k) op).1 }
  | .beat k availMemoryInBytes currentLoad =>
      w.send (.heartBeat k
        { availMemoryInBytes := availMemoryInBytes
          currentLoad := currentLoad
          concurrency := (w.servants k).maxConcurrency.toUInt32
          tasks := Cloud.getAllTasks (w.servants k) })
  | .scheduler op _ => { w with dispatcher := (Scheduler.exec w.dispatcher op).1 }
  | .getRunningTasks keeper =>
      w.send (.runningTasks keeper (Scheduler.getRunningTasksRpc w.dispatcher))
  | .refreshFailed keeper now => w.refresh keeper now none
  | .deliver i now =>
      match w.inFlight[i]? with
      | none => w
      | some message => { w with inFlight := w.inFlight.eraseIdx i }.receive site now message
  | .lose i => { w with inFlight := w.inFlight.eraseIdx i }

/-- **The directory as a machine.** -/
def directory : Machine Directory DirectoryEvent Unit :=
  ⟨fun w e => (directoryStep site w e, ())⟩

/-- Everyone has just been started. -/
def Directory.init : Directory where
  servants k := .construct String (site.maxConcurrency k) (site.minMemory k)
  dispatcher := .init site.minMemoryForNewTask

end Machine

/-! ### Each servant by itself -/

/-- The operations of one servant. -/
def DirectoryEvent.opOf (k : ℕ) : DirectoryEvent → Option (ExecutorOp String)
  | .servant j op => if j = k then some op else none
  | _ => none

/-- What one servant does in a run. -/
def opsOf (k : ℕ) (events : List DirectoryEvent) : List (ExecutorOp String) :=
  events.filterMap (DirectoryEvent.opOf k)

section Servants

variable (site : Site)

/-- A message changes no servant. -/
theorem servants_receive (w : Directory) (now : TimePoint) (message : Message) :
    (w.receive site now message).servants = w.servants := by
  cases message with
  | heartBeat servant report => rfl
  | runningTasks keeper tasks => rfl

theorem servants_step (w : Directory) (e : DirectoryEvent) (k : ℕ) :
    (directoryStep site w e).servants k =
      ((e.opOf k).elim (w.servants k) fun op => (Cloud.exec (w.servants k) op).1) := by
  cases e with
  | servant j op =>
      rw [DirectoryEvent.opOf]
      split
      next hj =>
        subst hj
        exact Function.update_self ..
      next hj => exact Function.update_of_ne (Ne.symm hj) ..
  | deliver i now =>
      simp only [directoryStep]
      split
      · rfl
      · rw [servants_receive]
        rfl
  | _ => rfl

/-- **Every servant runs as it does alone.** -/
theorem servants_run (w : Directory) (events : List DirectoryEvent) (k : ℕ) :
    ((directory site).run w events).servants k =
      (Cloud.executor String).run (w.servants k) (opsOf k events) := by
  induction events using List.reverseRecOn with
  | nil => rfl
  | append_singleton events e ih =>
      have hstep := servants_step site ((directory site).run w events) e k
      rw [Machine.run_concat, opsOf, List.filterMap_append, Machine.run_append]
      change (directoryStep site _ e).servants k = _
      rw [hstep, ih]
      cases hop : e.opOf k with
      | none => simp [opsOf, hop]
      | some op =>
          simp only [opsOf, Option.elim_some, List.filterMap_cons, hop, List.filterMap_nil]
          rfl

end Servants

/-! ### What a record goes back to -/

section Runs

variable (site : Site)

/-- The directory after a run. -/
def directoryAfter (events : List DirectoryEvent) : Directory :=
  (directory site).run (.init site) events

/-- What the executor of a servant goes through in a run. -/
def chronicle (k : ℕ) (events : List DirectoryEvent) : Cloud.ExecutorTrace String :=
  (Cloud.executor String).trace (.construct String (site.maxConcurrency k) (site.minMemory k))
    (opsOf k events)

/-- A servant at this location has been given the task that the record names. -/
def Reported (events : List DirectoryEvent) (task : RunningTask) : Prop :=
  ∃ k, (site.daemons k).location = task.servantLocation ∧
    Cloud.Issued (chronicle site k events) task.servantTaskId task.taskGrantId task.taskDigest

/-- Moreover its grant has been permitted at this location. -/
def Recorded (events : List DirectoryEvent) (task : RunningTask) : Prop :=
  Reported site events task ∧
    ∃ js ks, events = js ++ ks ∧
      Scheduler.Permitted (directoryAfter site js).dispatcher task.servantLocation task.taskGrantId

/-- **Every record goes back to a servant**, and behind the scheduler to a permission. -/
structure Sourced (events : List DirectoryEvent) (w : Directory) : Prop where
  reports : ∀ k report, .heartBeat k report ∈ w.inFlight →
    ∀ task ∈ (site.daemons k).runningTasks report, Reported site events task
  records : ∀ location tasks,
    w.dispatcher.runningTaskBookkeeper.runningTasks.lookup location = some tasks →
      ∀ task ∈ tasks, Recorded site events task
  answers : ∀ keeper tasks, .runningTasks keeper tasks ∈ w.inFlight →
    ∀ task ∈ tasks, Recorded site events task
  kept : ∀ keeper taskDigest found, (w.keepers keeper).tryFindTask taskDigest = some found →
    ∃ task, Recorded site events task ∧ Bytes.ofString task.taskDigest = taskDigest ∧
      found = TaskRunKeeper.descOf task

theorem directoryAfter_concat (events : List DirectoryEvent) (e : DirectoryEvent) :
    directoryAfter site (events ++ [e]) = directoryStep site (directoryAfter site events) e := by
  rw [directoryAfter, Machine.run_concat]
  rfl

variable {site} {events : List DirectoryEvent} {w : Directory} {task : RunningTask}

theorem Reported.append (h : Reported site events task) (more : List DirectoryEvent) :
    Reported site (events ++ more) task := by
  obtain ⟨k, hlocation, hissued⟩ := h
  refine ⟨k, hlocation, ?_⟩
  rw [chronicle, opsOf, List.filterMap_append, Machine.trace_append]
  exact hissued.append _

theorem Recorded.append (h : Recorded site events task) (more : List DirectoryEvent) :
    Recorded site (events ++ more) task := by
  obtain ⟨hreported, js, ks, rfl, hpermitted⟩ := h
  exact ⟨hreported.append more, js, ks ++ more, List.append_assoc .., hpermitted⟩

/-- What a heartbeat of a servant lists has been given to it. -/
theorem reported_of_beat {k : ℕ} {report : Report}
    (htasks : report.tasks = Cloud.getAllTasks ((directoryAfter site events).servants k))
    (htask : task ∈ (site.daemons k).runningTasks report) : Reported site events task := by
  obtain ⟨running, hrunning, rfl⟩ := List.mem_map.1 htask
  rw [htasks, directoryAfter, servants_run] at hrunning
  obtain ⟨⟨taskId, p, desc⟩, hall, rfl⟩ := List.mem_map.1 hrunning
  obtain ⟨hlook, hdesc⟩ := Cloud.mem_all.1 hall
  obtain ⟨n, -, hchronicled⟩ :=
    Cloud.chronicled_run (site.maxConcurrency k) (site.minMemory k) (opsOf k events)
  exact ⟨k, rfl, hchronicled.entries taskId p desc hlook hdesc⟩

namespace Sourced

/-- What is known of a record stays known. -/
theorem later (h : Sourced site events w) (e : DirectoryEvent) :
    Sourced site (events ++ [e]) w where
  reports k report hmem task htask := (h.reports k report hmem task htask).append [e]
  records location tasks hlook task htask := (h.records location tasks hlook task htask).append [e]
  answers keeper tasks hmem task htask := (h.answers keeper tasks hmem task htask).append [e]
  kept := by
    intro keeper taskDigest found hfind
    obtain ⟨task, hrecorded, hdigest, hfound⟩ := h.kept keeper taskDigest found hfind
    exact ⟨task, hrecorded.append [e], hdigest, hfound⟩

/-- A message may be forgotten. -/
theorem forget (h : Sourced site events w) (i : ℕ) :
    Sourced site events { w with inFlight := w.inFlight.eraseIdx i } where
  reports k report hmem := h.reports k report (List.mem_of_mem_eraseIdx hmem)
  records := h.records
  answers keeper tasks hmem := h.answers keeper tasks (List.mem_of_mem_eraseIdx hmem)
  kept := h.kept

/-- A keeper makes its table of what has been recorded. -/
theorem refresh (h : Sourced site events w) (keeper : ℕ) (now : TimePoint)
    {answer : Option (List RunningTask)}
    (hanswer : ∀ tasks, answer = some tasks → ∀ task ∈ tasks, Recorded site events task) :
    Sourced site events (w.refresh keeper now answer) where
  reports := h.reports
  records := h.records
  answers := h.answers
  kept := by
    intro a taskDigest found hfind
    by_cases ha : a = keeper
    · subst ha
      simp only [Directory.refresh, Function.update_self] at hfind
      cases answer with
      | none =>
          rw [TaskRunKeeper.onTimerRefresh] at hfind
          split at hfind
          · cases hfind
          · exact h.kept a taskDigest found hfind
      | some tasks =>
          rw [Local.tryFindTask_onTimerRefresh] at hfind
          obtain ⟨task, htask, rfl⟩ := Option.map_eq_some_iff.1 hfind
          have hmem := List.mem_reverse.1 (List.mem_of_find?_eq_some htask)
          exact ⟨task, hanswer tasks rfl task hmem, by simpa using List.find?_some htask, rfl⟩
    · simp only [Directory.refresh, Function.update_of_ne ha] at hfind
      exact h.kept a taskDigest found hfind

/-- A message is sent. -/
theorem send (h : Sourced site events w) {message : Message}
    (hreport : ∀ k report, message = .heartBeat k report →
      ∀ task ∈ (site.daemons k).runningTasks report, Reported site events task)
    (hanswer : ∀ keeper tasks, message = .runningTasks keeper tasks →
      ∀ task ∈ tasks, Recorded site events task) :
    Sourced site events (w.send message) where
  reports := by
    intro k report hmem
    rcases List.mem_append.1 hmem with hold | hnew
    · exact h.reports k report hold
    · exact hreport k report (List.mem_singleton.1 hnew).symm
  records := h.records
  answers := by
    intro keeper tasks hmem
    rcases List.mem_append.1 hmem with hold | hnew
    · exact h.answers keeper tasks hold
    · exact hanswer keeper tasks (List.mem_singleton.1 hnew).symm
  kept := h.kept

/-- The records are those that were there, or the scheduler permits them. -/
theorem operate (h : Sourced site events w) (op : Op)
    (hnew : ∀ location reported p, op = .notifyServantRunningTasks location reported →
      w.dispatcher.findServant location = some p → ∀ task ∈ reported,
        task.taskGrantId ∈ Scheduler.permittedTaskIds w.dispatcher p →
          Recorded site events task) :
    Sourced site events { w with dispatcher := (Scheduler.exec w.dispatcher op).1 } where
  reports := h.reports
  records := by
    intro location tasks hlook task htask
    rcases Scheduler.lookup_bookkeeper_exec w.dispatcher op hlook with
      ⟨hold, -⟩ | ⟨reported, p, hop, hfind, -, htasks⟩
    · exact h.records location tasks hold task htask
    · exact hnew location reported p hop hfind task (htasks task htask).1 (htasks task htask).2
  answers := h.answers
  kept := h.kept

end Sourced

/-- **One step** adds only what goes back to a servant and a permission. -/
theorem sourced_step (h : Sourced site events (directoryAfter site events))
    (e : DirectoryEvent) :
    Sourced site (events ++ [e]) (directoryAfter site (events ++ [e])) := by
  rw [directoryAfter_concat]
  refine Sourced.later ?_ e
  cases e with
  | servant k op => exact ⟨h.reports, h.records, h.answers, h.kept⟩
  | beat k availMemoryInBytes currentLoad =>
      refine h.send (fun j report hmessage task htask => ?_) fun _ _ hmessage => by cases hmessage
      cases hmessage
      exact reported_of_beat rfl htask
  | scheduler op hop =>
      refine h.operate op fun location reported p heq => ?_
      rw [heq] at hop
      cases hop
  | getRunningTasks keeper =>
      refine h.send (fun _ _ hmessage => by cases hmessage) fun a tasks hmessage task htask => ?_
      cases hmessage
      obtain ⟨location, recorded, hlook, hmem⟩ := Scheduler.mem_getRunningTasks.1 htask
      exact h.records location recorded hlook task hmem
  | refreshFailed keeper now =>
      refine h.refresh keeper now fun tasks hanswer => ?_
      cases hanswer
  | deliver i now =>
      simp only [directoryStep]
      split
      · exact h
      next message hget =>
        have hmem := List.mem_of_getElem? hget
        cases message with
        | heartBeat k report =>
            refine (h.forget i).operate _ fun location reported p heq hfind task htask hgrant => ?_
            cases heq
            refine ⟨h.reports k report hmem task htask, events, [], (List.append_nil _).symm,
              p, ?_, hgrant⟩
            -- a servant writes its own location into every record
            obtain ⟨running, -, rfl⟩ := List.mem_map.1 htask
            exact hfind
        | runningTasks keeper tasks =>
            refine (h.forget i).refresh keeper now fun tasks' hanswer => ?_
            cases hanswer
            exact h.answers keeper tasks hmem
  | lose i => exact h.forget i

end Runs

/-! ### What a keeper finds -/

section Found

variable (site : Site)

theorem sourced_run (events : List DirectoryEvent) :
    Sourced site events (directoryAfter site events) := by
  induction events using List.reverseRecOn with
  | nil =>
      exact
        { reports := fun _ _ hmem => by cases hmem
          records := fun _ _ hlook => by cases hlook
          answers := fun _ _ hmem => by cases hmem
          kept := fun _ _ _ hfind => by cases hfind }
  | append_singleton events e ih => exact sourced_step ih e

/-- **What a keeper finds is what it looks for.**  Whenever `TryFindTask` finds a compile in a run,
a servant at the location that is found has been given the task that is found, for the digest that
is looked for, and the scheduler has permitted its grant at that location.  Whatever has happened
since, nothing else ever gets its id at that servant: as long as no servant has handed out more than
`2 ^ 64` ids, what stands under the id, and what `AddTaskRef` would add a reference to, is this
task. -/
theorem found_names_compile (events : List DirectoryEvent)
    (hids : ∀ k, (opsOf k events).countP ExecutorOp.queues ≤ 2 ^ 64) {keeper : ℕ}
    {taskDigest : Bytes} {found : RunningTaskDesc}
    (hfound : ((directoryAfter site events).keepers keeper).tryFindTask taskDigest = some found) :
    ∃ k grantId digest, (site.daemons k).location = found.servantLocation ∧
      Bytes.ofString digest = taskDigest ∧
      Cloud.Issued (chronicle site k events) found.servantTaskId grantId digest ∧
      (∃ js ks, events = js ++ ks ∧
        Scheduler.Permitted (directoryAfter site js).dispatcher found.servantLocation grantId) ∧
      ∀ p desc,
        ((directoryAfter site events).servants k).find found.servantTaskId = some (p, desc) →
          desc.grantId = grantId ∧ desc.task = digest := by
  obtain ⟨task, ⟨⟨k, hlocation, hissued⟩, hpermitted⟩, hdigest, rfl⟩ :=
    (sourced_run site events).kept keeper taskDigest found hfound
  refine ⟨k, task.taskGrantId, task.taskDigest, hlocation, hdigest, hissued, hpermitted, ?_⟩
  intro p desc hfind
  obtain ⟨hlook, hdesc⟩ := Cloud.find_eq_some.1 hfind
  rw [directoryAfter, servants_run] at hlook hdesc
  obtain ⟨n, hle, hchronicled⟩ :=
    Cloud.chronicled_run (site.maxConcurrency k) (site.minMemory k) (opsOf k events)
  exact hchronicled.unique (Nat.le_trans hle (hids k)) _ _ _ _ _ hissued
    (hchronicled.entries _ p desc hlook hdesc)

/-- The operation of the scheduler that a step performs. -/
def operation (w : Directory) : DirectoryEvent → Option Op
  | .scheduler op _ => some op
  | .deliver i _ =>
      match w.inFlight[i]? with
      | some (.heartBeat k report) =>
          some (.notifyServantRunningTasks (site.daemons k).location
            ((site.daemons k).runningTasks report))
      | _ => none
  | _ => none

/-- The step leaves the servant at a location registered, and is no report from there. -/
def Keeps (location : String) (w : Directory) (e : DirectoryEvent) : Prop :=
  ∀ op, operation site w e = some op →
    (∀ reported, op ≠ .notifyServantRunningTasks location reported) ∧
      ∀ p, w.dispatcher.findServant location = some p →
        p ∈ (Scheduler.exec w.dispatcher op).1.servants

/-- **The scheduler runs as it does alone.** -/
theorem dispatcher_step (w : Directory) (e : DirectoryEvent) :
    (directoryStep site w e).dispatcher =
      (operation site w e).elim w.dispatcher fun op => (Scheduler.exec w.dispatcher op).1 := by
  cases e with
  | deliver i now =>
      simp only [directoryStep, operation]
      cases w.inFlight[i]? with
      | none => rfl
      | some message =>
          cases message with
          | heartBeat k report => rfl
          | runningTasks keeper tasks => rfl
  | _ => rfl

theorem registered_step {w : Directory} (h : Scheduler.Registered w.dispatcher)
    (e : DirectoryEvent) : Scheduler.Registered (directoryStep site w e).dispatcher := by
  rw [dispatcher_step]
  cases operation site w e with
  | none => exact h
  | some op => exact Scheduler.registered_exec h op

theorem registered_directory (events : List DirectoryEvent) :
    Scheduler.Registered (directoryAfter site events).dispatcher :=
  Machine.run_invariant (M := directory site) (P := fun w => Scheduler.Registered w.dispatcher)
    (fun _ e h => registered_step site h e) (Scheduler.registered_init site.minMemoryForNewTask)
    events

/-- Steps that keep it leave a record of the location where it is. -/
theorem record_keeps {w : Directory} (hw : Scheduler.Registered w.dispatcher) {location : String}
    {tasks : List RunningTask}
    (hlook : w.dispatcher.runningTaskBookkeeper.runningTasks.lookup location = some tasks)
    {events : List DirectoryEvent}
    (hkeeps : (directory site).Along (Keeps site location) w events) :
    ((directory site).run w events).dispatcher.runningTaskBookkeeper.runningTasks.lookup
      location = some tasks := by
  refine (Machine.run_invariant_along (M := directory site)
    (P := fun w => Scheduler.Registered w.dispatcher ∧
      w.dispatcher.runningTaskBookkeeper.runningTasks.lookup location = some tasks)
    ?_ ⟨hw, hlook⟩ hkeeps).2
  intro w e hkeep hbefore
  refine ⟨registered_step site hbefore.1 e, ?_⟩
  change (directoryStep site w e).dispatcher.runningTaskBookkeeper.runningTasks.lookup location =
    some tasks
  rw [dispatcher_step]
  cases hop : operation site w e with
  | none => exact hbefore.2
  | some op =>
      obtain ⟨hnotify, hstays⟩ := hkeep op hop
      exact (Scheduler.record_stays hbefore.1 op hnotify hstays).trans hbefore.2

/-- **What a heartbeat reports is found.**  A heartbeat arrives at the scheduler in any run and
reports a compile whose grant is permitted there.  Then every keeper that refreshes itself with an
answer given later finds a compile with this digest, as long as the servant has stayed registered
and has not reported again until the answer was given; whatever else happens in between and on the
way of the answer. -/
theorem reported_compile_found (before between after : List DirectoryEvent) {i j k keeper : ℕ}
    {now now' : TimePoint} {report : Report} {task : RunningTask} :
    let w := directoryAfter site before
    let w₁ := directoryAfter site (before ++ [.deliver i now] ++ between)
    let w₂ := directoryAfter site
      (before ++ [.deliver i now] ++ between ++ [.getRunningTasks keeper] ++ after)
    w.inFlight[i]? = some (.heartBeat k report) → task ∈ (site.daemons k).runningTasks report →
      Scheduler.Permitted w.dispatcher (site.daemons k).location task.taskGrantId →
      (directory site).Along (Keeps site (site.daemons k).location)
        (directoryStep site w (.deliver i now)) between →
      w₂.inFlight[j]? =
        some (.runningTasks keeper (Scheduler.getRunningTasksRpc w₁.dispatcher)) →
      ∃ found, ((directoryStep site w₂ (.deliver j now')).keepers keeper).tryFindTask
        (Bytes.ofString task.taskDigest) = some found := by
  intro w w₁ w₂ hbeat htask hpermitted hkeeps hanswer
  -- the report is recorded when it arrives
  obtain ⟨recorded, hlook, hrecorded⟩ := Scheduler.recorded_of_permitted htask hpermitted
  have harrived : (directoryStep site w (.deliver i
      now)).dispatcher.runningTaskBookkeeper.runningTasks.lookup (site.daemons k).location =
        some recorded := by
    simp only [directoryStep, hbeat]
    exact hlook
  -- it is still there when the answer is given
  have hstays := record_keeps site
    (registered_step site (registered_directory site before) (.deliver i now)) harrived hkeeps
  have hw₁ : w₁ = (directory site).run (directoryStep site w (.deliver i now)) between := by
    rw [← directoryAfter_concat]
    exact Machine.run_append ..
  have hlisted : task ∈ Scheduler.getRunningTasksRpc w₁.dispatcher := by
    rw [hw₁]
    exact Scheduler.mem_getRunningTasks.2 ⟨_, recorded, hstays, hrecorded⟩
  -- and the keeper makes its table of the answer
  have hkeeper : (directoryStep site w₂ (.deliver j now')).keepers keeper =
      (w₂.keepers keeper).onTimerRefresh now'
        (some (Scheduler.getRunningTasksRpc w₁.dispatcher)) := by
    simp only [directoryStep, hanswer]
    exact Function.update_self ..
  rw [hkeeper, Local.tryFindTask_onTimerRefresh]
  refine Option.isSome_iff_exists.1 ?_
  rw [Option.isSome_map, List.find?_isSome]
  exact ⟨task, List.mem_reverse.2 hlisted, beq_self_eq_true _⟩

end Found

/-! ### A compile that has ended -/

/-- One servant, and the machines of the samples. -/
def sampleSite : Site where
  daemons _ := sampleDaemon
  maxConcurrency _ := 4
  minMemory _ := 0
  minMemoryForNewTask := 0

/-- The servant of `Scheduler.sampleRegister` starts a compile under the first grant and reports
it. -/
def sampleReported : List DirectoryEvent :=
  [.scheduler Scheduler.sampleRegister rfl, .scheduler Scheduler.sampleGrant rfl,
    .servant 0 (.tryQueueTask 0 "digest" 0 100 0), .beat 0 0 0]

/-- A keeper is told.  Then the compile is given up, and the servant starts another. -/
def sampleForgotten : List DirectoryEvent :=
  sampleReported ++ [.deliver 0 0, .getRunningTasks 7, .deliver 0 0, .servant 0 (.freeTask 1),
    .servant 0 (.tryQueueTask 1 "other" 0 101 0)]

/-- No servant has asked for more ids than there are. -/
theorem countP_queues_le (k : ℕ) {events : List DirectoryEvent} (h : events.length ≤ 2 ^ 64) :
    (opsOf k events).countP ExecutorOp.queues ≤ 2 ^ 64 :=
  Nat.le_trans List.countP_le_length (Nat.le_trans (List.length_filterMap_le ..) h)

/-- The keeper finds what is no longer there, under an id that stays its own. -/
theorem found_names_compile_forgotten :
    ∃ k grantId digest, (sampleSite.daemons k).location = "10.0.0.1:8080" ∧
      Bytes.ofString digest = Bytes.ofString "digest" ∧
      Cloud.Issued (chronicle sampleSite k sampleForgotten) 1 grantId digest ∧
      (∃ js ks, sampleForgotten = js ++ ks ∧
        Scheduler.Permitted (directoryAfter sampleSite js).dispatcher "10.0.0.1:8080" grantId) ∧
      ∀ p desc,
        ((directoryAfter sampleSite sampleForgotten).servants k).find 1 = some (p, desc) →
          desc.grantId = grantId ∧ desc.task = digest :=
  @found_names_compile sampleSite sampleForgotten (fun k => countP_queues_le k (by decide)) 7
    (Bytes.ofString "digest") ⟨"10.0.0.1:8080", 1⟩ (by decide +kernel)

/-- Between the heartbeat and the answer the compile is given up; the keeper still finds it. -/
theorem reported_compile_found_forgotten :
    let w := directoryAfter sampleSite
      (sampleReported ++ [.deliver 0 0] ++ [.servant 0 (.freeTask 1)] ++ [.getRunningTasks 7] ++ [])
    ∃ found, ((directoryStep sampleSite w (.deliver 0 0)).keepers 7).tryFindTask
      (Bytes.ofString "digest") = some found :=
  @reported_compile_found sampleSite sampleReported [.servant 0 (.freeTask 1)] [] 0 0 0 7 0 0
    { availMemoryInBytes := 0, currentLoad := 0, concurrency := 4, tasks := [⟨1, 0, "digest"⟩] }
    ⟨1, 0, "10.0.0.1:8080", "digest"⟩ (by decide +kernel) (by decide) (by decide +kernel)
    ⟨(fun op h => by cases h), trivial⟩ (by decide +kernel)

end Cluster
