/-
**A `fork` that fails.**

`StartProgram` checks the pid that `fork` returns with `DISTBU_CHECK_FORMAT`, which only logs, and
`TryQueueTask` does not look at the pid it gets back.  So a `fork` that fails leaves an entry of
`tasks_` with the pid `-1`, a compile that is counted and never ends, and a permit without a child:
`KillTask` signals the group `-(-1)`, and `WaiterProc` calls `wait` for nobody.

Main definitions:

* `Cloud.FailsCleanly` — what `TryQueueTask` should do about a failed `fork`;
* `Cloud.StepBlameless`, `Cloud.Blameless` — a step and a state in which no failed `fork` shows.

Main results:

* `Cloud.forkWorks_run` — what a run without a failed `fork` preserves;
* `Cloud.failed_fork_iff` — **when a failed `fork` is a failed enqueue**;
* `Cloud.failed_fork_queued` — it may be taken for a started compile.
-/

import Distribuild.CloudReaper

set_option relaxedAutoImplicit false
set_option autoImplicit false

namespace Cloud

variable {τ : Type}

/-! ### What a failed `fork` should look like -/

/-- `TryQueueTask` reports that it has failed, and leaves everything as it was. -/
def FailsCleanly (e : Executor τ) (result : Executor τ × Option UInt64) : Prop :=
  result.2 = none ∧ result.1.tasks = e.tasks ∧ result.1.runningTasks = e.runningTasks ∧
    result.1.permits = e.permits

/-- It does so when it refuses, and never after `fork`. -/
theorem failsCleanly_iff (e : Executor τ) (grantId : UInt64) (userTask : τ) (availMemory : UInt64)
    (pid : Pid) (now : TimePoint) :
    FailsCleanly e (tryQueueTask e grantId userTask availMemory pid now) ↔
      e.Refuses availMemory := by
  constructor
  · rintro ⟨hnone, -⟩
    by_contra hrefuses
    rw [tryQueueTask_accepted hrefuses] at hnone
    cases hnone
  · intro hrefuses
    obtain ⟨n, heq⟩ := tryQueueTask_refused hrefuses grantId userTask pid now
    rw [heq]
    exact ⟨rfl, rfl, rfl, rfl⟩

/-- How many calls of `TryQueueTask` have returned an id. -/
def queuedIn (history : List (HostEvent τ × HostOutput τ)) : ℕ :=
  history.countP fun step => step.2.queuedSome

/-- The step is no failed `fork` that is taken for a started compile, and sends no signal to the
group of one. -/
def StepBlameless (h : Host τ) (event : HostEvent τ) : Prop :=
  (∀ grantId userTask availMemory now,
    event = .tryQueueTask grantId userTask availMemory (-1) now →
      FailsCleanly h.executor (tryQueueTask h.executor grantId userTask availMemory (-1) now)) ∧
  ∀ signal ∈ ((host τ).out h event).sent, signal.pid ≠ -1

/-- **No failed `fork` shows in the state.** -/
structure Blameless (history : List (HostEvent τ × HostOutput τ)) (h : Host τ) : Prop where
  entries : ∀ taskId p desc, h.executor.tasks.lookup taskId = some p →
    h.executor.heap p = some desc → desc.pid ≠ -1
  /-- If `wait` is called without a child, `Stop` has woken the waiter, which has taken more permits
  than `TryQueueTask` has released. -/
  wait : h.waiter = .waiting → h.children = [] →
    h.executor.exiting = true ∧ queuedIn history < h.acquired

/-! ### Runs without one -/

/-- No object has the pid of a failed `fork`. -/
def PidsReal (h : Host τ) : Prop := ∀ p desc, h.executor.heap p = some desc → desc.pid ≠ -1

theorem PidsReal.tryQueueTask {h : Host τ} (hpids : PidsReal h) {availMemory : UInt64} {pid : Pid}
    (hworks : pid = -1 → h.executor.Refuses availMemory) (grantId : UInt64) (userTask : τ)
    (now : TimePoint) :
    ∀ p desc, (Cloud.tryQueueTask h.executor grantId userTask availMemory pid now).1.heap p =
      some desc → desc.pid ≠ -1 := by
  intro p desc hdesc
  by_cases hrefuses : h.executor.Refuses availMemory
  · obtain ⟨n, heq⟩ := tryQueueTask_refused hrefuses grantId userTask pid now
    rw [heq] at hdesc
    exact hpids p desc hdesc
  · rw [tryQueueTask_accepted hrefuses] at hdesc
    by_cases hp : p = h.executor.heapTop
    · simp only [Executor.started, hp, Function.update_self] at hdesc
      cases hdesc
      exact fun hfail => hrefuses (hworks hfail)
    · simp only [Executor.started, Function.update_of_ne hp] at hdesc
      exact hpids p desc hdesc

/-- An operation other than `TryQueueTask` makes no object, and objects keep their pid. -/
theorem PidsReal.exec {h : Host τ} (hs : h.Sound) (hpids : PidsReal h) {op : ExecutorOp τ}
    (hop : ∀ grantId userTask availMemory pid now,
      op ≠ .tryQueueTask grantId userTask availMemory pid now) :
    ∀ p desc, (Cloud.exec h.executor op).1.heap p = some desc → desc.pid ≠ -1 := by
  intro p desc' hdesc'
  have hp : p < h.executor.heapTop := by
    have hlt := (sound_exec hs.executor op).lt hdesc'
    rwa [(unallocated_exec h.executor hop).1] at hlt
  obtain ⟨desc, hdesc, hpid, -⟩ := object_of_exec op hdesc' hp
  rw [← hpid]
  exact hpids p desc hdesc

theorem PidsReal.step {h : Host τ} {event : HostEvent τ} (hs : h.Sound) (hpids : PidsReal h)
    (hworks : ForkWorks h event) : PidsReal (hostStep h event).1 := by
  unfold PidsReal
  rw [executor_hostStep]
  cases hoper : h.operation event with
  | none => exact hpids
  | some op =>
      cases op with
      | tryQueueTask grantId userTask availMemory pid now =>
          have hfrom : event = .tryQueueTask grantId userTask availMemory pid now :=
            comesFrom_of_operation hoper
          rw [hfrom] at hworks
          exact hpids.tryQueueTask hworks grantId userTask now
      | _ => exact hpids.exec hs fun _ _ _ _ _ hop => by cases hop

/-- A signal goes to the pid of an object. -/
theorem sent_hostStep {h : Host τ} {event : HostEvent τ} {signal : Signal}
    (hmem : signal ∈ (hostStep h event).2.sent) :
    ∃ desc, h.executor.heap signal.desc = some desc ∧ signal.pid = desc.pid := by
  have hkilled {p : TaskPtr} (hsignal : signal ∈ killTask h.executor p) :
      ∃ desc, h.executor.heap signal.desc = some desc ∧ signal.pid = desc.pid := by
    obtain ⟨desc, hdesc, -, rfl⟩ := mem_killTask hsignal
    exact ⟨desc, hdesc, rfl⟩
  cases event with
  | killTask i =>
      cases hp : h.killing[i]? with
      | none =>
          simp only [hostStep, hp] at hmem
          cases hmem
      | some p =>
          simp only [hostStep, hp] at hmem
          exact hkilled hmem
  | killExpiredTasks ids =>
      obtain ⟨entry, -, hsignal⟩ := List.mem_flatMap.1 hmem
      split at hsignal
      · exact hkilled hsignal
      · cases hsignal
  | stop =>
      obtain ⟨entry, -, hsignal⟩ := List.mem_flatMap.1 hmem
      exact hkilled hsignal
  | _ =>
      refine absurd hmem (List.eq_nil_iff_forall_not_mem.1 (sent_eq_nil ?_ ?_ ?_) signal)
      · exact fun _ heq => by cases heq
      · exact fun _ heq => by cases heq
      · exact fun heq => by cases heq

/-- In a run without a failed `fork`, no object has its pid, and permits and children balance. -/
theorem forkWorks_run (flags : ExecutorFlags) (numCpuCores : UInt64) {events : List (HostEvent τ)}
    (hworks : (host τ).Along ForkWorks (.init τ flags numCpuCores) events) :
    let h := (host τ).run (.init τ flags numCpuCores) events
    let queued := queuedIn ((host τ).trace (.init τ flags numCpuCores) events)
    PidsReal h ∧ ∃ reaped, Balanced queued queued reaped h := by
  suffices hall : ((host τ).run (.init τ flags numCpuCores) events).Sound ∧
      PidsReal ((host τ).run (.init τ flags numCpuCores) events) ∧
      ∃ reaped, Balanced (queuedIn ((host τ).trace (.init τ flags numCpuCores) events))
        (queuedIn ((host τ).trace (.init τ flags numCpuCores) events)) reaped
        ((host τ).run (.init τ flags numCpuCores) events) from hall.2
  refine Machine.trace_invariant_along (M := host τ) (P := fun history h => h.Sound ∧ PidsReal h ∧
    ∃ reaped, Balanced (queuedIn history) (queuedIn history) reaped h) ?_ ?_ hworks
  · refine ⟨sound_init flags numCpuCores, fun p desc hdesc => ?_, 0,
      balanced_init flags numCpuCores⟩
    cases hdesc
  · rintro history h event hevent ⟨hs, hpids, reaped, hb⟩
    refine ⟨hs.step event, hpids.step hs hevent,
      reaped + (event.reaps (hostStep h event).2).toNat, ?_⟩
    simp only [queuedIn, countP_concat]
    exact hb.step (Nat.le_refl _) hevent

/-! ### When a failed `fork` is a failed enqueue -/

/-- Where no object has the pid of a failed `fork`, a step that is no failed `fork` does no harm. -/
theorem PidsReal.stepBlameless {h : Host τ} {event : HostEvent τ} (hpids : PidsReal h)
    (hworks : ForkWorks h event) : StepBlameless h event := by
  refine ⟨?_, fun signal hmem => ?_⟩
  · rintro grantId userTask availMemory now rfl
    exact (failsCleanly_iff ..).2 (hworks rfl)
  · obtain ⟨desc, hdesc, hpid⟩ := sent_hostStep hmem
    rw [hpid]
    exact hpids _ desc hdesc

/-- A step that does no harm is no failed `fork`. -/
theorem StepBlameless.forkWorks {h : Host τ} {event : HostEvent τ} (hstep : StepBlameless h event) :
    ForkWorks h event := by
  cases event with
  | tryQueueTask grantId userTask availMemory pid now =>
      rintro rfl
      exact (failsCleanly_iff ..).1 (hstep.1 grantId userTask availMemory now rfl)
  | _ => trivial

/-- **When a failed `fork` is a failed enqueue.**  In every state, `TryQueueTask` with a `fork` that
fails reports a failure and leaves `tasks_`, `running_tasks_` and the permits alone exactly if it
refuses before it gets to `fork`.  So in every run it does so each time, no entry has the pid `-1`,
no signal goes to the group of such a pid, and `wait` is not called for a child that does not exist,
exactly if no `fork` fails. -/
theorem failed_fork_iff :
    (∀ (e : Executor τ) (grantId : UInt64) (userTask : τ) (availMemory : UInt64) (now : TimePoint),
      FailsCleanly e (tryQueueTask e grantId userTask availMemory (-1) now) ↔
        e.Refuses availMemory) ∧
    ∀ (flags : ExecutorFlags) (numCpuCores : UInt64) (events : List (HostEvent τ)),
      ((host τ).Along StepBlameless (.init τ flags numCpuCores) events ∧
        ∀ before after, events = before ++ after →
          Blameless ((host τ).trace (.init τ flags numCpuCores) before)
            ((host τ).run (.init τ flags numCpuCores) before)) ↔
      (host τ).Along ForkWorks (.init τ flags numCpuCores) events := by
  refine ⟨fun e grantId userTask availMemory now => failsCleanly_iff .., ?_⟩
  intro flags numCpuCores events
  constructor
  · rintro ⟨hsteps, -⟩
    exact Machine.along_of_invariant (P := fun _ => True) (fun _ _ _ _ => trivial)
      (fun _ _ hstep _ => hstep.forkWorks) trivial hsteps
  · intro hworks
    constructor
    · refine Machine.along_of_invariant (M := host τ) (P := fun h => h.Sound ∧ PidsReal h)
        (fun h event hevent hh => ⟨hh.1.step event, hh.2.step hh.1 hevent⟩)
        (fun h event hevent hh => hh.2.stepBlameless hevent)
        ⟨sound_init flags numCpuCores, fun p desc hdesc => ?_⟩ hworks
      cases hdesc
    · rintro before after rfl
      obtain ⟨hpids, reaped, hb⟩ :=
        forkWorks_run flags numCpuCores (Machine.along_append.1 hworks).1
      refine ⟨fun taskId p desc _ hdesc => hpids p desc hdesc, fun hw hnil => ⟨?_, ?_⟩⟩
      · by_contra hexit
        exact hb.children_ne_nil_of_not_exiting (Nat.le_refl _) hw (by simpa using hexit) hnil
      · by_contra hpermit
        exact hb.children_ne_nil (Nat.le_refl _) hw (Nat.not_lt.1 hpermit) hnil

/-- A `fork` fails, the waiter is woken, and the last client goes away. -/
def failedFork : List (HostEvent Unit) :=
  [.tryQueueTask 7 () 10 (-1) 0, .waiterProc, .waiterProc, .waiterProc, .freeTask 1]

/-- **A failed `fork` is taken for a started compile**: `TryQueueTask` returns an id, the waiter is
in `wait` without a child, and `KillTask` signals the pid `-1`. -/
theorem failed_fork_queued :
    ¬FailsCleanly (Host.init Unit (sampleFlags 1) 8).executor
        (tryQueueTask (Host.init Unit (sampleFlags 1) 8).executor 7 () 10 (-1) 0) ∧
      (let h := (host Unit).run (.init Unit (sampleFlags 1) 8) failedFork
      h.waiter = .waiting ∧ h.children = [] ∧ h.executor.exiting = false ∧
        ((host Unit).out h (.killTask 0)).sent = [⟨0, -1⟩]) := by
  refine ⟨fun hclean => ?_, by decide⟩
  exact absurd hclean.1 (by decide)

end Cloud
