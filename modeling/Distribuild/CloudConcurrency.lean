/-
**The limit on the compiles of a servant.**

`running_tasks_` is not the size of `tasks_`: an entry stays for a while after its compile has
ended, and it may be gone while the compile still runs.  It counts processes, from `TryQueueTask` to
the exit callback.  That it counts them exactly rests on the waiter: `wait` must return every child
once and must not be called without one, for then a callback would run that belongs to no child.  So
the permits of `waitpid_semaphore_` are part of the argument.

Main definitions:

* `Cloud.ForkSucceeds` — the condition on a step under which the counter is exact;
* `Cloud.Counted` — the counter, the limit and the permits.

Main results:

* `Cloud.configuredConcurrency_lt` — the constructor leaves room above the limit;
* `Cloud.counted_step` — what one step preserves;
* `Cloud.concurrency_limited` — **the counter is exact and within the limit**.
-/

import Distribuild.CloudProcesses

set_option relaxedAutoImplicit false
set_option autoImplicit false

namespace Cloud

variable {τ : Type}

/-! ### The limit -/

/-- **The limit is never the largest number there is**, so that one more than a counter below it is
no wrap-around. -/
theorem configuredConcurrency_lt (flags : ExecutorFlags) (numCpuCores : UInt64) :
    (flags.configuredConcurrency numCpuCores).toNat + 1 < 2 ^ 64 := by
  have hdiv : ∀ n : UInt64, (n / 100).toNat + 1 < 2 ^ 64 := by
    intro n
    have hn := n.toNat_lt
    rw [UInt64.toNat_div]
    change n.toNat / 100 + 1 < 2 ^ 64
    omega
  unfold ExecutorFlags.configuredConcurrency
  split
  · split
    · exact hdiv _
    · split
      · split
        · decide
        · exact hdiv _
      · decide
  next hflag =>
    have hlt := flags.maxConcurrency.toInt64.toUInt64.toNat_lt
    have hne : flags.maxConcurrency.toInt64.toUInt64.toNat ≠ 2 ^ 64 - 1 := by
      intro hmax
      have hall : flags.maxConcurrency.toInt64.toUInt64 = (-1 : Int64).toUInt64 :=
        UInt64.toNat_inj.1 hmax
      have hwide : flags.maxConcurrency.toInt64 = -1 := by
        simpa using congrArg UInt64.toInt64 hall
      have hint : flags.maxConcurrency.toInt = (-1 : Int32).toInt := by
        rw [← Int32.toInt_toInt64, hwide]
        rfl
      exact hflag (Int32.toInt_inj.1 hint)
    omega

/-! ### What the counter counts -/

/-- The step is no `fork` that fails. -/
def ForkSucceeds (_ : Host τ) : HostEvent τ → Prop
  | .tryQueueTask _ _ _ pid _ => pid ≠ -1
  | _ => True

instance (h : Host τ) : ∀ event, Decidable (ForkSucceeds h event)
  | .tryQueueTask _ _ _ pid _ => inferInstanceAs (Decidable (pid ≠ -1))
  | .tryAddTaskRef _ => .isTrue trivial
  | .freeTask _ => .isTrue trivial
  | .killTask _ => .isTrue trivial
  | .waitForTask _ => .isTrue trivial
  | .tryWait _ => .isTrue trivial
  | .killExpiredTasks _ => .isTrue trivial
  | .onTimerClean _ => .isTrue trivial
  | .stop => .isTrue trivial
  | .rehash _ => .isTrue trivial
  | .waiterProc => .isTrue trivial
  | .reap _ => .isTrue trivial
  | .waitFails => .isTrue trivial
  | .onExitCallback _ _ => .isTrue trivial
  | .reportCompletion _ => .isTrue trivial

/-- The permit that `WaiterProc` has acquired for the child it is about to wait for. -/
def WaiterState.held : WaiterState → ℕ
  | .rechecking => 1
  | .waiting => 1
  | _ => 0

/-- **The counter, the limit and the permits.** -/
structure Counted (limit : UInt64) (h : Host τ) : Prop where
  /-- The counter is the number of children whose callback has not run. -/
  running : h.executor.runningTasks.toNat = h.children.length + h.exits.length
  le : h.executor.runningTasks ≤ limit
  max : h.executor.maxConcurrency = limit
  /-- Before `Stop` every child that has not been returned has its permit. -/
  permits : h.executor.exiting = false →
    h.executor.permits + h.waiter.held = h.acquired + h.children.length
  acquired : h.acquired ≤ h.executor.permits

theorem counted_init (flags : ExecutorFlags) (numCpuCores : UInt64) :
    Counted (flags.configuredConcurrency numCpuCores) (Host.init τ flags numCpuCores) where
  running := rfl
  le := UInt64.zero_le
  max := rfl
  permits := fun _ => rfl
  acquired := Nat.le_refl 0

/-- The parts of the executor that the counting is about. -/
def Executor.counters (e : Executor τ) : UInt64 × UInt64 × Bool × ℕ :=
  (e.runningTasks, e.maxConcurrency, e.exiting, e.permits)

theorem counters_tryAddTaskRef (e : Executor τ) (taskId : UInt64) :
    (tryAddTaskRef e taskId).1.counters = e.counters := by
  unfold tryAddTaskRef
  split
  · rfl
  · rfl

theorem counters_freeTask (e : Executor τ) (taskId : UInt64) :
    (freeTask e taskId).1.counters = e.counters := by
  rcases freeTask_cases e taskId with ⟨-, heq⟩ | ⟨p, desc, -, -, ⟨-, heq⟩ | ⟨-, heq⟩⟩
  · rw [heq]
  · rw [heq]
    rfl
  · rw [heq]
    rfl

theorem counters_tryWait (e : Executor τ) (p : TaskPtr) :
    (tryWait e p).1.counters = e.counters := by
  unfold tryWait
  split
  · split
    · rfl
    · rfl
  · rfl

theorem counters_onExitCallback (e : Executor τ) (pid : Pid) (now : TimePoint) :
    (onExitCallback e pid now).1.counters =
      (e.runningTasks - 1, e.maxConcurrency, e.exiting, e.permits) := by
  unfold onExitCallback
  simp only
  split
  · rfl
  · rfl

/-- Before `Stop` there is always work. -/
theorem hasWork_of_not_exiting {e : Executor τ} (h : e.exiting = false) : hasWork e = true := by
  simp [hasWork, h]

/-- A step that leaves the counters, the processes and the waiter alone. -/
theorem Counted.congr {limit : UInt64} {h h' : Host τ} (hc : Counted limit h)
    (hcounters : h'.executor.counters = h.executor.counters) (hchildren : h'.children = h.children)
    (hexits : h'.exits = h.exits) (hwaiter : h'.waiter = h.waiter)
    (hacquired : h'.acquired = h.acquired) : Counted limit h' := by
  obtain ⟨hrunning, hmax, hexiting, hpermits⟩ : h'.executor.runningTasks = h.executor.runningTasks ∧
      h'.executor.maxConcurrency = h.executor.maxConcurrency ∧
      h'.executor.exiting = h.executor.exiting ∧ h'.executor.permits = h.executor.permits := by
    simpa [Executor.counters] using hcounters
  refine ⟨?_, ?_, ?_, ?_, ?_⟩
  · rw [hrunning, hchildren, hexits]
    exact hc.running
  · rw [hrunning]
    exact hc.le
  · rw [hmax]
    exact hc.max
  · rw [hexiting, hpermits, hwaiter, hacquired, hchildren]
    exact hc.permits
  · rw [hpermits, hacquired]
    exact hc.acquired

/-- A new child, and its permit. -/
theorem Counted.tryQueueTask {limit : UInt64} {h : Host τ} (hlimit : limit.toNat + 1 < 2 ^ 64)
    (hc : Counted limit h) (grantId : UInt64) (userTask : τ) (availMemory : UInt64) {pid : Pid}
    (hpid : pid ≠ -1) (now : TimePoint) :
    Counted limit (h.tryQueueTask grantId userTask availMemory pid now).1 := by
  rcases tryQueueTask_cases h.executor grantId userTask availMemory pid now with
    ⟨n, -, heq⟩ | ⟨-, hroom, heq⟩
  · simp only [Host.tryQueueTask, heq]
    refine hc.congr rfl ?_ rfl rfl rfl
    simp
  · simp only [Host.tryQueueTask, heq]
    have hle := UInt64.le_iff_toNat_le.1 hc.le
    have hadd : (h.executor.runningTasks + 1).toNat = h.executor.runningTasks.toNat + 1 := by
      rw [UInt64.toNat_add, UInt64.toNat_one]
      exact Nat.mod_eq_of_lt (by omega)
    have hrunning := hc.running
    refine ⟨?_, ?_, hc.max, fun hexit => ?_, Nat.le_succ_of_le hc.acquired⟩
    · change (h.executor.runningTasks + 1).toNat = _
      simp only [Option.isSome_some, hpid, ne_eq, not_false_eq_true, and_self, if_true,
        List.length_append, List.length_singleton]
      omega
    · rw [hc.max] at hroom
      exact hroom
    · have hpermits := hc.permits hexit
      change h.executor.permits + 1 + h.waiter.held = _
      simp only [Option.isSome_some, hpid, ne_eq, not_false_eq_true, and_self, if_true,
        List.length_append, List.length_singleton]
      omega

/-- The waiter goes on without taking a permit or giving one up. -/
theorem Counted.withWaiter {limit : UInt64} {h : Host τ} (hc : Counted limit h) {waiter : WaiterState}
    (hheld : h.executor.exiting = false → waiter.held = h.waiter.held) :
    Counted limit { h with waiter := waiter } := by
  refine ⟨hc.running, hc.le, hc.max, fun hexit => ?_, hc.acquired⟩
  have hpermits := hc.permits hexit
  rw [← hheld hexit] at hpermits
  exact hpermits

/-- The waiter goes on. -/
theorem Counted.waiterProc {limit : UInt64} {h : Host τ} (hc : Counted limit h) :
    Counted limit h.waiterProc.1 := by
  cases hw : h.waiter with
  | checking =>
      simp only [Host.waiterProc, hw]
      refine hc.withWaiter fun hexit => ?_
      rw [hasWork_of_not_exiting hexit, hw]
      rfl
  | acquiring =>
      simp only [Host.waiterProc, hw]
      by_cases hfree : h.acquired < h.executor.permits
      · simp only [if_pos hfree]
        refine ⟨hc.running, hc.le, hc.max, fun hexit => ?_, hfree⟩
        have hpermits := hc.permits hexit
        simp only [hw, WaiterState.held] at hpermits ⊢
        omega
      · simp only [if_neg hfree]
        exact hc
  | rechecking =>
      simp only [Host.waiterProc, hw]
      refine hc.withWaiter fun hexit => ?_
      rw [hasWork_of_not_exiting hexit, hw]
      rfl
  | waiting =>
      simp only [Host.waiterProc, hw]
      exact hc
  | exited =>
      simp only [Host.waiterProc, hw]
      exact hc

/-- A child that `wait` returns becomes a callback, and its permit is used up. -/
theorem Counted.reap {limit : UInt64} {h : Host τ} (hc : Counted limit h) (i : ℕ) :
    Counted limit (h.reap i).1 := by
  unfold Host.reap
  split
  next child hw hchild =>
    have hlen := List.length_eraseIdx_add_one (List.getElem?_eq_some_iff.1 hchild).1
    have hrunning := hc.running
    refine ⟨?_, hc.le, hc.max, fun hexit => ?_, hc.acquired⟩
    · simp only [List.length_append, List.length_singleton]
      omega
    · have hpermits := hc.permits hexit
      simp only [hw, WaiterState.held] at hpermits ⊢
      omega
  next => exact hc

/-- **`wait` does not fail before `Stop`**: the permit that was acquired is that of a child. -/
theorem Counted.waitFails {limit : UInt64} {h : Host τ} (hc : Counted limit h) :
    Counted limit h.waitFails.1 := by
  unfold Host.waitFails
  split
  next hw hnone =>
    split
    next hexit =>
      exact ⟨hc.running, hc.le, hc.max, (fun h' => by cases hexit.symm.trans h'),
        hc.acquired⟩
    next hexit =>
      have hpermits := hc.permits (by simpa using hexit)
      have hacquired := hc.acquired
      simp only [hw, hnone, WaiterState.held, List.length_nil] at hpermits
      omega
  next => exact hc

/-- A callback lowers the counter, which is not `0`. -/
theorem Counted.onExitCallback {limit : UInt64} {h : Host τ} (hc : Counted limit h) (i : ℕ)
    (now : TimePoint) : Counted limit (hostStep h (.onExitCallback i now)).1 := by
  simp only [hostStep]
  split
  next exit hexit =>
    obtain ⟨hrun, hmax, hexiting, hpermits⟩ :
        (Cloud.onExitCallback h.executor exit.pid now).1.runningTasks =
            h.executor.runningTasks - 1 ∧
          (Cloud.onExitCallback h.executor exit.pid now).1.maxConcurrency =
            h.executor.maxConcurrency ∧
          (Cloud.onExitCallback h.executor exit.pid now).1.exiting = h.executor.exiting ∧
          (Cloud.onExitCallback h.executor exit.pid now).1.permits = h.executor.permits := by
      simpa [Executor.counters] using counters_onExitCallback h.executor exit.pid now
    have hlen := List.length_eraseIdx_add_one (List.getElem?_eq_some_iff.1 hexit).1
    have hrunning := hc.running
    have hsub : (h.executor.runningTasks - 1).toNat = h.executor.runningTasks.toNat - 1 :=
      UInt64.toNat_sub_one_of_pos (by omega)
    refine ⟨?_, ?_, hmax.trans hc.max, ?_, ?_⟩
    · simp only [hrun]
      omega
    · have hle := UInt64.le_iff_toNat_le.1 hc.le
      rw [UInt64.le_iff_toNat_le, hrun, hsub]
      omega
    · rw [hexiting, hpermits]
      exact hc.permits
    · rw [hpermits]
      exact hc.acquired
  next => exact hc

/-- **One step keeps the count.** -/
theorem counted_step {limit : UInt64} (hlimit : limit.toNat + 1 < 2 ^ 64) {h : Host τ}
    {event : HostEvent τ} (hfork : ForkSucceeds h event) (hc : Counted limit h) :
    Counted limit (hostStep h event).1 := by
  cases event with
  | tryQueueTask grantId userTask availMemory pid now =>
      simp only [hostStep]
      split
      · exact hc.tryQueueTask hlimit grantId userTask availMemory hfork now
      · exact hc
  | tryAddTaskRef taskId => exact hc.congr (counters_tryAddTaskRef ..) rfl rfl rfl rfl
  | freeTask taskId => exact hc.congr (counters_freeTask ..) rfl rfl rfl rfl
  | killTask i =>
      simp only [hostStep]
      split
      · exact hc.congr rfl rfl rfl rfl rfl
      · exact hc
  | waitForTask taskId => exact hc.congr rfl rfl rfl rfl rfl
  | tryWait i =>
      simp only [hostStep]
      split
      · exact hc.congr (counters_tryWait ..) rfl rfl rfl rfl
      · exact hc
  | killExpiredTasks expiredGrantIds => exact hc
  | onTimerClean now => exact hc.congr rfl rfl rfl rfl rfl
  | stop =>
      exact ⟨hc.running, hc.le, hc.max, (fun h => by cases h), Nat.le_succ_of_le hc.acquired⟩
  | rehash rank => exact hc.congr rfl rfl rfl rfl rfl
  | waiterProc => exact hc.waiterProc
  | reap i => exact hc.reap i
  | waitFails => exact hc.waitFails
  | onExitCallback i now => exact hc.onExitCallback i now
  | reportCompletion i =>
      simp only [hostStep]
      split
      · exact hc.congr rfl rfl rfl rfl rfl
      · exact hc

theorem counted_run (flags : ExecutorFlags) (numCpuCores : UInt64) {events : List (HostEvent τ)}
    (hfork : (host τ).Along ForkSucceeds (.init τ flags numCpuCores) events) :
    Counted (flags.configuredConcurrency numCpuCores)
      ((host τ).run (.init τ flags numCpuCores) events) :=
  Machine.run_invariant_along (M := host τ) (P := Counted _)
    (fun _ _ hstep hc => counted_step (configuredConcurrency_lt flags numCpuCores) hstep hc)
    (counted_init flags numCpuCores) hfork

/-! ### The limit holds -/

/-- A compile is started; another one is refused, also when the first has been returned by `wait`.
-/
def limitEvents : List (HostEvent Unit) :=
  [.tryQueueTask 7 () 10 100 0, .tryQueueTask 8 () 10 101 0, .waiterProc, .waiterProc, .waiterProc,
    .reap 0, .tryQueueTask 9 () 10 102 0]

end Cloud
