/-
**What a grant promises.**

A grant goes to a registered servant that has the compiler of the task, accepts tasks, has memory
left and runs no more tasks than its concurrency afterwards; and whenever such a servant is free, a
request is granted at once.  Heartbeats may lower the concurrency of a servant between two grants,
so over a whole run its counter is bounded by the largest concurrency it has ever reported, not by
the last one.

The second half is about the number that the filter for free servants compares with.
`AvailableTasks` subtracts the scheduler's own tasks from the load of the machine and the rest from
its cores, and means to cut both differences off at `0`.  It does so with `std::max<size_t>(…, 0)`
after the subtraction, where it has no effect any more: the differences have already wrapped
around.  The module says exactly for which servants the result is the intended one all the same.

Main definitions:

* `Scheduler.largestConcurrency` — the largest concurrency a servant object has reported;
* `Scheduler.Capped` — the counters are below given bounds;
* `Scheduler.intendedTasks` — what `AvailableTasks` is meant to compute;
* `Scheduler.LoadFits` — when it does.

Main results:

* `Scheduler.capped_run` — the counters of every run are capped;
* `Scheduler.grant_sound_and_complete` — **grants are sound and complete**;
* `Scheduler.availableTasks_exact_iff` — **when the load of a machine is respected**.
-/

import Distribuild.SchedulerAccounting

set_option relaxedAutoImplicit false
set_option autoImplicit false

namespace Scheduler

open Relation (ReflTransGen)

/-! ### What a servant has reported -/

/-- The concurrency that a heartbeat wrote into the object `p`. -/
def reportedConcurrency (p : ServantPtr) : Op × Output → Option UInt64
  | (.keepServantAlive servantInfo _ _, .wrote q) =>
      if q = p then some servantInfo.concurrency else none
  | _ => none

/-- The largest concurrency that the object `p` has reported in a history.  An object is made when
its servant is registered, so this is the history of one registration. -/
def largestConcurrency (tr : List (Op × Output)) (p : ServantPtr) : UInt64 :=
  (tr.filterMap (reportedConcurrency p)).foldl max 0

theorem largestConcurrency_concat (tr : List (Op × Output)) (e : Op × Output) (p : ServantPtr) :
    largestConcurrency (tr ++ [e]) p =
      (reportedConcurrency p e).elim (largestConcurrency tr p) (max (largestConcurrency tr p)) := by
  rw [largestConcurrency, List.filterMap_append, List.foldl_append]
  cases h : reportedConcurrency p e <;> simp [h, largestConcurrency]

/-- A longer history has a larger maximum. -/
theorem largestConcurrency_le_concat (tr : List (Op × Output)) (e : Op × Output)
    (p : ServantPtr) : largestConcurrency tr p ≤ largestConcurrency (tr ++ [e]) p := by
  rw [largestConcurrency_concat]
  cases h : reportedConcurrency p e with
  | none => exact UInt64.le_refl _
  | some c => exact UInt64.le_max_left ..

/-! ### Capped counters -/

/-- Every counter is at most `bound`, and so is the concurrency of every registered servant. -/
structure Capped (bound : ServantPtr → UInt64) (s : TaskDispatcher) : Prop where
  running : ∀ p, (s.heap p).runningTasks ≤ bound p
  reported : ∀ p ∈ s.servants, (s.infoOf p).concurrency ≤ bound p

theorem Capped.mono {bound bound' : ServantPtr → UInt64} {s : TaskDispatcher}
    (h : Capped bound s) (hle : ∀ p, bound p ≤ bound' p) : Capped bound' s where
  running := fun p => UInt64.le_trans (h.running p) (hle p)
  reported := fun p hp => UInt64.le_trans (h.reported p hp) (hle p)

/-- A quiet move raises no counter and writes no information. -/
theorem capped_quiet {bound : ServantPtr → UInt64} {s t : TaskDispatcher} (hmove : Quiet s t)
    (hcov : Covered s) (h : Capped bound s) : Capped bound t := by
  cases hmove with
  | release htask =>
      constructor
      · intro p
        obtain ⟨d, -, hrun⟩ := releaseTask_counts hcov htask p
        have hle := UInt64.le_iff_toNat_le.1 (h.running p)
        rw [UInt64.le_iff_toNat_le]
        omega
      · intro p hp
        rw [releaseTask_infoOf]
        exact h.reported p hp
  | touch tasks htasks => exact ⟨h.running, h.reported⟩
  | drop now hnow => exact ⟨h.running, fun p hp => h.reported p (List.mem_of_mem_filter hp)⟩
  | book tasks hfind hperm => exact ⟨h.running, h.reported⟩
  | rebook locationRank => exact ⟨h.running, h.reported⟩

/-- A free servant that is given one more task still has at most as many as its concurrency. -/
theorem runningTasks_le_concurrency_of_free {s : TaskDispatcher} {p : ServantPtr}
    {taskInfo : TaskInfo} (hp : p ∈ freeServantsFor s taskInfo) (expiresIn : Duration)
    (prefetching : Bool) (now : TimePoint) :
    ((startNewTask s p taskInfo expiresIn prefetching now).1.heap p).runningTasks ≤
      (s.infoOf p).concurrency := by
  have hlt := lt_concurrency_of_isFree (mem_freeServantsFor.1 hp).2.2
  have hcount := startNewTask_runningTasks_toNat hp expiresIn prefetching now p
  rw [if_pos rfl] at hcount
  rw [UInt64.le_iff_toNat_le, hcount]
  exact UInt64.lt_iff_toNat_lt.1 hlt

theorem capped_startNewTask {bound : ServantPtr → UInt64} {s : TaskDispatcher}
    (h : Capped bound s) {p : ServantPtr} {taskInfo : TaskInfo}
    (hp : p ∈ freeServantsFor s taskInfo) (expiresIn : Duration) (prefetching : Bool)
    (now : TimePoint) : Capped bound (startNewTask s p taskInfo expiresIn prefetching now).1 := by
  constructor
  · intro q
    by_cases hq : p = q
    · subst hq
      exact UInt64.le_trans (runningTasks_le_concurrency_of_free hp expiresIn prefetching now)
        (h.reported p (mem_freeServantsFor.1 hp).1)
    · rw [startNewTask_runningTasks, if_neg hq]
      exact h.running q
  · intro q hq
    rw [startNewTask_infoOf]
    exact h.reported q hq

/-- A heartbeat keeps the counters capped if the bound takes its report in. -/
theorem capped_keepServantAlive {bound : ServantPtr → UInt64} {s : TaskDispatcher}
    (h : Capped bound s) (servantInfo : ServantInfo) (expireTime : Duration) (now : TimePoint)
    (hbound : servantInfo.concurrency ≤ bound (keepServantAlive s servantInfo expireTime now).2) :
    Capped bound (keepServantAlive s servantInfo expireTime now).1 := by
  constructor
  · intro q
    by_cases hq : q = (keepServantAlive s servantInfo expireTime now).2
    · rcases keepServantAlive_written s servantInfo expireTime now with
        ⟨-, hrun⟩ | ⟨-, -, hrun⟩
      · rw [hq, hrun]
        exact h.running _
      · rw [hq, hrun]
        exact UInt64.zero_le
    · rw [keepServantAlive_of_ne hq]
      exact h.running q
  · intro q hq
    by_cases hqw : q = (keepServantAlive s servantInfo expireTime now).2
    · rw [hqw, keepServantAlive_infoOf]
      exact hbound
    · have hmem : q ∈ s.servants := (mem_keepServantAlive.1 hq).resolve_left hqw
      rw [TaskDispatcher.infoOf, keepServantAlive_of_ne hqw]
      exact h.reported q hmem

/-- **One operation keeps the counters below what has been reported.** -/
theorem capped_exec {tr : List (Op × Output)} {s : TaskDispatcher} (hcov : Covered s)
    (h : Capped (largestConcurrency tr) s) (op : Op) :
    Capped (largestConcurrency (tr ++ [(op, (exec s op).2)])) (exec s op).1 := by
  have hmono := h.mono (largestConcurrency_le_concat tr (op, (exec s op).2))
  rcases exec_cases s op with ⟨taskInfo, expiresIn, prefetching, now, p, hp, -, hexec⟩ |
    ⟨servantInfo, expireTime, now, rfl⟩ | ⟨-, hquiet⟩
  · rw [hexec] at hmono ⊢
    exact capped_startNewTask hmono hp expiresIn prefetching now
  · refine capped_keepServantAlive hmono servantInfo expireTime now ?_
    rw [largestConcurrency_concat]
    simp only [exec, reportedConcurrency, Option.elim]
    exact UInt64.le_max_right ..
  · refine (quiet_invariant (P := fun t => Covered t ∧ Capped _ t) (fun t t' hmove ht => ?_) hquiet
      ⟨hcov, hmono⟩).2
    exact ⟨covered_quiet hmove ht.1, capped_quiet hmove ht.1 ht.2⟩

/-- The counters of every run are at most the largest concurrency reported. -/
theorem capped_run (minMemory : UInt64) (ops : List Op) :
    Capped (largestConcurrency (dispatcher.trace (.init minMemory) ops))
      (dispatcher.run (.init minMemory) ops) := by
  refine (Machine.trace_invariant (M := dispatcher)
    (P := fun tr s => Registered s ∧ Covered s ∧ Capped (largestConcurrency tr) s)
    ⟨registered_init minMemory, covered_init minMemory, ?_⟩ (fun tr s op h => ?_) ops).2.2
  · constructor
    · intro p
      exact UInt64.le_refl _
    · intro p hp
      cases hp
  · obtain ⟨hreg, hcov, hcap⟩ := h
    exact ⟨registered_exec hreg op, covered_exec hreg hcov op, capped_exec hcov hcap op⟩

/-! ### Grants -/

/-- **A grant is sound.**  The picked servant is registered, has the compiler, accepts tasks, is
above the memory floor and runs at most as many tasks as its concurrency afterwards. -/
theorem grant_sound {s s' : TaskDispatcher} {taskInfo : TaskInfo} {expiresIn : Duration}
    {prefetching : Bool} {now : TimePoint} {allocation : TaskAllocation} {p : ServantPtr}
    (h : waitForStartingNewTask s taskInfo expiresIn prefetching now =
      (s', .granted allocation p)) :
    p ∈ freeServantsFor s taskInfo ∧ allocation.servantLocation = s.locationOf p ∧
      s'.infoOf p = s.infoOf p ∧ (s'.heap p).runningTasks ≤ (s.infoOf p).concurrency := by
  rcases waitForStartingNewTask_cases s taskInfo expiresIn prefetching now with
    ⟨-, heq⟩ | ⟨-, -, heq⟩ | ⟨q, hq, -, heq⟩
  · rw [heq] at h
    cases h
  · rw [heq] at h
    cases h
  · rw [heq] at h
    cases h
    have hloc : (startNewTask s p taskInfo expiresIn prefetching now).2.servantLocation =
        s.locationOf p :=
      modifyServant_field (fun servant => servant.servantInfo.observedLocation) s p p rfl
    exact ⟨hq, hloc, startNewTask_infoOf .., runningTasks_le_concurrency_of_free hq ..⟩

/-- **A grant is complete.**  As soon as one servant is free for the request, one of those that are
is picked and the request is granted at once. -/
theorem grant_complete {s : TaskDispatcher} {taskInfo : TaskInfo}
    (h : freeServantsFor s taskInfo ≠ []) (expiresIn : Duration) (prefetching : Bool)
    (now : TimePoint) :
    ∃ q ∈ freeServantsFor s taskInfo,
      unsafePickUpFreeServant s (freeServantsFor s taskInfo) taskInfo.requesterIp =
        (some q, true) ∧
      ∃ s' allocation, waitForStartingNewTask s taskInfo expiresIn prefetching now =
        (s', .granted allocation q) := by
  rcases waitForStartingNewTask_cases s taskInfo expiresIn prefetching now with
    ⟨henv, -⟩ | ⟨-, hnone, -⟩ | ⟨q, hq, hpick, heq⟩
  · rw [freeServantsFor, henv] at h
    exact absurd rfl h
  · exact absurd hnone h
  · exact ⟨q, hq, hpick, _, _, heq⟩

/-- **Grants are sound and complete**, in every reachable state and for every request; and no
servant ever runs more tasks than the largest concurrency it has reported. -/
theorem grant_sound_and_complete (minMemory : UInt64) (ops : List Op) :
    let s := dispatcher.run (.init minMemory) ops
    (∀ taskInfo expiresIn prefetching now s' allocation p,
      waitForStartingNewTask s taskInfo expiresIn prefetching now =
          (s', .granted allocation p) →
        p ∈ s.servants ∧ allocation.servantLocation = s.locationOf p ∧
        (∃ env ∈ (s.infoOf p).envDecs, env.compilerDigest = taskInfo.envDesc.compilerDigest) ∧
        0 < (s.infoOf p).concurrency ∧
        ((s.infoOf p).totalMemoryInBytes = 0 ∨
          s.minMemoryForNewTask ≤ (s.infoOf p).availMemoryInBytes) ∧
        (s'.heap p).runningTasks ≤ (s'.infoOf p).concurrency) ∧
    (∀ taskInfo expiresIn prefetching now,
      (∃ p ∈ unsafeGetServantsHasEnv s taskInfo,
        (s.heap p).runningTasks < availableTasks s.minMemoryForNewTask (s.heap p)) →
      ∃ q ∈ freeServantsFor s taskInfo,
        unsafePickUpFreeServant s (freeServantsFor s taskInfo) taskInfo.requesterIp =
          (some q, true) ∧
        ∃ s' allocation, waitForStartingNewTask s taskInfo expiresIn prefetching now =
          (s', .granted allocation q)) ∧
    ∀ p ∈ s.servants, (s.heap p).runningTasks ≤
      largestConcurrency (dispatcher.trace (.init minMemory) ops) p := by
  intro s
  refine ⟨?_, ?_, fun p _ => (capped_run minMemory ops).running p⟩
  · intro taskInfo expiresIn prefetching now s' allocation p hgrant
    obtain ⟨hfree, hloc, hinfo, hrun⟩ := grant_sound hgrant
    obtain ⟨hmem, henv, hidle⟩ := mem_freeServantsFor.1 hfree
    obtain ⟨hdigest, hconc, -⟩ := hasEnv_iff.1 henv
    rw [hinfo]
    exact ⟨hmem, hloc, hdigest, hconc, memory_of_isFree hidle, hrun⟩
  · intro taskInfo expiresIn prefetching now hsome
    obtain ⟨p, hp, hlt⟩ := hsome
    obtain ⟨hmem, henv⟩ := mem_unsafeGetServantsHasEnv.1 hp
    have hfree : p ∈ freeServantsFor s taskInfo :=
      mem_freeServantsFor.2 ⟨hmem, henv, isFree_iff.2 hlt⟩
    exact grant_complete (List.ne_nil_of_mem hfree) expiresIn prefetching now

/-- With one task running on a servant with four slots, a second request is granted at once. -/
theorem grant_sound_and_complete_second :
    let s := dispatcher.run (.init 0) [sampleRegister, sampleGrant]
    (∃ p ∈ unsafeGetServantsHasEnv s sampleTask,
      (s.heap p).runningTasks < availableTasks s.minMemoryForNewTask (s.heap p)) ∧
    ∃ q ∈ freeServantsFor s sampleTask, ∃ s' allocation,
      waitForStartingNewTask s sampleTask (sec 10) false 0 = (s', .granted allocation q) := by
  intro s
  have hfree : ∃ p ∈ unsafeGetServantsHasEnv s sampleTask,
      (s.heap p).runningTasks < availableTasks s.minMemoryForNewTask (s.heap p) :=
    ⟨0, by decide, by decide⟩
  obtain ⟨q, hq, -, hgrant⟩ :=
    (grant_sound_and_complete 0 [sampleRegister, sampleGrant]).2.1 sampleTask (sec 10) false 0 hfree
  exact ⟨hfree, q, hq, hgrant⟩

/-! ### The load of a machine -/

/-- The load of a machine that does not come from the scheduler: what is left of `current_load`
without the scheduler's own tasks. -/
def outsideLoad (servant : Servant) : ℕ :=
  servant.servantInfo.currentLoad.toNat - servant.runningTasks.toNat

/-- What `AvailableTasks` is meant to compute above the memory floor: the cores that the load from
outside leaves, and at most the concurrency, with differences that end at `0`. -/
def intendedTasks (servant : Servant) : ℕ :=
  min servant.servantInfo.concurrency.toNat
    (servant.servantInfo.numCpuCores.toNat - outsideLoad servant)

/-- The servants for which the wrapped differences of `AvailableTasks` do no harm.

Either no task is accepted anyway; or no difference is negative; or the load is below the
scheduler's own tasks, so that the cores count for too many, but the concurrency is the smaller
number both with and without the error. -/
def LoadFits (servant : Servant) : Prop :=
  servant.servantInfo.concurrency = 0 ∨
  (servant.runningTasks ≤ servant.servantInfo.currentLoad ∧
    outsideLoad servant ≤ servant.servantInfo.numCpuCores.toNat) ∨
  (servant.servantInfo.currentLoad < servant.runningTasks ∧
    servant.servantInfo.concurrency ≤ servant.servantInfo.numCpuCores ∧
    (servant.servantInfo.numCpuCores.toNat + servant.runningTasks.toNat <
        2 ^ 64 + servant.servantInfo.currentLoad.toNat ∨
      servant.servantInfo.concurrency.toNat + 2 ^ 64 + servant.servantInfo.currentLoad.toNat ≤
        servant.servantInfo.numCpuCores.toNat + servant.runningTasks.toNat))

instance (servant : Servant) : Decidable (LoadFits servant) :=
  inferInstanceAs (Decidable (_ ∨ _ ∨ _))

/-- **What `AvailableTasks` computes** above the memory floor: neither `std::max` has an effect,
and the differences are taken modulo `2 ^ 64`. -/
theorem availableTasks_toNat {minMemory : UInt64} {servant : Servant}
    (h : AboveMemoryFloor minMemory servant) :
    (availableTasks minMemory servant).toNat =
      min servant.servantInfo.concurrency.toNat
        ((servant.servantInfo.numCpuCores.toNat + servant.runningTasks.toNat + 2 ^ 64 -
          servant.servantInfo.currentLoad.toNat) % 2 ^ 64) := by
  have hmax : ∀ a : UInt64, max a 0 = a := by
    intro a
    refine UInt64.toNat_inj.1 ?_
    rw [UInt64.toNat_max, UInt64.toNat_zero, Nat.max_zero]
  have hload := servant.servantInfo.currentLoad.toNat_lt
  have hrun := servant.runningTasks.toNat_lt
  have hcores := servant.servantInfo.numCpuCores.toNat_lt
  rw [availableTasks_of_above h, hmax, hmax, UInt64.toNat_min, UInt64.toNat_sub, UInt64.toNat_sub]
  congr 1
  omega

/-- **The exact condition**: `AvailableTasks` is the intended number if and only if the load
fits. -/
theorem availableTasks_eq_intendedTasks {minMemory : UInt64} {servant : Servant}
    (h : AboveMemoryFloor minMemory servant) :
    (availableTasks minMemory servant).toNat = intendedTasks servant ↔ LoadFits servant := by
  have hload := servant.servantInfo.currentLoad.toNat_lt
  have hrun := servant.runningTasks.toNat_lt
  have hcores := servant.servantInfo.numCpuCores.toNat_lt
  have hconc := servant.servantInfo.concurrency.toNat_lt
  rw [availableTasks_toNat h, intendedTasks, LoadFits, outsideLoad, ← UInt64.toNat_inj,
    UInt64.le_iff_toNat_le, UInt64.le_iff_toNat_le, UInt64.lt_iff_toNat_lt, UInt64.toNat_zero]
  generalize servant.servantInfo.currentLoad.toNat = load at *
  generalize servant.runningTasks.toNat = running at *
  generalize servant.servantInfo.numCpuCores.toNat = cores at *
  generalize servant.servantInfo.concurrency.toNat = concurrency at *
  omega

/-- A servant with the intended number of slots is picked only if its load from outside leaves a
core. -/
theorem outsideLoad_lt_of_grant {s s' : TaskDispatcher} {taskInfo : TaskInfo}
    {expiresIn : Duration} {prefetching : Bool} {now : TimePoint} {allocation : TaskAllocation}
    {p : ServantPtr}
    (hexact : (availableTasks s.minMemoryForNewTask (s.heap p)).toNat = intendedTasks (s.heap p))
    (h : waitForStartingNewTask s taskInfo expiresIn prefetching now =
      (s', .granted allocation p)) :
    outsideLoad (s.heap p) < (s.infoOf p).numCpuCores.toNat := by
  obtain ⟨hfree, -⟩ := grant_sound h
  have hlt := UInt64.lt_iff_toNat_lt.1 (isFree_iff.1 (mem_freeServantsFor.1 hfree).2.2)
  rw [hexact, intendedTasks] at hlt
  have hpos : 0 < (s.infoOf p).numCpuCores.toNat - outsideLoad (s.heap p) :=
    Nat.lt_of_lt_of_le (Nat.zero_lt_of_lt hlt) (Nat.min_le_right ..)
  exact Nat.lt_of_sub_pos hpos

/-- **When the load of a machine is respected.**  In every reachable state and for every servant
object above the memory floor, `AvailableTasks` is the intended number and no task is granted to
it while its load from outside takes up all its cores, if and only if the load fits. -/
theorem availableTasks_exact_iff (minMemory : UInt64) (ops : List Op) (p : ServantPtr)
    (habove : AboveMemoryFloor (dispatcher.run (.init minMemory) ops).minMemoryForNewTask
      ((dispatcher.run (.init minMemory) ops).heap p)) :
    let s := dispatcher.run (.init minMemory) ops
    ((availableTasks s.minMemoryForNewTask (s.heap p)).toNat = intendedTasks (s.heap p) ∧
      ∀ taskInfo expiresIn prefetching now s' allocation,
        waitForStartingNewTask s taskInfo expiresIn prefetching now =
            (s', .granted allocation p) →
          outsideLoad (s.heap p) < (s.infoOf p).numCpuCores.toNat) ↔
      LoadFits (s.heap p) := by
  intro s
  constructor
  · intro h
    exact (availableTasks_eq_intendedTasks habove).1 h.1
  · intro hfits
    have hexact := (availableTasks_eq_intendedTasks habove).2 hfits
    refine ⟨hexact, ?_⟩
    intro taskInfo expiresIn prefetching now s' allocation hgrant
    exact outsideLoad_lt_of_grant hexact hgrant

/-- The machine of `Scheduler.sampleInfo` reports no load although it runs a task: the difference
wraps around, and the load fits because four slots are less than eight cores. -/
theorem availableTasks_exact_iff_idle :
    let s := dispatcher.run (.init 0) [sampleRegister, sampleGrant]
    LoadFits (s.heap 0) ∧
      (availableTasks s.minMemoryForNewTask (s.heap 0)).toNat = intendedTasks (s.heap 0) :=
  ⟨by decide,
    ((availableTasks_exact_iff 0 [sampleRegister, sampleGrant] 0 (by decide)).2 (by decide)).1⟩

/-- A machine with four cores and a load of ten. -/
def overloadedInfo : ServantInfo :=
  { sampleInfo with numCpuCores := 4, currentLoad := 10, concurrency := 8 }

/-- **An overloaded machine is given work.**  The load from outside is more than twice the number
of cores, `4 - 10` wraps around, all eight slots count as available, and a task is granted. -/
theorem availableTasks_overloaded :
    let s := dispatcher.run (.init 0) [.keepServantAlive overloadedInfo (sec 10) 0]
    (0 : ServantPtr) ∈ s.servants ∧ AboveMemoryFloor s.minMemoryForNewTask (s.heap 0) ∧
      (availableTasks s.minMemoryForNewTask (s.heap 0)).toNat = 8 ∧
      intendedTasks (s.heap 0) = 0 ∧
      (waitForStartingNewTask s sampleTask (sec 10) false 0).2 =
        .granted { taskId := 0, servantLocation := "10.0.0.1:8080" } 0 ∧
      ¬outsideLoad (s.heap 0) < (s.infoOf 0).numCpuCores.toNat := by
  decide

end Scheduler
