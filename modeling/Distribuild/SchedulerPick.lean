/-
**Which servant the dispatcher picks.**

`WaitForStartingNewTask` chooses a servant in four stages: the servants that have the compiler,
the free ones among them, the one on the requester's own machine set aside, and then the first of
two filtered picks that finds anything.  This module says what each stage lets through, and that
the last one cannot come back empty-handed from a list of free servants.

Main results:

* `Scheduler.hasEnv_iff`, `Scheduler.isFree_iff`, `Scheduler.mem_freeServantsFor` — the filters;
* `Scheduler.availableTasks_le_concurrency`, `Scheduler.lt_concurrency_of_isFree`,
  `Scheduler.memory_of_isFree` — a free servant is above the memory floor and below its
  concurrency;
* `Scheduler.unsafePickUpServant_mem` — a filtered pick stays in its list;
* `Scheduler.unsafePickUpFreeServant_of_free` — **a pick from a nonempty list of free servants
  succeeds**, with a servant of the list and with both of its final checks satisfied;
* `Scheduler.waitForStartingNewTask_cases` — what one look at the servants can end with.
-/

import Distribuild.SchedulerDispatcher

set_option relaxedAutoImplicit false
set_option autoImplicit false

namespace Scheduler

/-! ### The filters -/

theorem hasEnv_iff {info : ServantInfo} {taskInfo : TaskInfo} :
    hasEnv info taskInfo = true ↔
      (∃ env ∈ info.envDecs, env.compilerDigest = taskInfo.envDesc.compilerDigest) ∧
        0 < info.concurrency ∧ info.version ≤ taskInfo.minVersion := by
  simp only [hasEnv, findEnv, Bool.and_eq_true, List.any_eq_true, beq_iff_eq, Bool.not_eq_true',
    decide_eq_false_iff_not, UInt64.not_le, UInt32.not_lt, gt_iff_lt, and_assoc]

theorem isFree_iff {minMemory : UInt64} {servant : Servant} :
    isFree minMemory servant = true ↔ servant.runningTasks < availableTasks minMemory servant := by
  simp only [isFree, ge_iff_le, Bool.not_eq_true', decide_eq_false_iff_not, UInt64.not_le]

theorem mem_unsafeGetServantsHasEnv {s : TaskDispatcher} {taskInfo : TaskInfo} {p : ServantPtr} :
    p ∈ unsafeGetServantsHasEnv s taskInfo ↔
      p ∈ s.servants ∧ hasEnv (s.infoOf p) taskInfo = true :=
  List.mem_filter

theorem mem_freeServantsFor {s : TaskDispatcher} {taskInfo : TaskInfo} {p : ServantPtr} :
    p ∈ freeServantsFor s taskInfo ↔
      p ∈ s.servants ∧ hasEnv (s.infoOf p) taskInfo = true ∧
        isFree s.minMemoryForNewTask (s.heap p) = true := by
  rw [freeServantsFor, unsafeGetFreeServants, List.mem_filter, mem_unsafeGetServantsHasEnv,
    and_assoc]

/-! ### Free servants -/

/-- Above the memory floor: the branch of `AvailableTasks` that looks at the load is taken. -/
def AboveMemoryFloor (minMemory : UInt64) (servant : Servant) : Prop :=
  servant.servantInfo.totalMemoryInBytes = 0 ∨
    minMemory ≤ servant.servantInfo.availMemoryInBytes

instance (minMemory : UInt64) (servant : Servant) :
    Decidable (AboveMemoryFloor minMemory servant) :=
  inferInstanceAs (Decidable (_ ∨ _))

theorem availableTasks_of_above {minMemory : UInt64} {servant : Servant}
    (h : AboveMemoryFloor minMemory servant) :
    availableTasks minMemory servant =
      min servant.servantInfo.concurrency
        (max (servant.servantInfo.numCpuCores -
          max (servant.servantInfo.currentLoad - servant.runningTasks) 0) 0) := by
  have hnot : ¬(servant.servantInfo.totalMemoryInBytes ≠ 0 ∧
      servant.servantInfo.availMemoryInBytes < minMemory) := by
    rintro ⟨h₁, h₂⟩
    rcases h with h | h
    · exact h₁ h
    · exact absurd h₂ (UInt64.not_lt.2 h)
  rw [availableTasks, if_neg hnot]

theorem availableTasks_of_not_above {minMemory : UInt64} {servant : Servant}
    (h : ¬AboveMemoryFloor minMemory servant) :
    availableTasks minMemory servant = servant.runningTasks := by
  rw [AboveMemoryFloor, not_or, UInt64.not_le] at h
  rw [availableTasks, if_pos h]

theorem availableTasks_le_concurrency {minMemory : UInt64} {servant : Servant}
    (h : AboveMemoryFloor minMemory servant) :
    availableTasks minMemory servant ≤ servant.servantInfo.concurrency := by
  rw [availableTasks_of_above h]
  exact Std.min_le_left

/-- A free servant is above the memory floor: below it, `AvailableTasks` is the number of tasks
that already run. -/
theorem memory_of_isFree {minMemory : UInt64} {servant : Servant}
    (h : isFree minMemory servant = true) : AboveMemoryFloor minMemory servant := by
  by_contra hnot
  rw [isFree_iff, availableTasks_of_not_above hnot] at h
  exact UInt64.lt_irrefl _ h

/-- A free servant runs fewer tasks than its concurrency. -/
theorem lt_concurrency_of_isFree {minMemory : UInt64} {servant : Servant}
    (h : isFree minMemory servant = true) :
    servant.runningTasks < servant.servantInfo.concurrency :=
  UInt64.lt_of_lt_of_le (isFree_iff.1 h) (availableTasks_le_concurrency (memory_of_isFree h))

/-! ### The two-stage pick -/

/-- The loop of `UnsafePickUpServant` ends with the servant it began with or with one of the
list. -/
theorem foldl_pickUpStep_mem (s : TaskDispatcher) (filter : Servant → Bool)
    (servants : List ServantPtr) (best : ServantPtr × ℕ) :
    (servants.foldl (pickUpStep s filter) best).1 = best.1 ∨
      (servants.foldl (pickUpStep s filter) best).1 ∈ servants := by
  induction servants generalizing best with
  | nil => exact Or.inl rfl
  | cons p ps ih =>
      rw [List.foldl_cons]
      have hstep : (pickUpStep s filter best p).1 = best.1 ∨
          (pickUpStep s filter best p).1 = p := by
        unfold pickUpStep
        split
        · exact Or.inl rfl
        · split
          · exact Or.inr rfl
          · exact Or.inl rfl
      rcases ih (pickUpStep s filter best p) with h | h
      · rcases hstep with h' | h'
        · exact Or.inl (h.trans h')
        · exact Or.inr (by rw [h, h']; exact List.mem_cons_self)
      · exact Or.inr (List.mem_cons_of_mem _ h)

theorem unsafePickUpServant_mem {s : TaskDispatcher} {servants : List ServantPtr}
    {filter : Servant → Bool} {p : ServantPtr}
    (h : unsafePickUpServant s servants filter = some p) : p ∈ servants := by
  cases servants with
  | nil => simp [unsafePickUpServant] at h
  | cons q qs =>
      have hp := Option.some_inj.1 h
      rcases foldl_pickUpStep_mem s filter (q :: qs) (q, doubleMax) with hq | hq
      · rw [← hp, hq]; exact List.mem_cons_self
      · rw [← hp]; exact hq

/-- The pick is null exactly on the empty list, whatever the filter. -/
theorem unsafePickUpServant_eq_none {s : TaskDispatcher} {servants : List ServantPtr}
    {filter : Servant → Bool} : unsafePickUpServant s servants filter = none ↔ servants = [] := by
  cases servants with
  | nil => simp [unsafePickUpServant]
  | cons q qs => simp [unsafePickUpServant]

/-- **A pick from a nonempty list of free servants succeeds**, with a servant of the list, and
neither of the final checks fails. -/
theorem unsafePickUpFreeServant_of_free {s : TaskDispatcher} {freeServants : List ServantPtr}
    (hne : freeServants ≠ [])
    (hfree : ∀ p ∈ freeServants, isFree s.minMemoryForNewTask (s.heap p) = true)
    (requestorIp : String) :
    ∃ p ∈ freeServants, unsafePickUpFreeServant s freeServants requestorIp = (some p, true) := by
  unfold unsafePickUpFreeServant
  set isSelf : ServantPtr → Bool := fun p => sameIp requestorIp (s.locationOf p)
  -- both picks look at the same list, so the first already decides whether one is found
  cases hpick : unsafePickUpServant s (freeServants.eraseP isSelf) isDedicated with
  | some p =>
      exact ⟨p, List.mem_of_mem_eraseP (unsafePickUpServant_mem hpick), by simp only [hpick]⟩
  | none =>
      have hrest : freeServants.eraseP isSelf = [] := unsafePickUpServant_eq_none.1 hpick
      have hall : unsafePickUpServant s (freeServants.eraseP isSelf) (fun _ => true) = none :=
        unsafePickUpServant_eq_none.2 hrest
      cases hself : freeServants.find? isSelf with
      | none =>
          -- nothing was erased, so the remaining list is the whole list
          have herase : freeServants.eraseP isSelf = freeServants :=
            List.eraseP_of_forall_not (List.find?_eq_none.1 hself)
          exact absurd (herase ▸ hrest) hne
      | some p =>
          have hmem := List.mem_of_find?_eq_some hself
          have hlt := isFree_iff.1 (hfree p hmem)
          have hpos : availableTasks s.minMemoryForNewTask (s.heap p) ≠ 0 := by
            intro h0
            rw [h0] at hlt
            exact UInt64.not_lt_zero hlt
          refine ⟨p, hmem, ?_⟩
          simp only [hpick, hall, hpos, ne_eq, not_false_eq_true, decide_true]

/-- **What one look at the servants ends with**: no servant has the compiler, or none of those that
have it is free, or a free one is picked and the task is started on it. -/
theorem waitForStartingNewTask_cases (s : TaskDispatcher) (taskInfo : TaskInfo)
    (expiresIn : Duration) (prefetching : Bool) (now : TimePoint) :
    (unsafeGetServantsHasEnv s taskInfo = [] ∧
      waitForStartingNewTask s taskInfo expiresIn prefetching now = (s, .envNotFound)) ∨
    (unsafeGetServantsHasEnv s taskInfo ≠ [] ∧ freeServantsFor s taskInfo = [] ∧
      waitForStartingNewTask s taskInfo expiresIn prefetching now = (s, .noFreeServant)) ∨
    (∃ p ∈ freeServantsFor s taskInfo,
      unsafePickUpFreeServant s (freeServantsFor s taskInfo) taskInfo.requesterIp =
        (some p, true) ∧
      waitForStartingNewTask s taskInfo expiresIn prefetching now =
        ((startNewTask s p taskInfo expiresIn prefetching now).1,
          .granted (startNewTask s p taskInfo expiresIn prefetching now).2 p)) := by
  by_cases henv : unsafeGetServantsHasEnv s taskInfo = []
  · exact Or.inl ⟨henv, by simp [waitForStartingNewTask, henv]⟩
  by_cases hfree : freeServantsFor s taskInfo = []
  · exact Or.inr (Or.inl ⟨henv, hfree, by simp [waitForStartingNewTask, henv, hfree]⟩)
  obtain ⟨p, hp, hpick⟩ := unsafePickUpFreeServant_of_free hfree
    (fun p hp => (mem_freeServantsFor.1 hp).2.2) taskInfo.requesterIp
  exact Or.inr (Or.inr ⟨p, hp, hpick, by simp [waitForStartingNewTask, henv, hfree, hpick]⟩)

end Scheduler
