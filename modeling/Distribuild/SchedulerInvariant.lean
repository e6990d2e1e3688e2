/-
**Accounting and referential integrity of the dispatcher.**

The dispatcher keeps two records of the same fact: the table `tasks_`, in which every task names
its servant, and the counter `running_tasks` of every servant.  This module proves that they agree,
that no task refers to a servant that is gone and that locations are unique, over runs of any
length and with the operations in any order.

The counters are exact as long as no id is issued while a task still has it; this module proves
it step by step under that condition, and `Distribuild/SchedulerAccounting.lean` says when the
condition holds.

Main definitions:

* `Scheduler.Registered` — every task's servant is registered, locations are unique, keys are ids;
* `Scheduler.Covered`, `Scheduler.Balanced` — no counter is below, or every counter equals, the
  number of tasks of its servant.

Main results:

* `Scheduler.registered_exec`, `Scheduler.registered_run` — **references stay intact**;
* `Scheduler.covered_exec`, `Scheduler.covered_run` — **no counter is ever too low**;
* `Scheduler.balanced_exec` — an operation keeps exact counters exact, if it does not issue an id
  that is in use.
-/

import Distribuild.SchedulerMoves

set_option relaxedAutoImplicit false
set_option autoImplicit false

namespace Scheduler

open Relation (ReflTransGen)

/-! ### Registered servants -/

/-- The references of the dispatcher are intact. -/
structure Registered (s : TaskDispatcher) : Prop where
  /-- A registered servant is an object of the heap. -/
  allocated : ∀ p ∈ s.servants, p < s.heapTop
  /-- No two servants have the same observed location. -/
  distinct : s.servants.Pairwise fun p q => s.locationOf p ≠ s.locationOf q
  /-- The servant of every task is registered. -/
  assigned : ∀ id task, s.tasks.lookup id = some task → task.servant ∈ s.servants
  /-- Every task is filed under its own id. -/
  keyed : ∀ id task, s.tasks.lookup id = some task → task.taskId = id

/-- A servant is determined by its location. -/
theorem Registered.eq_of_location {s : TaskDispatcher} (h : Registered s) {p q : ServantPtr}
    (hp : p ∈ s.servants) (hq : q ∈ s.servants) (heq : s.locationOf p = s.locationOf q) :
    p = q := by
  have hsymm : Std.Symm fun p q => s.locationOf p ≠ s.locationOf q := ⟨fun _ _ => Ne.symm⟩
  by_contra hne
  exact h.distinct.forall hp hq hne heq

/-- A registered servant is found at its location. -/
theorem Registered.findServant {s : TaskDispatcher} (h : Registered s) {p : ServantPtr}
    (hp : p ∈ s.servants) : s.findServant (s.locationOf p) = some p := by
  cases hfind : s.findServant (s.locationOf p) with
  | none => exact absurd rfl (findServant_none hfind p hp)
  | some q =>
      obtain ⟨hq, hloc⟩ := findServant_some hfind
      rw [h.eq_of_location hq hp hloc]

theorem registered_init (minMemory : UInt64) : Registered (.init minMemory) where
  allocated := by simp [TaskDispatcher.init]
  distinct := by simp [TaskDispatcher.init]
  assigned := by simp [TaskDispatcher.init]
  keyed := by simp [TaskDispatcher.init]

/-- A table of tasks with the same ids and servants in the same places. -/
theorem lookup_of_identity {tasks tasks' : Table UInt64 Task} {id : UInt64} {task : Task}
    (h : (tasks'.lookup id).map Task.identity = (tasks.lookup id).map Task.identity)
    (htask : tasks'.lookup id = some task) :
    ∃ task₀, tasks.lookup id = some task₀ ∧ task₀.taskId = task.taskId ∧
      task₀.servant = task.servant := by
  rw [htask] at h
  obtain ⟨task₀, h₀, heq⟩ := Option.map_eq_some_iff.1 h.symm
  exact ⟨task₀, h₀, congrArg Prod.fst heq, congrArg Prod.snd heq⟩

theorem registered_quiet {s t : TaskDispatcher} (hmove : Quiet s t) (h : Registered s) :
    Registered t := by
  cases hmove with
  | @release id task htask =>
      have hlook : ∀ k task', (s.tasks.erase id).lookup k = some task' →
          s.tasks.lookup k = some task' := by
        intro k task' hk
        by_cases hkid : k = id
        · rw [hkid, AList.lookup_erase] at hk
          cases hk
        · rwa [AList.lookup_erase_ne hkid] at hk
      exact
        { allocated := h.allocated
          distinct := by simpa using h.distinct
          assigned := fun k task' hk => h.assigned k task' (hlook k task' hk)
          keyed := fun k task' hk => h.keyed k task' (hlook k task' hk) }
  | touch tasks htasks =>
      refine ⟨h.allocated, h.distinct, fun id task htask => ?_, fun id task htask => ?_⟩
      · obtain ⟨task₀, h₀, -, heq⟩ := lookup_of_identity (htasks id) htask
        exact heq ▸ h.assigned id task₀ h₀
      · obtain ⟨task₀, h₀, heq, -⟩ := lookup_of_identity (htasks id) htask
        exact heq ▸ h.keyed id task₀ h₀
  | drop now hnow =>
      exact
        { allocated := fun p hp => h.allocated p (List.mem_of_mem_filter hp)
          distinct := h.distinct.filter _
          assigned := hnow
          keyed := h.keyed }
  | book tasks hfind hperm => exact ⟨h.allocated, h.distinct, h.assigned, h.keyed⟩
  | rebook locationRank => exact ⟨h.allocated, h.distinct, h.assigned, h.keyed⟩

theorem registered_startNewTask {s : TaskDispatcher} (h : Registered s) {p : ServantPtr}
    (hp : p ∈ s.servants) (taskInfo : TaskInfo) (expiresIn : Duration) (prefetching : Bool)
    (now : TimePoint) : Registered (startNewTask s p taskInfo expiresIn prefetching now).1 := by
  have hlook : ∀ id task,
      (startNewTask s p taskInfo expiresIn prefetching now).1.tasks.lookup id = some task →
        (task.servant = p ∧ task.taskId = id) ∨ s.tasks.lookup id = some task := by
    intro id task htask
    obtain ⟨new, hid, hserv, -, hnew⟩ :=
      startNewTask_lookup s p taskInfo expiresIn prefetching now id
    rw [hnew] at htask
    split at htask
    next hkey =>
      rw [← Option.some_inj.1 htask]
      exact Or.inl ⟨hserv, hid.trans hkey.symm⟩
    next => exact Or.inr htask
  refine ⟨h.allocated, ?_, fun id task htask => ?_, fun id task htask => ?_⟩
  · simpa using h.distinct
  · rcases hlook id task htask with ⟨hserv, -⟩ | hold
    · rw [hserv]; exact hp
    · exact h.assigned id task hold
  · rcases hlook id task htask with ⟨-, hkey⟩ | hold
    · exact hkey
    · exact h.keyed id task hold

theorem registered_keepServantAlive {s : TaskDispatcher} (h : Registered s)
    (servantInfo : ServantInfo) (expireTime : Duration) (now : TimePoint) :
    Registered (keepServantAlive s servantInfo expireTime now).1 := by
  unfold keepServantAlive
  cases hfind : s.findServant servantInfo.observedLocation with
  | some p =>
      -- the location of the object that is rewritten stays what it was
      have hloc : ∀ q, (s.modifyServant p fun servant =>
          { servant with servantInfo := servantInfo, expiresTp := now + expireTime }).locationOf q =
            s.locationOf q := by
        intro q
        exact modifyServant_field (fun servant => servant.servantInfo.observedLocation) s p q
          (findServant_some hfind).2.symm
      exact ⟨h.allocated, by simpa [hloc] using h.distinct, h.assigned, h.keyed⟩
  | none =>
      have hold : ∀ q ∈ s.servants, ∀ servant : Servant,
          Function.update s.heap s.heapTop servant q = s.heap q := by
        intro q hq servant
        exact Function.update_of_ne (Nat.ne_of_lt (h.allocated q hq)) ..
      refine ⟨?_, ?_, ?_, h.keyed⟩
      · intro p hp
        rcases List.mem_append.1 hp with hp | hp
        · exact Nat.lt_succ_of_lt (h.allocated p hp)
        · rw [List.mem_singleton.1 hp]
          exact Nat.lt_succ_self _
      · refine List.pairwise_append.2 ⟨?_, List.pairwise_singleton .., ?_⟩
        · refine h.distinct.imp_of_mem fun hp hq hne => ?_
          simpa only [TaskDispatcher.locationOf, TaskDispatcher.infoOf, hold _ hp, hold _ hq]
            using hne
        · intro p hp q hq
          rw [List.mem_singleton.1 hq]
          simpa only [TaskDispatcher.locationOf, TaskDispatcher.infoOf, hold p hp,
            Function.update_self] using findServant_none hfind p hp
      · intro id task htask
        exact List.mem_append_left _ (h.assigned id task htask)

/-- **One operation keeps the references intact.** -/
theorem registered_exec {s : TaskDispatcher} (h : Registered s) (op : Op) :
    Registered (exec s op).1 := by
  rcases exec_cases s op with ⟨taskInfo, expiresIn, prefetching, now, p, hp, -, hexec⟩ |
    ⟨servantInfo, expireTime, now, rfl⟩ | ⟨-, hquiet⟩
  · rw [hexec]
    exact registered_startNewTask h (mem_freeServantsFor.1 hp).1 ..
  · exact registered_keepServantAlive h ..
  · exact quiet_invariant (fun _ _ => registered_quiet) hquiet h

theorem registered_run (minMemory : UInt64) (ops : List Op) :
    Registered (dispatcher.run (.init minMemory) ops) :=
  Machine.run_invariant (M := dispatcher) (P := Registered) (fun _ op h => registered_exec h op)
    (registered_init minMemory) ops

/-! ### Counters -/

/-- No counter is below the number of tasks of its servant. -/
def Covered (s : TaskDispatcher) : Prop :=
  ∀ p, s.load p ≤ (s.heap p).runningTasks.toNat

/-- Every counter is the number of tasks of its servant. -/
def Balanced (s : TaskDispatcher) : Prop :=
  ∀ p, (s.heap p).runningTasks.toNat = s.load p

theorem load_releaseTask {s : TaskDispatcher} {id : UInt64} {task : Task}
    (h : s.tasks.lookup id = some task) (p : ServantPtr) :
    s.load p = (releaseTask s id task).load p + if task.servant = p then 1 else 0 := by
  rw [TaskDispatcher.load, TaskDispatcher.load, releaseTask_tasks, Table.tally_erase h]
  simp only [decide_eq_true_eq]

theorem runningTasks_releaseTask (s : TaskDispatcher) (id : UInt64) (task : Task)
    (p : ServantPtr) :
    ((releaseTask s id task).heap p).runningTasks =
      if task.servant = p then (s.heap p).runningTasks - 1 else (s.heap p).runningTasks := by
  rw [releaseTask_heap]
  split
  next hp => rw [hp, Function.update_self]
  next hp => rw [Function.update_of_ne (Ne.symm hp)]

/-- The counter of the servant of a task is positive. -/
theorem Covered.pos {s : TaskDispatcher} (h : Covered s) {id : UInt64} {task : Task}
    (htask : s.tasks.lookup id = some task) : 0 < (s.heap task.servant).runningTasks.toNat :=
  Nat.lt_of_lt_of_le (Table.tally_pos htask (by simp)) (h task.servant)

theorem Balanced.covered {s : TaskDispatcher} (h : Balanced s) : Covered s :=
  fun p => Nat.le_of_eq (h p).symm

/-- A release lowers the counter and the number of tasks of one servant, both by one. -/
theorem releaseTask_counts {s : TaskDispatcher} (h : Covered s) {id : UInt64} {task : Task}
    (htask : s.tasks.lookup id = some task) (p : ServantPtr) :
    ∃ d : ℕ, s.load p = (releaseTask s id task).load p + d ∧
      (s.heap p).runningTasks.toNat = ((releaseTask s id task).heap p).runningTasks.toNat + d := by
  have hpos := h.pos htask
  refine ⟨if task.servant = p then 1 else 0, load_releaseTask htask p, ?_⟩
  rw [runningTasks_releaseTask]
  split
  next hp =>
    rw [← hp, UInt64.toNat_sub_one_of_pos hpos]
    omega
  next => rfl

theorem load_touch {s : TaskDispatcher} {tasks : Table UInt64 Task}
    (h : ∀ id, (tasks.lookup id).map Task.identity = (s.tasks.lookup id).map Task.identity)
    (p : ServantPtr) : { s with tasks := tasks }.load p = s.load p := by
  refine Table.tally_eq_of_lookup fun id => ?_
  have hid := congrArg (Option.map fun i : UInt64 × ServantPtr => decide (i.2 = p)) (h id)
  rw [Option.map_map, Option.map_map] at hid
  exact hid

theorem covered_quiet {s t : TaskDispatcher} (hmove : Quiet s t) (h : Covered s) : Covered t := by
  cases hmove with
  | release htask =>
      intro p
      obtain ⟨d, h₁, h₂⟩ := releaseTask_counts h htask p
      have := h p
      omega
  | touch tasks htasks =>
      intro p
      rw [load_touch htasks]
      exact h p
  | drop now hnow => exact h
  | book tasks hfind hperm => exact h
  | rebook locationRank => exact h

theorem balanced_quiet {s t : TaskDispatcher} (hmove : Quiet s t) (h : Balanced s) :
    Balanced t := by
  cases hmove with
  | release htask =>
      intro p
      obtain ⟨d, h₁, h₂⟩ := releaseTask_counts h.covered htask p
      have := h p
      omega
  | touch tasks htasks =>
      intro p
      rw [load_touch htasks]
      exact h p
  | drop now hnow => exact h
  | book tasks hfind hperm => exact h
  | rebook locationRank => exact h

/-- A heartbeat leaves the counters and the tasks alone; a new servant starts at `0` and has no
task yet. -/
theorem keepServantAlive_counts {s : TaskDispatcher} (hreg : Registered s)
    (servantInfo : ServantInfo) (expireTime : Duration) (now : TimePoint) (p : ServantPtr) :
    (keepServantAlive s servantInfo expireTime now).1.load p = s.load p ∧
      (((keepServantAlive s servantInfo expireTime now).1.heap p).runningTasks =
          (s.heap p).runningTasks ∨
        s.load p = 0 ∧
          ((keepServantAlive s servantInfo expireTime now).1.heap p).runningTasks = 0) := by
  have hload : (keepServantAlive s servantInfo expireTime now).1.load p = s.load p := by
    rw [TaskDispatcher.load, keepServantAlive_tasks]
    rfl
  refine ⟨hload, ?_⟩
  by_cases hp : p = (keepServantAlive s servantInfo expireTime now).2
  · rcases keepServantAlive_written s servantInfo expireTime now with
      ⟨-, hrun⟩ | ⟨-, hnew, hrun⟩
    · exact Or.inl (hp ▸ hrun)
    · -- no task refers to an address that has never been used
      refine Or.inr ⟨Table.tally_eq_zero.2 fun id task htask => ?_, hp ▸ hrun⟩
      have hlt := hreg.allocated _ (hreg.assigned id task htask)
      rw [hp, hnew, decide_eq_false_iff_not]
      exact Nat.ne_of_lt hlt
  · exact Or.inl (congrArg Servant.runningTasks (keepServantAlive_of_ne hp))

/-- A grant raises the counter of the picked servant, which is free, without wrapping around. -/
theorem startNewTask_runningTasks_toNat {s : TaskDispatcher} {p : ServantPtr}
    {taskInfo : TaskInfo} (hp : p ∈ freeServantsFor s taskInfo) (expiresIn : Duration)
    (prefetching : Bool) (now : TimePoint) (q : ServantPtr) :
    ((startNewTask s p taskInfo expiresIn prefetching now).1.heap q).runningTasks.toNat =
      (s.heap q).runningTasks.toNat + if p = q then 1 else 0 := by
  rw [startNewTask_runningTasks]
  split
  next hq =>
    rw [← hq]
    exact UInt64.toNat_add_one_of_lt (lt_concurrency_of_isFree (mem_freeServantsFor.1 hp).2.2)
  next => rfl

/-- A grant under an unused id adds one task to the picked servant. -/
theorem load_startNewTask {s : TaskDispatcher} (hfresh : s.nextTaskId ∉ s.tasks) (p : ServantPtr)
    (taskInfo : TaskInfo) (expiresIn : Duration) (prefetching : Bool) (now : TimePoint)
    (q : ServantPtr) :
    (startNewTask s p taskInfo expiresIn prefetching now).1.load q =
      s.load q + if p = q then 1 else 0 := by
  obtain ⟨new, -, hserv, hins, -⟩ :=
    startNewTask_lookup s p taskInfo expiresIn prefetching now s.nextTaskId
  rw [TaskDispatcher.load, hins, Table.tally_insert hfresh]
  simp only [TaskDispatcher.load, hserv, decide_eq_true_eq]

/-- A grant under an id that is in use takes the old task from its servant. -/
theorem load_startNewTask_le (s : TaskDispatcher) (p : ServantPtr)
    (taskInfo : TaskInfo) (expiresIn : Duration) (prefetching : Bool) (now : TimePoint)
    (q : ServantPtr) :
    (startNewTask s p taskInfo expiresIn prefetching now).1.load q ≤
      s.load q + if p = q then 1 else 0 := by
  by_cases hfresh : s.nextTaskId ∈ s.tasks
  · obtain ⟨old, hold⟩ := Table.mem_iff_lookup.1 hfresh
    obtain ⟨new, -, hserv, hins, -⟩ :=
      startNewTask_lookup s p taskInfo expiresIn prefetching now s.nextTaskId
    have htally := Table.tally_insert_of_lookup (p := fun task : Task => decide (task.servant = q))
      (c := new) hold
    rw [TaskDispatcher.load, TaskDispatcher.load, hins]
    simp only [hserv, decide_eq_true_eq] at htally
    omega
  · exact Nat.le_of_eq (load_startNewTask hfresh ..)

/-- **No operation lets a counter fall below the number of tasks.** -/
theorem covered_exec {s : TaskDispatcher} (hreg : Registered s) (h : Covered s) (op : Op) :
    Covered (exec s op).1 := by
  rcases exec_cases s op with ⟨taskInfo, expiresIn, prefetching, now, p, hp, -, hexec⟩ |
    ⟨servantInfo, expireTime, now, rfl⟩ | ⟨-, hquiet⟩
  · rw [hexec]
    intro q
    rw [startNewTask_runningTasks_toNat hp]
    exact Nat.le_trans (load_startNewTask_le ..) (Nat.add_le_add_right (h q) _)
  · intro q
    obtain ⟨hload, hrun | ⟨hzero, -⟩⟩ :=
      keepServantAlive_counts hreg servantInfo expireTime now q
    · change (keepServantAlive s servantInfo expireTime now).1.load q ≤
        ((keepServantAlive s servantInfo expireTime now).1.heap q).runningTasks.toNat
      rw [hload, hrun]
      exact h q
    · change (keepServantAlive s servantInfo expireTime now).1.load q ≤ _
      rw [hload, hzero]
      exact Nat.zero_le _
  · exact quiet_invariant (fun _ _ => covered_quiet) hquiet h

/-- **An operation keeps the counters exact**, if it does not issue an id that is in use. -/
theorem balanced_exec {s : TaskDispatcher} (hreg : Registered s) (h : Balanced s) (op : Op)
    (hfresh : (∃ allocation p, (exec s op).2 = .started (.granted allocation p)) →
      s.nextTaskId ∉ s.tasks) : Balanced (exec s op).1 := by
  rcases exec_cases s op with ⟨taskInfo, expiresIn, prefetching, now, p, hp, -, hexec⟩ |
    ⟨servantInfo, expireTime, now, rfl⟩ | ⟨-, hquiet⟩
  · have hunused := hfresh ⟨_, p, by rw [hexec]⟩
    rw [hexec]
    intro q
    rw [startNewTask_runningTasks_toNat hp, load_startNewTask hunused, h q]
  · intro q
    obtain ⟨hload, hrun | ⟨hzero, hrun⟩⟩ :=
      keepServantAlive_counts hreg servantInfo expireTime now q
    · change ((keepServantAlive s servantInfo expireTime now).1.heap q).runningTasks.toNat =
        (keepServantAlive s servantInfo expireTime now).1.load q
      rw [hload, hrun]
      exact h q
    · change ((keepServantAlive s servantInfo expireTime now).1.heap q).runningTasks.toNat =
        (keepServantAlive s servantInfo expireTime now).1.load q
      rw [hload, hrun, hzero]
      rfl
  · exact quiet_invariant (fun _ _ => balanced_quiet) hquiet h

theorem covered_init (minMemory : UInt64) : Covered (.init minMemory) :=
  fun _ => Nat.zero_le _

theorem balanced_init (minMemory : UInt64) : Balanced (.init minMemory) :=
  fun _ => rfl

theorem covered_run (minMemory : UInt64) (ops : List Op) :
    Covered (dispatcher.run (.init minMemory) ops) :=
  (Machine.run_invariant (M := dispatcher) (P := fun s => Registered s ∧ Covered s)
    (fun _ op h => ⟨registered_exec h.1 op, covered_exec h.1 h.2 op⟩)
    ⟨registered_init minMemory, covered_init minMemory⟩ ops).2

end Scheduler
