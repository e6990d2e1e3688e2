/-
**What a report and a sweep leave behind.**

Two operations of the dispatcher work on whole containers at once.  `NotifyServantRunningTasks`
clears the zombies that a servant has stopped reporting, computes what the servant may run, erases
the rest from the report while scanning it, and records what is left.  `OnTimerExpiration` makes
three passes: it drops the servants that are late, frees the tasks that have lost their servant,
and marks the tasks that are late.  Both free tasks through `UnsafeFreeTask`, which returns in the
middle of its loop at the first unknown id.

That early return is never taken here.  The ids to free are collected from `tasks_` itself, each
once, so every one of them is still there when its turn comes.  This is what makes both operations
exact, and it needs nothing of the state: the results hold of every state, reachable or not, but
that a report can only be about *the* servant at a location if there is at most one.

Main definitions:

* `Scheduler.permitted`, `Scheduler.forgotten` — the tasks a servant may run, and the zombies a
  report leaves out;
* `Scheduler.Reconciled`, `Scheduler.Swept` — what a report and a sweep must leave behind.

Main results:

* `Scheduler.lookup_unsafeFreeTask_keysWhere` — freeing every task that passes a test removes
  exactly these;
* `Scheduler.unsafeFreeTask_heap_self` — freeing tasks of one servant lowers its counter by their
  number;
* `Scheduler.notify_exact` — **heartbeat reconciliation is exact**;
* `Scheduler.sweep_exact` — **the expiry sweep is exact**, and doing it twice is doing it once.
-/

import Distribuild.SchedulerHeartbeat
import Distribuild.SchedulerBookkeeper

set_option relaxedAutoImplicit false
set_option autoImplicit false

namespace Scheduler

/-! ### Freeing tasks in bulk -/

/-- **Freeing every task that passes a test** removes exactly these. -/
theorem lookup_unsafeFreeTask_keysWhere (s : TaskDispatcher) (p : Task → Bool) (id : UInt64) :
    (unsafeFreeTask s (s.tasks.keysWhere fun _ => p)).1.tasks.lookup id =
      (s.tasks.lookup id).filter fun task => !p task := by
  rw [(unsafeFreeTask_keysWhere s _).2 id]
  cases hlook : s.tasks.lookup id with
  | none => simp
  | some task =>
      have hmem : id ∈ s.tasks.keysWhere (fun _ => p) ↔ p task = true := by
        rw [Table.mem_keysWhere, hlook]
        simp
      by_cases hp : p task = true
      · rw [if_pos (hmem.2 hp)]
        simp [Option.filter, hp]
      · rw [if_neg fun h => hp (hmem.1 h)]
        simp [Option.filter, hp]

/-- Freeing known tasks of one servant, each once, lowers its counter by their number and writes
nothing else in the object. -/
theorem unsafeFreeTask_heap_self {s : TaskDispatcher} {ids : List UInt64} {p : ServantPtr}
    (hnd : ids.Nodup)
    (h : ∀ id ∈ ids, ∃ task, s.tasks.lookup id = some task ∧ task.servant = p) :
    (unsafeFreeTask s ids).1.heap p =
      { s.heap p with
        runningTasks := (s.heap p).runningTasks - UInt64.ofNat ids.length } := by
  induction ids generalizing s with
  | nil => simp [unsafeFreeTask]
  | cons id ids ih =>
      obtain ⟨task, htask, hserv⟩ := h id List.mem_cons_self
      have hnotin : id ∉ ids := (List.nodup_cons.1 hnd).1
      have hrest : ∀ k ∈ ids, ∃ task', (releaseTask s id task).tasks.lookup k = some task' ∧
          task'.servant = p := by
        intro k hk
        obtain ⟨task', hlook, hp⟩ := h k (List.mem_cons_of_mem _ hk)
        have hne : k ≠ id := fun heq => hnotin (heq ▸ hk)
        exact ⟨task', by rw [releaseTask_tasks, AList.lookup_erase_ne hne, hlook], hp⟩
      have hheap : (releaseTask s id task).heap p =
          { s.heap p with runningTasks := (s.heap p).runningTasks - 1 } := by
        rw [releaseTask_heap, hserv, Function.update_self]
      simp only [unsafeFreeTask, htask]
      rw [ih (List.nodup_cons.1 hnd).2 hrest, hheap]
      dsimp only
      rw [UInt64.sub_one_sub_ofNat, List.length_cons]

/-! ### Reports -/

/-- A task that the servant may run: one of `tasks_` that is assigned to it and is no zombie. -/
def permitted (s : TaskDispatcher) (p : ServantPtr) (id : UInt64) : Bool :=
  (s.tasks.lookup id).any fun task => task.servant == p && !task.isZombie

/-- A zombie of the servant whose id a report does not contain. -/
def forgotten (p : ServantPtr) (reported : List UInt64) (task : Task) : Bool :=
  task.servant == p && task.isZombie && !reported.contains task.taskId

/-- **What the report of the servant `p` at `location` must leave behind**, and must return. -/
structure Reconciled (s : TaskDispatcher) (p : ServantPtr) (location : String)
    (tasks : List RunningTask) (r : NotifyResult) : Prop where
  /-- The reported ids that are not permitted are returned, in the order of the report. -/
  returned : r.unknownTasks =
    (tasks.map RunningTask.taskGrantId).filter fun id => !permitted s p id
  /-- The remaining reported tasks are recorded, in the order of the report. -/
  recorded : r.dispatcher.runningTaskBookkeeper.runningTasks.lookup location =
    some (tasks.filter fun t => permitted s p t.taskGrantId)
  /-- The forgotten zombies are removed, and every other task is what it was. -/
  removed : ∀ id, r.dispatcher.tasks.lookup id =
    (s.tasks.lookup id).filter fun task =>
      !forgotten p (tasks.map RunningTask.taskGrantId) task
  /-- The counter is lowered by their number, and nothing else of the servant changes. -/
  counted : r.dispatcher.heap p =
    { s.heap p with
      runningTasks := (s.heap p).runningTasks -
        UInt64.ofNat (s.tasks.tally (forgotten p (tasks.map RunningTask.taskGrantId))) }
  /-- Where the counter covers the tasks of the servant, it does not wrap around. -/
  lowered : s.load p ≤ (s.heap p).runningTasks.toNat →
    (r.dispatcher.heap p).runningTasks.toNat +
      s.tasks.tally (forgotten p (tasks.map RunningTask.taskGrantId)) =
        (s.heap p).runningTasks.toNat
  /-- Every other servant is what it was. -/
  others : ∀ q, q ≠ p → r.dispatcher.heap q = s.heap q
  /-- So is the bookkeeping of every other location. -/
  booked : ∀ other, other ≠ location →
    r.dispatcher.runningTaskBookkeeper.runningTasks.lookup other =
      s.runningTaskBookkeeper.runningTasks.lookup other
  /-- And everything else. -/
  servants : r.dispatcher.servants = s.servants
  heapTop : r.dispatcher.heapTop = s.heapTop
  nextTaskId : r.dispatcher.nextTaskId = s.nextTaskId
  minMemory : r.dispatcher.minMemoryForNewTask = s.minMemoryForNewTask

theorem zombiesOf_eq (s : TaskDispatcher) (p : ServantPtr) (reported : List UInt64) :
    zombiesOf s p reported = s.tasks.keysWhere fun _ => forgotten p reported := rfl

/-- Clearing the zombies that a report leaves out removes these. -/
theorem lookup_unsafeClearZombies (s : TaskDispatcher) (p : ServantPtr)
    (reported : List UInt64) (id : UInt64) :
    (unsafeClearZombies s p reported).1.tasks.lookup id =
      (s.tasks.lookup id).filter fun task => !forgotten p reported task :=
  lookup_unsafeFreeTask_keysWhere s (forgotten p reported) id

theorem unsafeClearZombies_heap_self (s : TaskDispatcher) (p : ServantPtr)
    (reported : List UInt64) :
    (unsafeClearZombies s p reported).1.heap p =
      { s.heap p with
        runningTasks := (s.heap p).runningTasks -
          UInt64.ofNat (s.tasks.tally (forgotten p reported)) } := by
  rw [← Table.length_keysWhere, ← zombiesOf_eq]
  refine unsafeFreeTask_heap_self (Table.nodup_keysWhere _ _) fun id hid => ?_
  obtain ⟨task, hlook, hserv, -⟩ := mem_zombiesOf.1 hid
  exact ⟨task, hlook, hserv⟩

/-- **Clearing zombies permits nothing and forbids nothing**: no zombie was permitted before. -/
theorem contains_permittedTaskIds (s : TaskDispatcher) (p : ServantPtr) (reported : List UInt64)
    (id : UInt64) :
    (permittedTaskIds (unsafeClearZombies s p reported).1 p).contains id = permitted s p id := by
  rw [Bool.eq_iff_iff, List.contains_iff_mem, permittedTaskIds, Table.mem_keysWhere,
    lookup_unsafeClearZombies, permitted]
  cases hlook : s.tasks.lookup id with
  | none => simp
  | some task =>
      cases hz : task.isZombie with
      | true =>
          constructor
          · rintro ⟨task', hkept, hperm⟩
            obtain ⟨heq, -⟩ := Option.filter_eq_some_iff.1 hkept
            cases heq
            simp [hz] at hperm
          · intro h
            simp [hz] at h
      | false => simp [Option.filter, forgotten, hz]

/-- Fewer tasks are forgotten than the servant has. -/
theorem tally_forgotten_le (s : TaskDispatcher) (p : ServantPtr) (reported : List UInt64) :
    s.tasks.tally (forgotten p reported) ≤ s.load p := by
  refine List.countP_mono_left fun e _ hforgotten => ?_
  simp only [forgotten, Bool.and_eq_true, beq_iff_eq] at hforgotten
  exact decide_eq_true hforgotten.1.1

theorem notify_reconciled {s : TaskDispatcher} {location : String} {p : ServantPtr}
    (h : s.findServant location = some p) (tasks : List RunningTask) :
    Reconciled s p location tasks (notifyServantRunningTasks s location tasks) := by
  set reported := tasks.map RunningTask.taskGrantId with hreported
  have hstate := notify_of_some h tasks
  rw [← hreported] at hstate
  have hheap : ∀ q, (notifyServantRunningTasks s location tasks).dispatcher.heap q =
      (unsafeClearZombies s p reported).1.heap q := fun q => by rw [hstate]
  have hself := (hheap p).trans (unsafeClearZombies_heap_self s p reported)
  have hkept : ∀ {α : Type} (field : TaskDispatcher → α),
      (∀ s id task, field (releaseTask s id task) = field s) →
        field (unsafeClearZombies s p reported).1 = field s := fun field hfield =>
    unsafeFreeTask_field field hfield s _
  constructor
  case returned =>
    simp only [notifyServantRunningTasks, h, ← hreported, contains_permittedTaskIds]
    rw [hreported, List.filter_map]
    rfl
  case recorded =>
    rw [hstate, lookup_setRunningTask, if_pos rfl]
    simp only [contains_permittedTaskIds]
  case removed =>
    intro id
    rw [hstate]
    exact lookup_unsafeClearZombies s p reported id
  case counted => exact hself
  case lowered =>
    intro hcovers
    have hle := Nat.le_trans (tally_forgotten_le s p reported) hcovers
    rw [hself]
    change ((s.heap p).runningTasks - UInt64.ofNat _).toNat + _ = _
    rw [UInt64.toNat_sub_ofNat_of_le hle]
    exact Nat.sub_add_cancel hle
  case others =>
    intro q hq
    exact (hheap q).trans ((unsafeClearZombies_spec s p reported).2 q hq)
  case booked =>
    intro other hother
    rw [hstate, lookup_setRunningTask, if_neg hother]
    exact congrArg (fun b => b.runningTasks.lookup other)
      (hkept TaskDispatcher.runningTaskBookkeeper fun _ _ _ => rfl)
  case servants =>
    rw [hstate]
    exact hkept TaskDispatcher.servants fun _ _ _ => rfl
  case heapTop =>
    rw [hstate]
    exact hkept TaskDispatcher.heapTop fun _ _ _ => rfl
  case nextTaskId =>
    rw [hstate]
    exact hkept TaskDispatcher.nextTaskId fun _ _ _ => rfl
  case minMemory =>
    rw [hstate]
    exact hkept TaskDispatcher.minMemoryForNewTask fun _ _ _ => rfl

/-- With unique locations, a registered servant is the one found at its location. -/
theorem findServant_of_unique {s : TaskDispatcher} (hunique : (s.servants.map s.locationOf).Nodup)
    {p : ServantPtr} (hp : p ∈ s.servants) : s.findServant (s.locationOf p) = some p := by
  cases hfind : s.findServant (s.locationOf p) with
  | none => exact absurd rfl (findServant_none hfind p hp)
  | some q =>
      obtain ⟨hq, hloc⟩ := findServant_some hfind
      rw [List.inj_on_of_nodup_map hunique hq hp hloc]

/-- **Heartbeat reconciliation is exact.**  In every state with unique servant locations and for
every report: if no servant is registered at the location, every reported id is returned and nothing
changes; otherwise the report is reconciled with the servant there. -/
theorem notify_exact (s : TaskDispatcher) (hunique : (s.servants.map s.locationOf).Nodup)
    (location : String) (tasks : List RunningTask) :
    ((∀ p ∈ s.servants, s.locationOf p ≠ location) →
      (notifyServantRunningTasks s location tasks).unknownTasks =
          tasks.map RunningTask.taskGrantId ∧
        (notifyServantRunningTasks s location tasks).dispatcher = s) ∧
    ∀ p ∈ s.servants, s.locationOf p = location →
      Reconciled s p location tasks (notifyServantRunningTasks s location tasks) := by
  constructor
  · intro hnone
    have hfind : s.findServant location = none :=
      List.find?_eq_none.2 fun p hp => by simpa using hnone p hp
    simp only [notifyServantRunningTasks, hfind, and_self]
  · rintro p hp rfl
    exact notify_reconciled (findServant_of_unique hunique hp) tasks

/-- A servant with two zombies and a third task. -/
def zombieOps : List Op :=
  [.keepServantAlive sampleInfo (sec 100) 0, sampleGrant, sampleGrant,
    .onTimerExpiration (sec 11), .waitForStartingNewTask sampleTask (sec 10) false (sec 12)]

/-- A report that names one of the zombies, the third task, and a task that was never granted. -/
def zombieReport : List RunningTask :=
  [0, 2, 7].map fun id =>
    { servantTaskId := id, taskGrantId := id, servantLocation := sampleInfo.observedLocation
      taskDigest := "" }

/-- The zombie and the unknown task are returned; the other zombie is cleared. -/
theorem notify_exact_zombies :
    let s := dispatcher.run (.init 0) zombieOps
    let r := notifyServantRunningTasks s sampleInfo.observedLocation zombieReport
    r.unknownTasks = [0, 7] ∧ r.dispatcher.tasks.lookup 1 = none ∧
      (r.dispatcher.heap 0).runningTasks = 2 := by
  intro s r
  have h := (notify_exact s (by decide +kernel) sampleInfo.observedLocation zombieReport).2 0
    (by decide +kernel) (by decide +kernel)
  refine ⟨?_, ?_, ?_⟩
  · rw [h.returned]
    decide +kernel
  · rw [h.removed 1]
    decide +kernel
  · rw [h.counted]
    decide +kernel

/-! ### Sweeps -/

/-- **What a sweep at the clock reading `now` must leave behind.** -/
structure Swept (s : TaskDispatcher) (now : TimePoint) (t : TaskDispatcher) : Prop where
  /-- The servants that are not late stay, in the same order. -/
  servants : t.servants = s.servants.filter fun p => decide ((s.heap p).expiresTp ≥ now)
  /-- The tasks whose servant has survived stay; those that are late are zombies from now on, and
  nothing else of them changes. -/
  tasks : ∀ id, t.tasks.lookup id =
    ((s.tasks.lookup id).filter fun task => t.servants.contains task.servant).map fun task =>
      { task with isZombie := task.isZombie || decide (task.expiresTp < now) }
  /-- The surviving servants are what they were, with their counters. -/
  survivors : ∀ p ∈ t.servants, t.heap p = s.heap p
  /-- The bookkeeper has lost the entries of the locations of the servants that were removed, and
  no other. -/
  booked : ∀ location, t.runningTaskBookkeeper.runningTasks.lookup location =
    if ∃ p ∈ s.servants, p ∉ t.servants ∧ s.locationOf p = location then none
    else s.runningTaskBookkeeper.runningTasks.lookup location
  /-- Ids go on where they were. -/
  nextTaskId : t.nextTaskId = s.nextTaskId

theorem mem_expireServants {s : TaskDispatcher} {now : TimePoint} {p : ServantPtr} :
    p ∈ (expireServants s now).servants ↔ p ∈ s.servants ∧ ¬(s.heap p).expiresTp < now := by
  simp [expireServants, List.mem_filter]

/-- The orphans are freed, all of them, and no survivor is touched. -/
theorem unsafeFreeTask_orphans (s : TaskDispatcher) :
    (∀ id, (unsafeFreeTask s (orphans s)).1.tasks.lookup id =
      (s.tasks.lookup id).filter fun task => s.servants.contains task.servant) ∧
    ∀ p ∈ s.servants, (unsafeFreeTask s (orphans s)).1.heap p = s.heap p := by
  constructor
  · intro id
    refine (lookup_unsafeFreeTask_keysWhere s _ id).trans ?_
    simp only [Bool.not_not]
  · intro p hp
    refine unsafeFreeTask_heap fun id hid task htask heq => ?_
    obtain ⟨task', hlook, horphan⟩ := Table.mem_keysWhere.1 hid
    rw [htask] at hlook
    cases hlook
    simp [heq, hp] at horphan

theorem onTimerExpiration_swept (s : TaskDispatcher) (now : TimePoint) :
    Swept s now (onTimerExpiration s now).1 := by
  have hfields : ∀ {α : Type} (field : TaskDispatcher → α),
      (∀ s id task, field (releaseTask s id task) = field s) →
      (∀ s, field (markZombies s now) = field s) →
        field (onTimerExpiration s now).1 = field (expireServants s now) :=
    fun field hrelease hmark =>
      (hmark _).trans (unsafeFreeTask_field field hrelease (expireServants s now) _)
  have hservants : (onTimerExpiration s now).1.servants = (expireServants s now).servants :=
    hfields TaskDispatcher.servants (fun _ _ _ => rfl) fun _ => rfl
  obtain ⟨htasks, hheap⟩ := unsafeFreeTask_orphans (expireServants s now)
  constructor
  case servants =>
    rw [hservants]
    simp only [expireServants, ge_iff_le, ← Nat.not_lt, decide_not]
  case tasks =>
    intro id
    rw [hservants]
    exact (Table.lookup_mapVal _ _ id).trans (congrArg (Option.map _) (htasks id))
  case survivors =>
    intro p hp
    rw [hservants] at hp
    exact hheap p hp
  case booked =>
    intro location
    rw [hfields TaskDispatcher.runningTaskBookkeeper (fun _ _ _ => rfl) fun _ => rfl, hservants]
    refine (lookup_delServants s _ _ location).trans ?_
    have hremoved : (∃ p ∈ s.servants.filter fun p => decide ((s.heap p).expiresTp < now),
        s.locationOf p = location) ↔
          ∃ p ∈ s.servants, p ∉ (expireServants s now).servants ∧ s.locationOf p = location := by
      refine exists_congr fun p => ?_
      rw [List.mem_filter, mem_expireServants, decide_eq_true_eq]
      tauto
    simp only [hremoved]
  case nextTaskId => exact hfields TaskDispatcher.nextTaskId (fun _ _ _ => rfl) fun _ => rfl

/-- Nothing expires twice. -/
theorem expireServants_eq_self {s : TaskDispatcher} {now : TimePoint}
    (h : ∀ p ∈ s.servants, ¬(s.heap p).expiresTp < now) : expireServants s now = s := by
  have hnone : (s.servants.filter fun p => decide ((s.heap p).expiresTp < now)) = [] :=
    List.filter_eq_nil_iff.2 fun p hp => by simpa using h p hp
  have hall : (s.servants.filter fun p => !decide ((s.heap p).expiresTp < now)) = s.servants :=
    List.filter_eq_self.2 fun p hp => by simpa using h p hp
  simp only [expireServants, hnone, hall, List.foldl_nil]

theorem orphans_eq_nil {s : TaskDispatcher}
    (h : ∀ id task, s.tasks.lookup id = some task → task.servant ∈ s.servants) :
    orphans s = [] := by
  rw [List.eq_nil_iff_forall_not_mem]
  intro id hid
  obtain ⟨task, hlook, horphan⟩ := Table.mem_keysWhere.1 hid
  simp [h id task hlook] at horphan

theorem markZombies_markZombies (s : TaskDispatcher) (now : TimePoint) :
    markZombies (markZombies s now) now = markZombies s now := by
  simp only [markZombies]
  rw [Table.mapVal_mapVal_of_idempotent fun task => ?_]
  simp only [Bool.or_assoc, Bool.or_self]

/-- A sweep of a state that was swept at the same moment does nothing. -/
theorem Swept.again {s t : TaskDispatcher} {now : TimePoint} (h : Swept s now t)
    (hmarked : markZombies t now = t) : (onTimerExpiration t now).1 = t := by
  have hexpire : expireServants t now = t := by
    refine expireServants_eq_self fun p hp => ?_
    rw [h.survivors p hp]
    rw [h.servants, List.mem_filter] at hp
    simpa using hp.2
  have horphans : orphans t = [] := by
    refine orphans_eq_nil fun id task hlook => ?_
    rw [h.tasks id] at hlook
    obtain ⟨task', hkept, rfl⟩ := Option.map_eq_some_iff.1 hlook
    simpa using (Option.filter_eq_some_iff.1 hkept).2
  simp only [onTimerExpiration, hexpire, horphans, unsafeFreeTask, hmarked]

/-- **The expiry sweep is exact**, in every state and at every clock reading, and running it again
at the same clock reading changes nothing. -/
theorem sweep_exact (s : TaskDispatcher) (now : TimePoint) :
    Swept s now (onTimerExpiration s now).1 ∧
      (onTimerExpiration (onTimerExpiration s now).1 now).1 = (onTimerExpiration s now).1 :=
  ⟨onTimerExpiration_swept s now,
    (onTimerExpiration_swept s now).again (markZombies_markZombies _ now)⟩

end Scheduler
