/-
**The bookkeeper of running tasks.**

`RunningTaskBookkeeper` is a second copy of a part of the state: what each location has reported to
run.  `NotifyServantRunningTasks` writes it, `OnTimerExpiration` deletes from it, and nothing else
touches it: not the release of a task, and not the expiry of its grant.  So what it holds is about
the past, and this module says about which past.

Main definitions:

* `Scheduler.allocations` — the grants of a history;
* `Scheduler.Booked` — every record was reported, and permitted, while the servant that is
  registered at its location now was registered there.

Main results:

* `Scheduler.lookup_bookkeeper_exec` — how an operation changes the bookkeeper;
* `Scheduler.located_run` — **every task has been granted on the location of its servant**;
* `Scheduler.bookkeeper_consistent` — **the bookkeeper is consistent**, where the last of its
  properties is limited to the first `2 ^ 64` grants;
* `Scheduler.bookkeeper_not_unique` — beyond them one id may be recorded at two locations.
-/

import Distribuild.SchedulerPermission

set_option relaxedAutoImplicit false
set_option autoImplicit false

namespace Scheduler

/-! ### Locations do not change -/

/-- A servant that stays registered stays at its location. -/
theorem locationOf_exec {s : TaskDispatcher} (h : Registered s) (op : Op) {p : ServantPtr}
    (hp : p ∈ s.servants) (hp' : p ∈ (exec s op).1.servants) :
    (exec s op).1.locationOf p = s.locationOf p := by
  cases hop : op.isHeartBeat with
  | false => exact congrArg ServantInfo.observedLocation (infoOf_exec hop p hp').2
  | true =>
      cases op with
      | keepServantAlive servantInfo expireTime now =>
          exact keepServantAlive_locationOf h servantInfo expireTime now hp
      | _ => cases hop

/-- The servant that is found at a location is found there as long as it is registered. -/
theorem findServant_exec {s : TaskDispatcher} (h : Registered s) (op : Op) {location : String}
    {p : ServantPtr} (hfind : s.findServant location = some p)
    (hp : p ∈ (exec s op).1.servants) : (exec s op).1.findServant location = some p := by
  obtain ⟨hmem, hloc⟩ := findServant_some hfind
  rw [← hloc, ← locationOf_exec h op hmem hp]
  exact (registered_exec h op).findServant hp

/-! ### What an operation does to the bookkeeper -/

/-- Deleting servants from the bookkeeper erases what their locations have reported. -/
theorem lookup_delServants (s : TaskDispatcher) (ps : List ServantPtr) (b : RunningTaskBookkeeper)
    (location : String) :
    (ps.foldl (fun b p => b.delServant (s.locationOf p)) b).runningTasks.lookup location =
      if ∃ p ∈ ps, s.locationOf p = location then none else b.runningTasks.lookup location := by
  induction ps generalizing b with
  | nil => simp
  | cons q ps ih =>
      rw [List.foldl_cons, ih]
      by_cases hq : s.locationOf q = location
      · have hnone : (b.delServant (s.locationOf q)).runningTasks.lookup location = none := by
          rw [hq]
          exact AList.lookup_erase _ _
        rw [hnone, ite_self, if_pos ⟨q, List.mem_cons_self, hq⟩]
      · have hkeep : (b.delServant (s.locationOf q)).runningTasks.lookup location =
            b.runningTasks.lookup location := AList.lookup_erase_ne (Ne.symm hq)
        simp [hkeep, hq]

/-- A report writes the tasks that are permitted, for the location it is about. -/
theorem lookup_bookkeeper_notify {s : TaskDispatcher} {servantLocation location : String}
    {reported : List RunningTask} {p : ServantPtr} (hfind : s.findServant servantLocation = some p)
    {tasks : List RunningTask}
    (h : (notifyServantRunningTasks s servantLocation
      reported).1.runningTaskBookkeeper.runningTasks.lookup location = some tasks) :
    s.runningTaskBookkeeper.runningTasks.lookup location = some tasks ∨
    (location = servantLocation ∧
      ∀ t ∈ tasks, t ∈ reported ∧ t.taskGrantId ∈ permittedTaskIds s p) := by
  set ids := reported.map RunningTask.taskGrantId
  have hbook : (unsafeClearZombies s p ids).1.runningTaskBookkeeper = s.runningTaskBookkeeper :=
    unsafeFreeTask_field TaskDispatcher.runningTaskBookkeeper (fun _ _ _ => rfl) s _
  simp only [notify_of_some hfind, lookup_setRunningTask] at h
  split at h
  next hloc =>
    refine Or.inr ⟨hloc, fun t ht => ?_⟩
    rw [← Option.some_inj.1 h] at ht
    obtain ⟨hrep, hperm⟩ := List.mem_filter.1 ht
    refine ⟨hrep, ?_⟩
    obtain ⟨task, hlook, hservant, hzombie⟩ :=
      mem_permittedTaskIds.1 (List.contains_iff_mem.1 hperm)
    rw [(unsafeClearZombies_spec s p ids).1] at hlook
    split at hlook
    · cases hlook
    · exact mem_permittedTaskIds.2 ⟨task, hlook, hservant, hzombie⟩
  next =>
    rw [hbook] at h
    exact Or.inl h

/-- **How an operation changes the bookkeeper.**  A record that is there afterwards was there
before, and the servant of its location is still registered; or it has just been reported, and every
task in it is one that the servant is permitted to run. -/
theorem lookup_bookkeeper_exec (s : TaskDispatcher) (op : Op) {location : String}
    {tasks : List RunningTask}
    (h : (exec s op).1.runningTaskBookkeeper.runningTasks.lookup location = some tasks) :
    (s.runningTaskBookkeeper.runningTasks.lookup location = some tasks ∧
      ∀ p, s.findServant location = some p → p ∈ (exec s op).1.servants) ∨
    ∃ reported p, op = .notifyServantRunningTasks location reported ∧
      s.findServant location = some p ∧ p ∈ (exec s op).1.servants ∧
      ∀ t ∈ tasks, t ∈ reported ∧ t.taskGrantId ∈ permittedTaskIds s p := by
  have hmem : ∀ p, s.findServant location = some p → p ∈ s.servants :=
    fun p hp => (findServant_some hp).1
  cases op with
  | waitForStartingNewTask taskInfo expiresIn prefetching now =>
      refine Or.inl ?_
      rcases waitForStartingNewTask_cases s taskInfo expiresIn prefetching now with
        ⟨-, heq⟩ | ⟨-, -, heq⟩ | ⟨p, -, -, heq⟩
      · simp only [exec, heq] at h ⊢
        exact ⟨h, hmem⟩
      · simp only [exec, heq] at h ⊢
        exact ⟨h, hmem⟩
      · simp only [exec, heq] at h ⊢
        exact ⟨h, hmem⟩
  | keepTaskAlive taskId expireTime now =>
      obtain ⟨table, heq⟩ : ∃ table, (keepTaskAlive s taskId expireTime now).1 =
          { s with tasks := table } := by
        unfold keepTaskAlive
        split
        · exact ⟨s.tasks, rfl⟩
        · split
          · exact ⟨s.tasks, rfl⟩
          · exact ⟨_, rfl⟩
      simp only [exec, heq] at h ⊢
      exact Or.inl ⟨h, hmem⟩
  | freeTask taskId =>
      have hbook : (exec s (.freeTask taskId)).1.runningTaskBookkeeper = s.runningTaskBookkeeper :=
        unsafeFreeTask_field TaskDispatcher.runningTaskBookkeeper (fun _ _ _ => rfl) s [taskId]
      have hserv : (exec s (.freeTask taskId)).1.servants = s.servants :=
        unsafeFreeTask_servants s [taskId]
      rw [hbook] at h
      rw [hserv]
      exact Or.inl ⟨h, hmem⟩
  | keepServantAlive servantInfo expireTime now =>
      refine Or.inl ⟨?_, fun p hp => mem_keepServantAlive.2 (Or.inr (hmem p hp))⟩
      simp only [exec, keepServantAlive] at h
      split at h
      · exact h
      · exact h
  | notifyServantRunningTasks servantLocation reported =>
      cases hfind : s.findServant servantLocation with
      | none =>
          simp only [exec, notifyServantRunningTasks, hfind] at h ⊢
          exact Or.inl ⟨h, hmem⟩
      | some p =>
          have hserv : (exec s (.notifyServantRunningTasks servantLocation reported)).1.servants =
              s.servants := by
            simp only [exec, notify_of_some hfind]
            exact unsafeFreeTask_servants ..
          rw [hserv]
          rcases lookup_bookkeeper_notify hfind h with hold | ⟨rfl, hreported⟩
          · exact Or.inl ⟨hold, hmem⟩
          · exact Or.inr ⟨reported, p, rfl, hfind, (findServant_some hfind).1, hreported⟩
  | onTimerExpiration now =>
      have hbook : (exec s (.onTimerExpiration now)).1.runningTaskBookkeeper =
          (expireServants s now).runningTaskBookkeeper :=
        unsafeFreeTask_field TaskDispatcher.runningTaskBookkeeper (fun _ _ _ => rfl)
          (expireServants s now) _
      have hserv : (exec s (.onTimerExpiration now)).1.servants =
          (expireServants s now).servants := unsafeFreeTask_servants ..
      rw [hbook, expireServants, lookup_delServants] at h
      obtain ⟨hgone, hlook⟩ := Option.ite_none_left_eq_some.1 h
      refine Or.inl ⟨hlook, fun p hp => ?_⟩
      obtain ⟨hmem, hloc⟩ := findServant_some hp
      rw [hserv]
      -- had it expired, its location would have been deleted
      refine List.mem_filter.2 ⟨hmem, ?_⟩
      by_contra hexp
      exact hgone ⟨p, List.mem_filter.2 ⟨hmem, by simpa using hexp⟩, hloc⟩
  | rehash taskRank locationRank =>
      simp only [exec, TaskDispatcher.rehash, Table.lookup_rehash] at h ⊢
      exact Or.inl ⟨h, hmem⟩

/-! ### Where a task has been granted -/

/-- The grant of an operation, if it granted a task. -/
def Output.allocation : Output → Option TaskAllocation
  | .started (.granted allocation _) => some allocation
  | _ => none

/-- The grants of a history, in their order. -/
def allocations (tr : List (Op × Output)) : List TaskAllocation :=
  tr.filterMap fun e => e.2.allocation

theorem allocations_append (tr tr' : List (Op × Output)) :
    allocations (tr ++ tr') = allocations tr ++ allocations tr' := List.filterMap_append ..

theorem map_taskId_allocations (tr : List (Op × Output)) :
    (allocations tr).map TaskAllocation.taskId = grantedIds tr := by
  rw [allocations, grantedIds, List.map_filterMap]
  congr 1
  funext e
  cases e.2 with
  | started result => cases result <;> rfl
  | _ => rfl

/-- Every task has been granted on the location of its servant. -/
def Located (tr : List (Op × Output)) (s : TaskDispatcher) : Prop :=
  ∀ id task, s.tasks.lookup id = some task →
    ⟨id, s.locationOf task.servant⟩ ∈ allocations tr

/-- A quiet move adds no task and moves no servant. -/
theorem lookup_of_quiet {s t : TaskDispatcher} (hmove : Quiet s t) {id : UInt64} {task : Task}
    (h : t.tasks.lookup id = some task) :
    ∃ task₀, s.tasks.lookup id = some task₀ ∧
      s.locationOf task₀.servant = t.locationOf task.servant := by
  cases hmove with
  | @release id' task' htask =>
      rw [releaseTask_tasks] at h
      by_cases hid : id = id'
      · rw [hid, AList.lookup_erase] at h
        cases h
      · rw [AList.lookup_erase_ne hid] at h
        exact ⟨task, h, (releaseTask_locationOf ..).symm⟩
  | touch tasks htasks =>
      obtain ⟨task₀, h₀, -, hserv⟩ := lookup_of_identity (htasks id) h
      exact ⟨task₀, h₀, congrArg s.locationOf hserv⟩
  | drop now hnow => exact ⟨task, h, rfl⟩
  | book tasks hfind hperm => exact ⟨task, h, rfl⟩
  | rebook locationRank => exact ⟨task, h, rfl⟩

/-- **One operation**: a grant is recorded with its location, and locations do not change. -/
theorem located_exec {tr : List (Op × Output)} {s : TaskDispatcher} (hreg : Registered s)
    (h : Located tr s) (op : Op) : Located (tr ++ [(op, (exec s op).2)]) (exec s op).1 := by
  intro id task hlook
  rw [allocations_append]
  have hold : ∀ task₀, s.tasks.lookup id = some task₀ →
      s.locationOf task₀.servant = (exec s op).1.locationOf task.servant →
      ⟨id, (exec s op).1.locationOf task.servant⟩ ∈
        allocations tr ++ allocations [(op, (exec s op).2)] := by
    intro task₀ h₀ hloc
    rw [← hloc]
    exact List.mem_append_left _ (h id task₀ h₀)
  rcases exec_cases s op with ⟨taskInfo, expiresIn, prefetching, now, p, -, -, hexec⟩ |
    ⟨servantInfo, expireTime, now, rfl⟩ | ⟨-, hquiet⟩
  · rw [hexec] at hlook hold ⊢
    obtain ⟨new, -, hserv, -, hlook'⟩ :=
      startNewTask_lookup s p taskInfo expiresIn prefetching now id
    rw [hlook'] at hlook
    split at hlook
    next hid =>
      cases hlook
      have halloc : (startNewTask s p taskInfo expiresIn prefetching now).2 =
          ⟨s.nextTaskId, s.locationOf p⟩ :=
        congrArg (TaskAllocation.mk s.nextTaskId)
          (startNewTask_locationOf s p taskInfo expiresIn prefetching now p)
      rw [hserv, startNewTask_locationOf, hid, halloc]
      exact List.mem_append_right _ (List.mem_singleton_self _)
    next => exact hold task hlook (startNewTask_locationOf ..).symm
  · have htasks : (exec s (.keepServantAlive servantInfo expireTime now)).1.tasks = s.tasks :=
      keepServantAlive_tasks ..
    rw [htasks] at hlook
    exact hold task hlook (keepServantAlive_locationOf hreg servantInfo expireTime now
      (hreg.assigned id task hlook)).symm
  · obtain ⟨task₀, h₀, hloc⟩ := quiet_invariant
      (P := fun t => ∀ task, t.tasks.lookup id = some task → ∃ task₀, s.tasks.lookup id = some task₀ ∧
        s.locationOf task₀.servant = t.locationOf task.servant)
      (fun t t' hmove ht task' hlook' => by
        obtain ⟨task₁, h₁, hloc₁⟩ := lookup_of_quiet hmove hlook'
        obtain ⟨task₀, h₀, hloc₀⟩ := ht task₁ h₁
        exact ⟨task₀, h₀, hloc₀.trans hloc₁⟩)
      hquiet (fun task' hlook' => ⟨task', hlook', rfl⟩) task hlook
    exact hold task₀ h₀ hloc

/-- **Every task has been granted on the location of its servant.** -/
theorem located_run (minMemory : UInt64) (ops : List Op) :
    Located (dispatcher.trace (.init minMemory) ops) (dispatcher.run (.init minMemory) ops) := by
  refine (Machine.trace_invariant (M := dispatcher) (P := fun tr s => Registered s ∧ Located tr s)
    ⟨registered_init minMemory, fun id task hlook => ?_⟩ (fun tr s op h => ?_) ops).2
  · cases hlook
  · exact ⟨registered_exec h.1 op, located_exec h.1 h.2 op⟩

/-! ### Every record -/

/-- The run `ops` has gone through a report of `location` that named `t`, when the servant `p` was
found there and `t` was one of its tasks and no zombie. -/
def ReportedBy (minMemory : UInt64) (ops : List Op) (location : String) (p : ServantPtr)
    (t : RunningTask) : Prop :=
  ∃ before reported after, ops = before ++ .notifyServantRunningTasks location reported :: after ∧
    t ∈ reported ∧ (dispatcher.run (.init minMemory) before).findServant location = some p ∧
    t.taskGrantId ∈ permittedTaskIds (dispatcher.run (.init minMemory) before) p

theorem ReportedBy.append {minMemory : UInt64} {ops : List Op} {location : String} {p : ServantPtr}
    {t : RunningTask} (h : ReportedBy minMemory ops location p t) (ops' : List Op) :
    ReportedBy minMemory (ops ++ ops') location p t := by
  obtain ⟨before, reported, after, rfl, hmem, hfind, hperm⟩ := h
  exact ⟨before, reported, after ++ ops', by simp, hmem, hfind, hperm⟩

/-- Every record was reported, and permitted, while the servant that is registered at its location
now was registered there. -/
def Booked (minMemory : UInt64) (ops : List Op) : Prop :=
  let s := dispatcher.run (.init minMemory) ops
  ∀ location tasks, s.runningTaskBookkeeper.runningTasks.lookup location = some tasks →
    ∃ p, s.findServant location = some p ∧ ∀ t ∈ tasks, ReportedBy minMemory ops location p t

/-- **The records are sound**, by induction on the run. -/
theorem booked_run (minMemory : UInt64) (ops : List Op) : Booked minMemory ops := by
  induction ops using List.reverseRecOn with
  | nil =>
      intro location tasks hlook
      cases hlook
  | append_singleton ops op ih =>
      intro location tasks hlook
      rw [Machine.run_concat, dispatcher_next] at hlook ⊢
      have hreg := registered_run minMemory ops
      rcases lookup_bookkeeper_exec _ op hlook with ⟨hold, hkept⟩ | ⟨reported, p, rfl, hfind, hp, hall⟩
      · obtain ⟨p, hfind, hall⟩ := ih location tasks hold
        exact ⟨p, findServant_exec hreg op hfind (hkept p hfind), fun t ht => (hall t ht).append [op]⟩
      · refine ⟨p, findServant_exec hreg _ hfind hp, fun t ht => ?_⟩
        exact ⟨ops, reported, [], rfl, (hall t ht).1, hfind, (hall t ht).2⟩

/-- A task that was reported has been granted on the location that reported it. -/
theorem ReportedBy.allocated {minMemory : UInt64} {ops : List Op} {location : String}
    {p : ServantPtr} {t : RunningTask} (h : ReportedBy minMemory ops location p t) :
    ⟨t.taskGrantId, location⟩ ∈ allocations (dispatcher.trace (.init minMemory) ops) := by
  obtain ⟨before, reported, after, rfl, -, hfind, hperm⟩ := h
  obtain ⟨task, hlook, hserv, -⟩ := mem_permittedTaskIds.1 hperm
  have hloc := located_run minMemory before t.taskGrantId task hlook
  rw [hserv, (findServant_some hfind).2] at hloc
  rw [Machine.trace_append, allocations_append]
  exact List.mem_append_left _ hloc

/-- What `GetRunningTasks` returns. -/
theorem mem_getRunningTasks {b : RunningTaskBookkeeper} {t : RunningTask} :
    t ∈ b.getRunningTasks ↔ ∃ location tasks,
      b.runningTasks.lookup location = some tasks ∧ t ∈ tasks := by
  have hfold : ∀ (entries : List (Sigma fun _ : String => List RunningTask))
      (result : List RunningTask), t ∈ entries.foldl (fun result e => e.2 ++ result) result ↔
        t ∈ result ∨ ∃ e ∈ entries, t ∈ e.2 := by
    intro entries
    induction entries with
    | nil => simp
    | cons e entries ih =>
        intro result
        rw [List.foldl_cons, ih, List.mem_append]
        simp only [List.exists_mem_cons_iff]
        tauto
  rw [RunningTaskBookkeeper.getRunningTasks, hfold]
  constructor
  · rintro (hnil | ⟨⟨location, tasks⟩, hmem, ht⟩)
    · cases hnil
    · exact ⟨location, tasks, Table.mem_entries_iff.1 hmem, ht⟩
  · rintro ⟨location, tasks, hlook, ht⟩
    exact Or.inr ⟨⟨location, tasks⟩, Table.mem_entries_iff.2 hlook, ht⟩

/-! ### Consistency -/

/-- **The bookkeeper is consistent.**  In every run:

* every location in it is the observed location of a registered servant;
* every task recorded under a location was reported from there, when it was a task of the servant
  that is still registered there, and no zombie;
* so `GetRunningTasks` returns only tasks of servants that have not been removed;
* and as long as at most `2 ^ 64` tasks have been granted, no grant id is recorded under two
  locations. -/
theorem bookkeeper_consistent (minMemory : UInt64) (ops : List Op) :
    let s := dispatcher.run (.init minMemory) ops
    let recorded := s.runningTaskBookkeeper.runningTasks
    (∀ location ∈ recorded, ∃ p ∈ s.servants, s.locationOf p = location) ∧
    (∀ location tasks, recorded.lookup location = some tasks → ∀ t ∈ tasks,
      ∃ p ∈ s.servants, s.locationOf p = location ∧ ReportedBy minMemory ops location p t) ∧
    (∀ t ∈ s.runningTaskBookkeeper.getRunningTasks,
      ∃ p ∈ s.servants, ReportedBy minMemory ops (s.locationOf p) p t) ∧
    ((grantedIds (dispatcher.trace (.init minMemory) ops)).length ≤ 2 ^ 64 →
      ∀ location tasks location' tasks', recorded.lookup location = some tasks →
        recorded.lookup location' = some tasks' → ∀ t ∈ tasks, ∀ t' ∈ tasks',
          t.taskGrantId = t'.taskGrantId → location = location') := by
  intro s recorded
  have hbooked : Booked minMemory ops := booked_run minMemory ops
  have hrecord : ∀ location tasks, recorded.lookup location = some tasks → ∀ t ∈ tasks,
      ∃ p ∈ s.servants, s.locationOf p = location ∧ ReportedBy minMemory ops location p t := by
    intro location tasks hlook t ht
    obtain ⟨p, hfind, hall⟩ := hbooked location tasks hlook
    obtain ⟨hmem, hloc⟩ := findServant_some hfind
    exact ⟨p, hmem, hloc, hall t ht⟩
  refine ⟨fun location hkey => ?_, hrecord, fun t ht => ?_, fun hle => ?_⟩
  · obtain ⟨tasks, hlook⟩ := Table.mem_iff_lookup.1 hkey
    obtain ⟨p, hfind, -⟩ := hbooked location tasks hlook
    exact ⟨p, findServant_some hfind⟩
  · obtain ⟨location, tasks, hlook, hmem⟩ := mem_getRunningTasks.1 ht
    obtain ⟨p, hp, rfl, hrep⟩ := hrecord location tasks hlook t hmem
    exact ⟨p, hp, hrep⟩
  · intro location tasks location' tasks' hlook hlook' t ht t' ht' heq
    obtain ⟨p, -, -, hrep⟩ := hrecord location tasks hlook t ht
    obtain ⟨p', -, -, hrep'⟩ := hrecord location' tasks' hlook' t' ht'
    have hnodup : ((allocations (dispatcher.trace (.init minMemory) ops)).map
        TaskAllocation.taskId).Nodup := by
      rw [map_taskId_allocations]
      exact (issued_run minMemory ops).nodup hle
    -- both locations are that of the one grant of this id
    exact congrArg TaskAllocation.servantLocation
      (List.inj_on_of_nodup_map hnodup hrep.allocated hrep'.allocated heq)

/-- A report of the task with grant id `0` from a location. -/
def reportOf (location : String) : RunningTask where
  servantTaskId := 1
  taskGrantId := 0
  servantLocation := location
  taskDigest := ""

/-- The servant of `Scheduler.sampleRegister` is granted a task and reports it. -/
def bookOps : List Op :=
  [sampleRegister, sampleGrant,
    .notifyServantRunningTasks "10.0.0.1:8080" [reportOf "10.0.0.1:8080"]]

/-- The report is recorded, and under no other location than its own. -/
theorem bookkeeper_consistent_one_report :
    let s := dispatcher.run (.init 0) bookOps
    s.runningTaskBookkeeper.getRunningTasks = [reportOf "10.0.0.1:8080"] ∧
      ∀ location tasks, s.runningTaskBookkeeper.runningTasks.lookup location = some tasks →
        ∀ t ∈ tasks, t.taskGrantId = 0 → "10.0.0.1:8080" = location := by
  refine ⟨by decide, fun location tasks hlook t ht hid => ?_⟩
  exact (bookkeeper_consistent 0 bookOps).2.2.2 (by decide) "10.0.0.1:8080"
    [reportOf "10.0.0.1:8080"] location tasks (by decide) hlook _ (List.mem_singleton_self _) t ht
    hid.symm

/-! ### Beyond the wrap-around -/

/-- The servant of `Scheduler.sampleRegister` is free and has been granted `n` tasks, all of which
have been freed. -/
def afterRounds (b : RunningTaskBookkeeper) (n : UInt64) : TaskDispatcher where
  heap := Function.update (fun _ => noServant) 0
    { servantInfo := sampleInfo, discoveredTp := 0, expiresTp := sec 10, assignedTasks := n }
  heapTop := 1
  servants := [0]
  nextTaskId := n
  runningTaskBookkeeper := b
  minMemoryForNewTask := 0

/-- It is granted one more task. -/
def grantedRound (b : RunningTaskBookkeeper) (n : UInt64) : TaskDispatcher :=
  (startNewTask (afterRounds b n) 0 sampleTask (sec 10) false 0).1

theorem exec_afterRounds (b : RunningTaskBookkeeper) (n : UInt64) :
    (exec (afterRounds b n) sampleGrant).1 = grantedRound b n := by
  refine exec_sampleGrant rfl rfl ?_
  rw [isFree_iff, availableTasks]
  simp only [afterRounds, Function.update_self]
  decide

/-- The task is freed. -/
theorem exec_grantedRound (b : RunningTaskBookkeeper) (n : UInt64) :
    (exec (grantedRound b n) (.freeTask n)).1 = afterRounds b (n + 1) := by
  obtain ⟨new, -, hserv, hins, hlook⟩ :=
    startNewTask_lookup (afterRounds b n) 0 sampleTask (sec 10) false 0 n
  have hnext : (afterRounds b n).nextTaskId = n := rfl
  rw [hnext, if_pos rfl] at hlook
  have hheap : (releaseTask (grantedRound b n) n new).heap = (afterRounds b (n + 1)).heap := by
    rw [releaseTask_heap, grantedRound, startNewTask_heap, hserv]
    simp [afterRounds]
  have htasks : (releaseTask (grantedRound b n) n new).tasks = ∅ := by
    rw [releaseTask_tasks, grantedRound, hins, hnext]
    refine AList.ext ?_
    show List.kerase n (List.kinsert n _ []) = []
    simp [List.kinsert]
  calc (exec (grantedRound b n) (.freeTask n)).1
      = releaseTask (grantedRound b n) n new := by
        simp only [exec, freeTask, unsafeFreeTask, grantedRound, hlook]
    _ = { afterRounds b (n + 1) with
          heap := (releaseTask (grantedRound b n) n new).heap
          tasks := (releaseTask (grantedRound b n) n new).tasks } := rfl
    _ = afterRounds b (n + 1) := by rw [hheap, htasks]; rfl

/-- The first task is recorded. -/
def firstRecord : RunningTaskBookkeeper :=
  RunningTaskBookkeeper.setRunningTask {} "10.0.0.1:8080" [reportOf "10.0.0.1:8080"]

theorem exec_firstReport :
    (exec (grantedRound {} 0) (.notifyServantRunningTasks "10.0.0.1:8080"
      [reportOf "10.0.0.1:8080"])).1 = grantedRound firstRecord 0 := by
  have hfind : (grantedRound {} 0).findServant "10.0.0.1:8080" = some 0 := by decide
  have hnil : zombiesOf (grantedRound {} 0) 0
      ([reportOf "10.0.0.1:8080"].map RunningTask.taskGrantId) = [] := by decide
  have hperm : permittedTaskIds (grantedRound {} 0) 0 = [0] := by decide
  simp only [exec, notify_of_some hfind, unsafeClearZombies_of_nil hnil, hperm]
  rfl

/-- The first task is recorded and freed, and then `n` further ones are granted and freed. -/
def roundOps (n : ℕ) : List Op :=
  bookOps ++ .freeTask 0 ::
    (List.range n).flatMap fun k => [sampleGrant, .freeTask (UInt64.ofNat (k + 1))]

theorem run_roundOps (n : ℕ) :
    dispatcher.run (.init 0) (roundOps n) = afterRounds firstRecord (UInt64.ofNat (n + 1)) := by
  induction n with
  | zero =>
      have hregister : (exec (.init 0) sampleRegister).1 = afterRounds {} 0 := rfl
      simp only [roundOps, bookOps, List.range_zero, List.flatMap_nil, List.cons_append,
        List.nil_append, Machine.run_cons, Machine.run_nil, dispatcher_next, hregister,
        exec_afterRounds, exec_firstReport, exec_grantedRound]
      rfl
  | succ n ih =>
      have hops : roundOps (n + 1) =
          roundOps n ++ [sampleGrant, .freeTask (UInt64.ofNat (n + 1))] := by
        simp [roundOps, List.range_succ]
      simp only [hops, Machine.run_append, ih, Machine.run_cons, Machine.run_nil, dispatcher_next,
        exec_afterRounds, exec_grantedRound, UInt64.ofNat_add_one]

/-- The compiler is gone from the first servant, so the next task goes to another one, which reports
it. -/
def takeoverOps : List Op :=
  [.keepServantAlive { sampleInfo with envDecs := [] } (sec 10) 0,
    .keepServantAlive { sampleInfo with observedLocation := "10.0.0.2:8080" } (sec 10) 0,
    sampleGrant,
    .notifyServantRunningTasks "10.0.0.2:8080" [reportOf "10.0.0.2:8080"]]

/-- **Beyond the wrap-around one id may be recorded at two locations**: the bookkeeper keeps what a
servant has reported until that servant reports again, also when the grant has been freed and its id
has been issued anew. -/
theorem bookkeeper_not_unique :
    ¬∀ (minMemory : UInt64) (ops : List Op) (location : String) (tasks : List RunningTask)
      (location' : String) (tasks' : List RunningTask),
      let recorded := (dispatcher.run (.init minMemory) ops).runningTaskBookkeeper.runningTasks
      recorded.lookup location = some tasks → recorded.lookup location' = some tasks' →
        ∀ t ∈ tasks, ∀ t' ∈ tasks', t.taskGrantId = t'.taskGrantId → location = location' := by
  intro hall
  obtain ⟨n, hwrap⟩ : ∃ n, UInt64.ofNat (n + 1) = 0 := ⟨2 ^ 64 - 1, by decide⟩
  have hrun : dispatcher.run (.init 0) (roundOps n ++ takeoverOps) =
      dispatcher.run (afterRounds firstRecord 0) takeoverOps := by
    rw [Machine.run_append, run_roundOps, hwrap]
  have h := hall 0 (roundOps n ++ takeoverOps) "10.0.0.1:8080" [reportOf "10.0.0.1:8080"]
    "10.0.0.2:8080" [reportOf "10.0.0.2:8080"]
  rw [hrun] at h
  have hsame := h (by decide) (by decide) _ (List.mem_singleton_self _) _
    (List.mem_singleton_self _) rfl
  exact absurd hsame (by decide)

end Scheduler
