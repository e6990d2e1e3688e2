/-
**The dispatcher's books over whole runs: ids, counters and their limit.**

Grant ids are drawn from `next_task_id_`, a 64-bit counter that starts at `0`.  So the ids of a run
are `0, 1, 2, …` in this order, the first `2 ^ 64` of them are distinct, and as long as no more
have been issued a fresh id is unused: the counters of `Distribuild/SchedulerInvariant.lean` are
exact and no id is issued twice.

The limit is a real one.  After `2 ^ 64` grants the counter is back at `0`; if task `0` is still
there, its entry is overwritten and the counter of its servant stays too high for good.  It never
becomes too low, so no decrement wraps around in any run at all.

Main definitions:

* `Scheduler.grantedIds` — the ids granted in a history;
* `Scheduler.Issued` — how they relate to the state;
* `Scheduler.decremented` — the counters that `UnsafeFreeTask` decrements.

Main results:

* `Scheduler.issued_run`, `Scheduler.balanced_run` — the invariants of every run;
* `Scheduler.runningTasks_eq_load` — **the counters are exact** up to the wrap-around of the ids,
  and no decrement ever wraps around;
* `Scheduler.runningTasks_ne_load` — beyond it they need not be;
* `Scheduler.tasks_consistent` — **referential integrity**, and no id is issued twice.
-/

import Distribuild.SchedulerInvariant

set_option relaxedAutoImplicit false
set_option autoImplicit false

namespace Scheduler

/-! ### The ids of a history -/

/-- The id of the task that an operation granted, if it granted one. -/
def Output.grantedId : Output → Option UInt64
  | .started (.granted allocation _) => some allocation.taskId
  | _ => none

/-- The ids granted in a history, in the order of the grants. -/
def grantedIds (tr : List (Op × Output)) : List UInt64 := tr.filterMap fun e => e.2.grantedId

theorem grantedIds_concat (tr : List (Op × Output)) (op : Op) (o : Output) :
    grantedIds (tr ++ [(op, o)]) = grantedIds tr ++ o.grantedId.toList := by
  rw [grantedIds, List.filterMap_append]
  cases h : o.grantedId <;> simp [grantedIds, h]

theorem Output.Silent.grantedId {o : Output} (h : o.Silent) : o.grantedId = none := by
  cases o with
  | started result =>
      cases result with
      | granted allocation p => exact absurd rfl (h.1 allocation p)
      | envNotFound => rfl
      | noFreeServant => rfl
      | nullServant => rfl
  | kept alive => rfl
  | freed => rfl
  | wrote p => rfl
  | unknownTasks ids => rfl
  | silent => rfl

/-- How the ids granted so far relate to the state. -/
structure Issued (tr : List (Op × Output)) (s : TaskDispatcher) : Prop where
  /-- The ids are the first naturals, modulo `2 ^ 64`. -/
  ids : grantedIds tr = (List.range (grantedIds tr).length).map UInt64.ofNat
  /-- The next id is the next natural, modulo `2 ^ 64`. -/
  next : s.nextTaskId = UInt64.ofNat (grantedIds tr).length
  /-- Every task has been granted. -/
  keys : ∀ id ∈ s.tasks, id ∈ grantedIds tr

theorem issued_init (minMemory : UInt64) : Issued [] (.init minMemory) where
  ids := rfl
  next := rfl
  keys := fun id hid => absurd hid (AList.notMem_empty id)

/-- **One operation keeps the ids in order.** -/
theorem issued_exec {tr : List (Op × Output)} {s : TaskDispatcher} (h : Issued tr s) (op : Op) :
    Issued (tr ++ [(op, (exec s op).2)]) (exec s op).1 := by
  rcases exec_cases s op with ⟨taskInfo, expiresIn, prefetching, now, p, -, -, hexec⟩ |
    ⟨servantInfo, expireTime, now, rfl⟩ | ⟨hsilent, hquiet⟩
  · have hids : grantedIds (tr ++ [(op, (exec s op).2)]) = grantedIds tr ++ [s.nextTaskId] := by
      rw [grantedIds_concat, hexec]
      rfl
    refine ⟨?_, ?_, ?_⟩
    · rw [hids, List.length_append, List.length_singleton, List.range_succ, List.map_append,
        ← h.ids, h.next]
      rfl
    · rw [hids, List.length_append, List.length_singleton, ← UInt64.ofNat_add_one, ← h.next, hexec]
      rfl
    · intro id hid
      rw [hids]
      rw [hexec] at hid
      rcases (AList.mem_insert s.tasks).1 hid with rfl | hold
      · exact List.mem_append_right _ (List.mem_singleton_self _)
      · exact List.mem_append_left _ (h.keys id hold)
  · have hids : grantedIds (tr ++ [(Op.keepServantAlive servantInfo expireTime now,
        (exec s (.keepServantAlive servantInfo expireTime now)).2)]) = grantedIds tr := by
      rw [grantedIds_concat]
      exact List.append_nil _
    refine ⟨?_, ?_, fun id hid => ?_⟩
    · rw [hids]; exact h.ids
    · rw [hids]; exact (keepServantAlive_nextTaskId ..).trans h.next
    · rw [hids]
      have htasks : (exec s (.keepServantAlive servantInfo expireTime now)).1.tasks = s.tasks :=
        keepServantAlive_tasks ..
      exact h.keys id (htasks ▸ hid)
  · have hids : grantedIds (tr ++ [(op, (exec s op).2)]) = grantedIds tr := by
      rw [grantedIds_concat, hsilent.grantedId]
      exact List.append_nil _
    have hkeys : (exec s op).1.nextTaskId = s.nextTaskId ∧
        ∀ id ∈ (exec s op).1.tasks, id ∈ s.tasks := by
      refine quiet_invariant (P := fun t => t.nextTaskId = s.nextTaskId ∧
        ∀ id ∈ t.tasks, id ∈ s.tasks) (fun t t' hmove ht => ?_) hquiet ⟨rfl, fun _ hid => hid⟩
      have hq := quiet_keys hmove
      exact ⟨hq.1.trans ht.1, fun id hid => ht.2 id (hq.2 id hid)⟩
    refine ⟨?_, ?_, fun id hid => ?_⟩
    · rw [hids]; exact h.ids
    · rw [hids]; exact hkeys.1.trans h.next
    · rw [hids]; exact h.keys id (hkeys.2 id hid)

theorem issued_run (minMemory : UInt64) (ops : List Op) :
    Issued (dispatcher.trace (.init minMemory) ops) (dispatcher.run (.init minMemory) ops) :=
  Machine.trace_invariant (M := dispatcher) (P := Issued) (issued_init minMemory)
    (fun _ _ op h => issued_exec h op) ops

/-! ### What the ids say below the wrap-around -/

theorem toNat_ofNat_of_lt {n : ℕ} (h : n < 2 ^ 64) : (UInt64.ofNat n).toNat = n :=
  UInt64.toNat_ofNat_of_lt' h

/-- A task that is still there was granted under one of the naturals below the number of grants. -/
theorem Issued.key_lt {tr : List (Op × Output)} {s : TaskDispatcher} (h : Issued tr s)
    {id : UInt64} (hid : id ∈ s.tasks) :
    ∃ k < (grantedIds tr).length, id = UInt64.ofNat k := by
  have hmem := h.keys id hid
  rw [h.ids, List.mem_map] at hmem
  obtain ⟨k, hk, rfl⟩ := hmem
  exact ⟨k, List.mem_range.1 hk, rfl⟩

/-- **A fresh id is unused** as long as fewer than `2 ^ 64` have been issued. -/
theorem Issued.fresh {tr : List (Op × Output)} {s : TaskDispatcher} (h : Issued tr s)
    (hlt : (grantedIds tr).length < 2 ^ 64) : s.nextTaskId ∉ s.tasks := by
  intro hmem
  obtain ⟨k, hk, heq⟩ := h.key_lt hmem
  have hnat := congrArg UInt64.toNat (h.next.symm.trans heq)
  rw [toNat_ofNat_of_lt hlt, toNat_ofNat_of_lt (Nat.lt_trans hk hlt)] at hnat
  omega

/-- **The first `2 ^ 64` ids are distinct.** -/
theorem Issued.nodup {tr : List (Op × Output)} {s : TaskDispatcher} (h : Issued tr s)
    (hle : (grantedIds tr).length ≤ 2 ^ 64) : (grantedIds tr).Nodup := by
  rw [h.ids]
  refine List.Nodup.map_on (fun a ha b hb heq => ?_) List.nodup_range
  have ha' := List.mem_range.1 ha
  have hb' := List.mem_range.1 hb
  have hnat := congrArg UInt64.toNat heq
  rwa [toNat_ofNat_of_lt (by omega), toNat_ofNat_of_lt (by omega)] at hnat

/-- The counters are exact as long as at most `2 ^ 64` ids have been issued. -/
theorem balanced_run (minMemory : UInt64) (ops : List Op)
    (hle : (grantedIds (dispatcher.trace (.init minMemory) ops)).length ≤ 2 ^ 64) :
    Balanced (dispatcher.run (.init minMemory) ops) := by
  refine (Machine.trace_invariant (M := dispatcher)
    (P := fun tr s => Registered s ∧ Issued tr s ∧
      ((grantedIds tr).length ≤ 2 ^ 64 → Balanced s))
    ⟨registered_init minMemory, issued_init minMemory, fun _ => balanced_init minMemory⟩
    (fun tr s op h => ?_) ops).2.2 hle
  obtain ⟨hreg, hissued, hbal⟩ := h
  refine ⟨registered_exec hreg op, issued_exec hissued op, fun hlen => ?_⟩
  rw [dispatcher_out, grantedIds_concat, List.length_append] at hlen
  refine balanced_exec hreg (hbal (by omega)) op ?_
  rintro ⟨allocation, p, hout⟩
  rw [hout] at hlen
  exact hissued.fresh (Nat.lt_of_succ_le hlen)

/-! ### Decrements -/

/-- The counters that `UnsafeFreeTask` decrements, with the values it finds in them. -/
def decremented (s : TaskDispatcher) : List UInt64 → List UInt64
  | [] => []
  | id :: ids =>
      match s.tasks.lookup id with
      | none => []
      | some task =>
          (s.heap task.servant).runningTasks :: decremented (releaseTask s id task) ids

/-- No decrement wraps around where no counter is too low. -/
theorem Covered.decremented_ne_zero {s : TaskDispatcher} (h : Covered s) (ids : List UInt64) :
    ∀ c ∈ decremented s ids, c ≠ 0 := by
  induction ids generalizing s with
  | nil => intro c hc; cases hc
  | cons id ids ih =>
      intro c hc
      cases htask : s.tasks.lookup id with
      | none => simp [decremented, htask] at hc
      | some task =>
          simp only [decremented, htask, List.mem_cons] at hc
          rcases hc with rfl | hc
          · intro h0
            have hpos := h.pos htask
            rw [h0] at hpos
            exact absurd hpos (Nat.lt_irrefl 0)
          · exact ih (covered_quiet (Quiet.release htask) h) c hc

/-! ### The counters are exact, up to the wrap-around -/

/-- **The counters are exact.**  In no run does `UnsafeFreeTask` decrement a counter that is `0`,
whether it is called on the state itself or, by `OnTimerExpiration`, after the expired servants
have been dropped.  And as long as at most `2 ^ 64` tasks have been granted, `running_tasks` of
every servant object that is registered or referenced is the number of its entries in `tasks_`. -/
theorem runningTasks_eq_load (minMemory : UInt64) (ops : List Op) :
    let s := dispatcher.run (.init minMemory) ops
    ((∀ ids, ∀ c ∈ decremented s ids, c ≠ 0) ∧
      ∀ now ids, ∀ c ∈ decremented (expireServants s now) ids, c ≠ 0) ∧
    ((grantedIds (dispatcher.trace (.init minMemory) ops)).length ≤ 2 ^ 64 →
      ∀ p, (p ∈ s.servants ∨ ∃ id task, s.tasks.lookup id = some task ∧ task.servant = p) →
        (s.heap p).runningTasks.toNat = s.load p) := by
  have hcov := covered_run minMemory ops
  refine ⟨⟨hcov.decremented_ne_zero, fun now => ?_⟩, fun hle p _ => ?_⟩
  · exact Covered.decremented_ne_zero (s := expireServants _ now) hcov
  · exact balanced_run minMemory ops hle p

/-- A servant with four slots and eight cores. -/
def sampleInfo : ServantInfo where
  version := 1
  observedLocation := "10.0.0.1:8080"
  reportedLocation := "10.0.0.1:8080"
  numCpuCores := 8
  currentLoad := 0
  totalMemoryInBytes := 0
  availMemoryInBytes := 0
  concurrency := 4
  priority := .user
  envDecs := [⟨"gcc"⟩]

/-- A request for the compiler that `Scheduler.sampleInfo` has. -/
def sampleTask : TaskInfo where
  requesterIp := "ipv4:10.0.0.9:40000"
  minVersion := 1
  envDesc := ⟨"gcc"⟩

/-- The servant registers itself. -/
def sampleRegister : Op := .keepServantAlive sampleInfo (sec 10) 0

/-- A task is requested. -/
def sampleGrant : Op := .waitForStartingNewTask sampleTask (sec 10) false 0

/-- After two grants and one release one task is left, and the counter says so. -/
theorem runningTasks_eq_load_two_grants :
    let ops := [sampleRegister, sampleGrant, sampleGrant, .freeTask 0]
    (grantedIds (dispatcher.trace (.init 0) ops)).length = 2 ∧
      ((dispatcher.run (.init 0) ops).heap 0).runningTasks.toNat =
        (dispatcher.run (.init 0) ops).load 0 :=
  ⟨by decide, (runningTasks_eq_load 0 _).2 (by decide) 0 (Or.inl (by decide))⟩

/-! ### Beyond the wrap-around -/

/-- When the servant of `Scheduler.sampleRegister` is the only one, and free, it gets the task. -/
theorem exec_sampleGrant {s : TaskDispatcher} (hservants : s.servants = [0])
    (hinfo : (s.heap 0).servantInfo = sampleInfo)
    (hfree : isFree s.minMemoryForNewTask (s.heap 0) = true) :
    (exec s sampleGrant).1 = (startNewTask s 0 sampleTask (sec 10) false 0).1 := by
  have hmem : (0 : ServantPtr) ∈ freeServantsFor s sampleTask := by
    refine mem_freeServantsFor.2 ⟨by rw [hservants]; exact List.mem_singleton_self 0, ?_, hfree⟩
    rw [TaskDispatcher.infoOf, hinfo]
    decide
  rcases waitForStartingNewTask_cases s sampleTask (sec 10) false 0 with
    ⟨henv, -⟩ | ⟨-, hnone, -⟩ | ⟨p, hp, -, hgrant⟩
  · rw [freeServantsFor, henv] at hmem
    cases hmem
  · rw [hnone] at hmem
    cases hmem
  · have hp0 : p = 0 := by
      have hpmem := (mem_freeServantsFor.1 hp).1
      rw [hservants] at hpmem
      exact List.mem_singleton.1 hpmem
    rw [sampleGrant, exec, hgrant, hp0]

/-- One task is granted and kept, and then `n` further ones are granted and freed one by one. -/
def wrapOps (n : ℕ) : List Op :=
  [sampleRegister, sampleGrant] ++
    (List.range n).flatMap fun k => [sampleGrant, .freeTask (UInt64.ofNat (k + 1))]

/-- The state after `n` rounds of `Scheduler.wrapOps`: task `0` is the only task. -/
structure AfterRounds (n : ℕ) (s : TaskDispatcher) : Prop where
  memory : s.minMemoryForNewTask = 0
  servants : s.servants = [0]
  info : (s.heap 0).servantInfo = sampleInfo
  running : (s.heap 0).runningTasks = 1
  tasks : ∃ task : Task, task.servant = 0 ∧ s.tasks = AList.singleton 0 task
  next : s.nextTaskId = UInt64.ofNat (n + 1)

/-- The servant is free, so the request is granted. -/
theorem AfterRounds.grant {n : ℕ} {s : TaskDispatcher} (h : AfterRounds n s) :
    (exec s sampleGrant).1 = (startNewTask s 0 sampleTask (sec 10) false 0).1 := by
  refine exec_sampleGrant h.servants h.info ?_
  rw [isFree_iff, availableTasks, h.memory, h.info, h.running]
  decide

/-- One more round, as long as the next id is not `0`. -/
theorem AfterRounds.succ {n : ℕ} {s : TaskDispatcher} (h : AfterRounds n s)
    (hn : n + 1 < 2 ^ 64) :
    AfterRounds (n + 1)
      (dispatcher.run s [sampleGrant, .freeTask (UInt64.ofNat (n + 1))]) := by
  obtain ⟨task, hserv, htasks⟩ := h.tasks
  have hid : UInt64.ofNat (n + 1) ≠ 0 := by
    intro h0
    have hnat := congrArg UInt64.toNat h0
    rw [toNat_ofNat_of_lt hn, UInt64.toNat_zero] at hnat
    omega
  set t := (startNewTask s 0 sampleTask (sec 10) false 0).1 with ht
  obtain ⟨new, -, hnew, hins, -⟩ :=
    startNewTask_lookup s 0 sampleTask (sec 10) false 0 (UInt64.ofNat (n + 1))
  rw [h.next, htasks] at hins
  have hlook : t.tasks.lookup (UInt64.ofNat (n + 1)) = some new := by
    rw [ht, hins, AList.lookup_insert]
  have hstate : dispatcher.run s [sampleGrant, .freeTask (UInt64.ofNat (n + 1))] =
      releaseTask t (UInt64.ofNat (n + 1)) new := by
    rw [Machine.run_cons, dispatcher_next, h.grant, ← ht, Machine.run_cons, dispatcher_next,
      Machine.run_nil]
    simp only [exec, freeTask, unsafeFreeTask, hlook]
  rw [hstate]
  refine ⟨h.memory, h.servants, ?_, ?_, ⟨task, hserv, ?_⟩, ?_⟩
  · exact (releaseTask_infoOf t _ new 0).trans
      ((startNewTask_infoOf s 0 sampleTask (sec 10) false 0 0).trans h.info)
  · rw [runningTasks_releaseTask, if_pos hnew, ht, startNewTask_runningTasks, if_pos rfl,
      h.running]
    rfl
  · rw [releaseTask_tasks, ht, hins]
    generalize UInt64.ofNat (n + 1) = k at hid
    refine AList.ext ?_
    show List.kerase _ (List.kinsert _ _ [⟨_, _⟩]) = [⟨_, _⟩]
    simp [List.kinsert, hid]
  · change t.nextTaskId = _
    rw [ht, startNewTask_nextTaskId, h.next, UInt64.ofNat_add_one]

theorem afterRounds_wrapOps (n : ℕ) (hn : n < 2 ^ 64) :
    AfterRounds n (dispatcher.run (.init 0) (wrapOps n)) := by
  induction n with
  | zero =>
      refine ⟨by decide, by decide, by decide, by decide, ?_, by decide⟩
      exact ⟨_, rfl, rfl⟩
  | succ n ih =>
      have hops : wrapOps (n + 1) =
          wrapOps n ++ [sampleGrant, .freeTask (UInt64.ofNat (n + 1))] := by
        simp [wrapOps, List.range_succ]
      rw [hops, Machine.run_append]
      exact (ih (by omega)).succ hn

/-- **Beyond the wrap-around the counters need not be exact.**  When task `0` is kept while the ids
go once around, the next grant overwrites it: the servant has one task and counts two. -/
theorem runningTasks_ne_load :
    ¬∀ (minMemory : UInt64) (ops : List Op) (p : ServantPtr),
      let s := dispatcher.run (.init minMemory) ops
      (p ∈ s.servants ∨ ∃ id task, s.tasks.lookup id = some task ∧ task.servant = p) →
        (s.heap p).runningTasks.toNat = s.load p := by
  intro hall
  obtain ⟨n, hn, hwrap⟩ : ∃ n, n < 2 ^ 64 ∧ UInt64.ofNat (n + 1) = 0 :=
    ⟨2 ^ 64 - 1, by decide, by decide⟩
  have h := afterRounds_wrapOps n hn
  have hcount := hall 0 (wrapOps n ++ [sampleGrant]) 0
  simp only [Machine.run_concat, dispatcher_next, h.grant] at hcount
  set s := dispatcher.run (.init 0) (wrapOps n)
  obtain ⟨task, -, htasks⟩ := h.tasks
  obtain ⟨new, -, hnew, hins, -⟩ := startNewTask_lookup s 0 sampleTask (sec 10) false 0 0
  have hnext : s.nextTaskId = 0 := h.next.trans hwrap
  rw [hnext, htasks, AList.insert_singleton_eq] at hins
  have hload : (startNewTask s 0 sampleTask (sec 10) false 0).1.load 0 = 1 := by
    rw [TaskDispatcher.load, hins, Table.tally, AList.singleton_entries]
    simp [hnew]
  have hmem : (0 : ServantPtr) ∈ (startNewTask s 0 sampleTask (sec 10) false 0).1.servants := by
    rw [startNewTask_servants, h.servants]
    exact List.mem_singleton_self 0
  have htwo := hcount (Or.inl hmem)
  rw [startNewTask_runningTasks, if_pos rfl, h.running, hload] at htwo
  exact absurd htwo (by decide)

/-! ### Referential integrity -/

/-- **Referential integrity.**  As long as fewer than `2 ^ 64` tasks have been granted, the servant
of every task is registered, no two servants have the same observed location, every key of `tasks_`
is the id of its task and lies below `next_task_id_`, so the id of the next grant is unused, and no
id has been issued twice. -/
theorem tasks_consistent (minMemory : UInt64) (ops : List Op)
    (hlt : (grantedIds (dispatcher.trace (.init minMemory) ops)).length < 2 ^ 64) :
    let s := dispatcher.run (.init minMemory) ops
    (∀ id task, s.tasks.lookup id = some task → task.servant ∈ s.servants) ∧
    (s.servants.Pairwise fun p q => s.locationOf p ≠ s.locationOf q) ∧
    (∀ id task, s.tasks.lookup id = some task → task.taskId = id ∧ id < s.nextTaskId) ∧
    s.nextTaskId ∉ s.tasks ∧
    (grantedIds (dispatcher.trace (.init minMemory) ops)).Nodup := by
  intro s
  have hreg : Registered s := registered_run minMemory ops
  have hissued := issued_run minMemory ops
  refine ⟨hreg.assigned, hreg.distinct, fun id task htask => ⟨hreg.keyed id task htask, ?_⟩,
    hissued.fresh hlt, hissued.nodup (Nat.le_of_lt hlt)⟩
  obtain ⟨k, hk, rfl⟩ := hissued.key_lt (Table.mem_iff_lookup.2 ⟨task, htask⟩)
  rw [hissued.next, UInt64.lt_iff_toNat_lt, toNat_ofNat_of_lt hlt,
    toNat_ofNat_of_lt (Nat.lt_trans hk hlt)]
  exact hk

/-- Two grants and a release in between: the second grant has a new id. -/
theorem tasks_consistent_two_grants :
    let ops := [sampleRegister, sampleGrant, .freeTask 0, sampleGrant]
    grantedIds (dispatcher.trace (.init 0) ops) = [0, 1] ∧
      (grantedIds (dispatcher.trace (.init 0) ops)).Nodup :=
  ⟨by decide, (tasks_consistent 0 _ (by decide)).2.2.2.2⟩

end Scheduler
