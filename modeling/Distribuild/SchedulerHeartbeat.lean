/-
**What a heartbeat touches, and whom it makes eligible.**

A heartbeat makes two calls of the dispatcher.  `KeepServantAlive` gets the *observed* location, the
address of the peer with the reported port.  `NotifyServantRunningTasks` gets the location that the
request itself carries, a string the sender is free to choose.  As long as the two agree, a
heartbeat is about one servant only.  When they do not, as behind NAT, the second call clears the
zombies and overwrites the bookkeeping of whichever servant is registered at the reported address.
The first part of the module says exactly when that does no harm.

The second part is about grants.  The service does not refuse a servant that must not compile; it
records it with concurrency `0`, which the filter of `WaitForStartingNewTask` rejects.  Since every
heartbeat overwrites the information of its servant, a grant can only name a location whose last
accepted heartbeat had nothing against it.

Main definitions:

* `Scheduler.scheduler` — the service and its dispatcher, as a machine;
* `Scheduler.Isolated` — a step concerns one location only;
* `Scheduler.HarmlessReport` — when the second call of a heartbeat does;
* `Scheduler.lastAccepted` — the last accepted heartbeat for a location.

Main results:

* `Scheduler.heartBeat_isolated_iff` — **when a heartbeat is isolated**;
* `Scheduler.heartBeat_not_isolated` — it need not be;
* `Scheduler.traced_run` — the servants are as their last heartbeats left them;
* `Scheduler.grant_trusted` — **only trusted, reachable servants compile**.
-/

import Distribuild.SchedulerAllocate

set_option relaxedAutoImplicit false
set_option autoImplicit false

namespace Scheduler

/-! ### The service and its dispatcher -/

/-- The operation registers or updates a servant. -/
def Op.isHeartBeat : Op → Bool
  | .keepServantAlive .. => true
  | _ => false

/-- What can happen to the scheduler.  Servants are registered and updated by `HeartBeat` only. -/
inductive SchedulerEvent
  /-- `HeartBeat` up to and including `KeepServantAlive`. -/
  | heartBeat (peer : String) (request : HeartBeatRequest) (now : TimePoint)
  /-- Any other operation, with `NotifyServantRunningTasks` at the end of `HeartBeat` among them. -/
  | op (op : Op) (h : op.isHeartBeat = false)

inductive SchedulerReply
  | refused (status : Status)
  | accepted (servantInfo : ServantInfo)
  | done (output : Output)
deriving DecidableEq, Repr

/-- One step of the scheduler. -/
def schedulerStep (service : SchedulerServiceImpl) (s : TaskDispatcher) :
    SchedulerEvent → TaskDispatcher × SchedulerReply
  | .heartBeat peer request now =>
      match heartBeatServant service peer request with
      | .error status => (s, .refused status)
      | .ok servantInfo =>
          ((keepServantAlive s servantInfo (ms request.nextHeartBeatInMs.toNat) now).1,
            .accepted servantInfo)
  | .op op _ => ((exec s op).1, .done (exec s op).2)

/-- **The scheduler as a machine.** -/
def scheduler (service : SchedulerServiceImpl) :
    Machine TaskDispatcher SchedulerEvent SchedulerReply :=
  ⟨schedulerStep service⟩

/-- Every run of the scheduler is a run of its dispatcher. -/
theorem scheduler_simulates (service : SchedulerServiceImpl) :
    dispatcher.Simulates (scheduler service) id := by
  intro s e
  cases e with
  | heartBeat peer request now =>
      cases h : heartBeatServant service peer request with
      | error status =>
          refine ⟨[], ?_⟩
          simp only [scheduler, Machine.next, schedulerStep, h, id, Machine.run_nil]
      | ok servantInfo =>
          refine ⟨[.keepServantAlive servantInfo (ms request.nextHeartBeatInMs.toNat) now], ?_⟩
          simp only [scheduler, Machine.next, schedulerStep, h, id]
          rfl
  | op op h => exact ⟨[op], rfl⟩

/-- `HeartBeat`, when nothing comes in between, is two steps of the scheduler. -/
theorem heartBeat_run {service : SchedulerServiceImpl} {peer : String}
    {request : HeartBeatRequest} {servantInfo : ServantInfo}
    (h : heartBeatServant service peer request = .ok servantInfo) (s : TaskDispatcher)
    (now nowTokens : TimePoint) (nextDaemonToken : String) :
    (heartBeat service s peer request now nowTokens nextDaemonToken).1.2 =
      (scheduler service).run s [.heartBeat peer request now,
        .op (.notifyServantRunningTasks request.location request.runningTasks) rfl] := by
  simp only [heartBeat, h, Machine.run_cons, Machine.run_nil, scheduler, Machine.next,
    schedulerStep]
  rfl

/-! ### Isolation -/

/-- The change from `s` to `t` concerns the servant at `location` only: the tasks and the counters
of other servants and the bookkeeping of other locations are what they were. -/
structure Isolated (location : String) (s t : TaskDispatcher) : Prop where
  tasks : ∀ id task, s.locationOf task.servant ≠ location →
    (t.tasks.lookup id = some task ↔ s.tasks.lookup id = some task)
  running : ∀ p ∈ s.servants, s.locationOf p ≠ location →
    (t.heap p).runningTasks = (s.heap p).runningTasks
  booked : ∀ other, other ≠ location →
    t.runningTaskBookkeeper.runningTasks.lookup other =
      s.runningTaskBookkeeper.runningTasks.lookup other

theorem Isolated.refl (location : String) (s : TaskDispatcher) : Isolated location s s where
  tasks := fun _ _ _ => Iff.rfl
  running := fun _ _ _ => rfl
  booked := fun _ _ => rfl

/-- `KeepServantAlive` is isolated: it writes one object, and no counter in it. -/
theorem keepServantAlive_isolated {s : TaskDispatcher} (hreg : Registered s)
    (servantInfo : ServantInfo) (expireTime : Duration) (now : TimePoint) (location : String) :
    Isolated location s (keepServantAlive s servantInfo expireTime now).1 where
  tasks := fun id task _ => by rw [keepServantAlive_tasks]
  running := by
    intro p hp _
    by_cases hpw : p = (keepServantAlive s servantInfo expireTime now).2
    · rcases keepServantAlive_written s servantInfo expireTime now with
        ⟨-, hrun⟩ | ⟨-, hnew, -⟩
      · exact hpw ▸ hrun
      · exact absurd (hpw.trans hnew) (Nat.ne_of_lt (hreg.allocated p hp))
    · exact congrArg Servant.runningTasks (keepServantAlive_of_ne hpw)
  booked := by
    intro other _
    unfold keepServantAlive
    split <;> rfl

/-- Freeing tasks of other servants leaves a servant object alone. -/
theorem unsafeFreeTask_heap {s : TaskDispatcher} {ids : List UInt64} {p : ServantPtr}
    (h : ∀ id ∈ ids, ∀ task, s.tasks.lookup id = some task → task.servant ≠ p) :
    (unsafeFreeTask s ids).1.heap p = s.heap p := by
  induction ids generalizing s with
  | nil => rfl
  | cons id ids ih =>
      cases htask : s.tasks.lookup id with
      | none => simp only [unsafeFreeTask, htask]
      | some task =>
          have hne : p ≠ task.servant := (h id List.mem_cons_self task htask).symm
          simp only [unsafeFreeTask, htask]
          rw [ih ?_, releaseTask_heap, Function.update_of_ne hne]
          intro k hk task' hlook
          by_cases hkid : k = id
          · rw [hkid, releaseTask_tasks, AList.lookup_erase] at hlook
            cases hlook
          · rw [releaseTask_tasks, AList.lookup_erase_ne hkid] at hlook
            exact h k (List.mem_cons_of_mem _ hk) task' hlook

theorem mem_zombiesOf {s : TaskDispatcher} {p : ServantPtr} {ids : List UInt64} {id : UInt64} :
    id ∈ zombiesOf s p ids ↔ ∃ task, s.tasks.lookup id = some task ∧ task.servant = p ∧
      task.isZombie = true ∧ task.taskId ∉ ids := by
  rw [zombiesOf, Table.mem_keysWhere]
  simp [and_assoc]

/-- **Clearing the zombies of a servant** removes these tasks and touches no other object. -/
theorem unsafeClearZombies_spec (s : TaskDispatcher) (p : ServantPtr) (ids : List UInt64) :
    (∀ id, (unsafeClearZombies s p ids).1.tasks.lookup id =
      if id ∈ zombiesOf s p ids then none else s.tasks.lookup id) ∧
    ∀ q, q ≠ p → (unsafeClearZombies s p ids).1.heap q = s.heap q := by
  refine ⟨(unsafeFreeTask_keysWhere s _).2, fun q hq => ?_⟩
  refine unsafeFreeTask_heap fun id hid task htask => ?_
  obtain ⟨task', hlook, hserv, -⟩ := mem_zombiesOf.1 hid
  rw [htask] at hlook
  cases hlook
  exact fun heq => hq (heq.symm.trans hserv)

theorem unsafeClearZombies_of_nil {s : TaskDispatcher} {p : ServantPtr} {ids : List UInt64}
    (h : zombiesOf s p ids = []) : (unsafeClearZombies s p ids).1 = s := by
  rw [unsafeClearZombies, h]
  rfl

/-- **What a report leaves behind** when its servant is registered: the zombies that it does not
name are gone, and what it names and is permitted has been recorded. -/
theorem notify_of_some {s : TaskDispatcher} {location : String} {p : ServantPtr}
    (h : s.findServant location = some p) (tasks : List RunningTask) :
    (notifyServantRunningTasks s location tasks).dispatcher =
      { (unsafeClearZombies s p (tasks.map RunningTask.taskGrantId)).1 with
        runningTaskBookkeeper := (unsafeClearZombies s p
          (tasks.map RunningTask.taskGrantId)).1.runningTaskBookkeeper.setRunningTask location
            (tasks.filter fun t => (permittedTaskIds (unsafeClearZombies s p
              (tasks.map RunningTask.taskGrantId)).1 p).contains t.taskGrantId) } := by
  simp only [notifyServantRunningTasks, h]

/-- What `SetRunningTask` records. -/
theorem lookup_setRunningTask (b : RunningTaskBookkeeper) (location other : String)
    (tasks : List RunningTask) :
    (b.setRunningTask location tasks).runningTasks.lookup other =
      if other = location then some tasks else b.runningTasks.lookup other := by
  rw [RunningTaskBookkeeper.setRunningTask]
  split
  next h => rw [h]; exact AList.lookup_insert _
  next h => exact (AList.lookup_insert_ne h).trans (AList.lookup_erase_ne h)

/-- The report of a heartbeat that is observed at `location` touches nothing else: it is about
`location`, or about a location where no servant is registered, or it tells nothing new there, since
no zombie of that servant is missing in it and the bookkeeper has recorded the same tasks before. -/
def HarmlessReport (s : TaskDispatcher) (location : String) (request : HeartBeatRequest) : Prop :=
  request.location = location ∨
    ∀ p, s.findServant request.location = some p →
      zombiesOf s p (request.runningTasks.map RunningTask.taskGrantId) = [] ∧
      s.runningTaskBookkeeper.runningTasks.lookup request.location =
        some (request.runningTasks.filter fun t =>
          (permittedTaskIds s p).contains t.taskGrantId)

/-- A report about the observed location itself is isolated. -/
theorem notify_isolated_self (s : TaskDispatcher) (location : String) (tasks : List RunningTask) :
    Isolated location s (notifyServantRunningTasks s location tasks).dispatcher := by
  unfold notifyServantRunningTasks
  cases hfind : s.findServant location with
  | none => exact Isolated.refl location s
  | some p =>
      obtain ⟨-, hloc⟩ := findServant_some hfind
      obtain ⟨htasks, hheap⟩ :=
        unsafeClearZombies_spec s p (tasks.map RunningTask.taskGrantId)
      constructor
      · intro id task hother
        change (unsafeClearZombies s p _).1.tasks.lookup id = some task ↔ _
        rw [htasks id]
        split
        next hzombie =>
          -- a zombie belongs to the servant at the location
          obtain ⟨task', hlook, hserv, -⟩ := mem_zombiesOf.1 hzombie
          constructor
          · intro h
            cases h
          · intro h
            rw [hlook] at h
            cases h
            exact absurd (hserv ▸ hloc) hother
        next => exact Iff.rfl
      · intro q _ hother
        have hne : q ≠ p := fun heq => hother (heq ▸ hloc)
        exact congrArg Servant.runningTasks (hheap q hne)
      · intro other hother
        change ((unsafeClearZombies s p _).1.runningTaskBookkeeper.setRunningTask location
          _).runningTasks.lookup other = _
        rw [lookup_setRunningTask, if_neg hother]
        exact congrArg (fun b => b.runningTasks.lookup other)
          (unsafeFreeTask_field TaskDispatcher.runningTaskBookkeeper (fun _ _ _ => rfl) s _)

/-- **When a report is isolated.** -/
theorem notify_isolated_iff (s : TaskDispatcher) (location : String)
    (request : HeartBeatRequest) :
    Isolated location s
        (notifyServantRunningTasks s request.location request.runningTasks).dispatcher ↔
      HarmlessReport s location request := by
  by_cases hsame : request.location = location
  · rw [hsame]
    exact ⟨fun _ => Or.inl hsame, fun _ => notify_isolated_self s location _⟩
  cases hfind : s.findServant request.location with
  | none =>
      have hstate : (notifyServantRunningTasks s request.location
          request.runningTasks).dispatcher = s := by
        simp only [notifyServantRunningTasks, hfind]
      rw [hstate]
      refine ⟨fun _ => Or.inr fun p hp => ?_, fun _ => Isolated.refl location s⟩
      rw [hfind] at hp
      cases hp
  | some p =>
      obtain ⟨-, hloc⟩ := findServant_some hfind
      set ids := request.runningTasks.map RunningTask.taskGrantId with hids
      rw [notify_of_some hfind request.runningTasks, ← hids]
      constructor
      · intro hiso
        -- a cleared zombie would be a task of another servant that is gone
        have hnone : zombiesOf s p ids = [] := by
          rw [List.eq_nil_iff_forall_not_mem]
          intro id hid
          obtain ⟨task, hlook, hserv, -⟩ := mem_zombiesOf.1 hid
          have hother : s.locationOf task.servant ≠ location := by
            rw [hserv, hloc]
            exact hsame
          have hkept := (hiso.tasks id task hother).2 hlook
          change (unsafeClearZombies s p ids).1.tasks.lookup id = some task at hkept
          rw [(unsafeClearZombies_spec s p ids).1 id, if_pos hid] at hkept
          cases hkept
        rw [unsafeClearZombies_of_nil hnone] at hiso
        refine Or.inr fun q hq => ?_
        rw [hfind] at hq
        cases hq
        refine ⟨hnone, ?_⟩
        have hbook := hiso.booked request.location hsame
        simp only [lookup_setRunningTask, if_pos] at hbook
        exact hbook.symm
      · rintro (habs | hharmless)
        · exact absurd habs hsame
        · obtain ⟨hnone, hbook⟩ := hharmless p hfind
          rw [unsafeClearZombies_of_nil hnone]
          refine ⟨fun _ _ _ => Iff.rfl, fun _ _ _ => rfl, fun other _ => ?_⟩
          simp only [lookup_setRunningTask]
          split
          next heq => rw [heq, hbook]
          next => rfl

/-- **When a heartbeat is isolated.**  For every accepted heartbeat, in every reachable state and
whatever other threads do between its two calls of the dispatcher, it changes only what belongs to
the servant at the observed location if and only if its report is harmless when it is made. -/
theorem heartBeat_isolated_iff (service : SchedulerServiceImpl) (minMemory : UInt64)
    (ops between : List Op) (peer : String) (request : HeartBeatRequest)
    (servantInfo : ServantInfo) (now : TimePoint)
    (h : heartBeatServant service peer request = .ok servantInfo) :
    let s := dispatcher.run (.init minMemory) ops
    let t := (scheduler service).next s (.heartBeat peer request now)
    let t' := dispatcher.run t between
    (Isolated servantInfo.observedLocation s t ∧
      Isolated servantInfo.observedLocation t' ((scheduler service).next t'
        (.op (.notifyServantRunningTasks request.location request.runningTasks) rfl))) ↔
      HarmlessReport t' servantInfo.observedLocation request := by
  intro s t t'
  have hkeep : t = (keepServantAlive s servantInfo (ms request.nextHeartBeatInMs.toNat) now).1 := by
    change ((scheduler service).step s (.heartBeat peer request now)).1 = _
    simp only [scheduler, schedulerStep, h]
  have hfirst : Isolated servantInfo.observedLocation s t := by
    rw [hkeep]
    exact keepServantAlive_isolated (registered_run minMemory ops) ..
  have hsecond := notify_isolated_iff t' servantInfo.observedLocation request
  constructor
  · intro hiso
    exact hsecond.1 hiso.2
  · intro hharmless
    exact ⟨hfirst, hsecond.2 hharmless⟩

/-! ### A report about somebody else -/

/-- A heartbeat of a machine with eight cores, which reports this location. -/
def sampleHeartBeat (location : String) : HeartBeatRequest where
  token := "servant"
  nextHeartBeatInMs := 10000
  version := 1
  location := location
  numCpuCores := 8
  currentLoad := 0
  priority := .user
  concurrency := 4
  totalMemoryInBytes := 0
  availMemoryInBytes := 0
  envDescs := [⟨"gcc"⟩]
  runningTasks := []

/-- What the service records of `Scheduler.sampleHeartBeat`. -/
def sampleBeatInfo : ServantInfo :=
  recordedInfo sampleService (sampleHeartBeat "10.0.0.1:8080") "10.0.0.1:8080"

theorem sampleHeartBeat_accepted :
    heartBeatServant sampleService "ipv4:10.0.0.1:5555" (sampleHeartBeat "10.0.0.1:8080") =
      .ok sampleBeatInfo := by
  decide

/-- A servant that reports its own address is the only one its heartbeat touches. -/
theorem heartBeat_isolated_iff_own :
    let s := dispatcher.run (.init 0) [sampleRegister, sampleGrant]
    let t := (scheduler sampleService).next s
      (.heartBeat "ipv4:10.0.0.1:5555" (sampleHeartBeat "10.0.0.1:8080") 0)
    Isolated "10.0.0.1:8080" s t ∧
      Isolated "10.0.0.1:8080" t ((scheduler sampleService).next t
        (.op (.notifyServantRunningTasks "10.0.0.1:8080" []) rfl)) :=
  (heartBeat_isolated_iff sampleService 0 [sampleRegister, sampleGrant] [] "ipv4:10.0.0.1:5555"
    (sampleHeartBeat "10.0.0.1:8080") sampleBeatInfo 0 sampleHeartBeat_accepted).2 (Or.inl rfl)

/-- **A heartbeat about somebody else.**  Task `0` runs on the servant at `10.0.0.1:8080`, whose
lease has run out.  A machine that is observed at `10.0.0.2` reports the address of that servant and
no running tasks: the task is freed, and the counter of a servant it has nothing to do with falls.
-/
theorem heartBeat_not_isolated :
    let s := dispatcher.run (.init 0)
      [sampleRegister, .waitForStartingNewTask sampleTask (sec 1) false 0,
        .onTimerExpiration (sec 2)]
    let request := sampleHeartBeat "10.0.0.1:8080"
    let t := (heartBeat sampleService s "ipv4:10.0.0.2:5555" request (sec 2) (sec 2) "d").1.2
    heartBeatServant sampleService "ipv4:10.0.0.2:5555" request =
        .ok (recordedInfo sampleService request "10.0.0.2:8080") ∧
      (0 : ServantPtr) ∈ s.servants ∧ s.locationOf 0 = "10.0.0.1:8080" ∧
      (s.tasks.lookup 0).map Task.servant = some 0 ∧ t.tasks.lookup 0 = none ∧
      (s.heap 0).runningTasks = 1 ∧ (t.heap 0).runningTasks = 0 ∧
      ¬Isolated "10.0.0.2:8080" s t := by
  refine ⟨by decide, by decide, by decide, by decide, by decide, by decide, by decide, fun h => ?_⟩
  exact absurd (h.running 0 (by decide) (by decide)) (by decide)

/-! ### The last heartbeat of a servant -/

/-- The heartbeat, if this is one that was accepted for `location`. -/
def acceptedFor (location : String) :
    SchedulerEvent × SchedulerReply → Option (String × HeartBeatRequest)
  | (.heartBeat peer request _, .accepted servantInfo) =>
      if servantInfo.observedLocation = location then some (peer, request) else none
  | _ => none

/-- The peer and the request of the last accepted heartbeat for `location`. -/
def lastAccepted (location : String) (tr : List (SchedulerEvent × SchedulerReply)) :
    Option (String × HeartBeatRequest) :=
  (tr.filterMap (acceptedFor location)).getLast?

theorem lastAccepted_concat (location : String) (tr : List (SchedulerEvent × SchedulerReply))
    (e : SchedulerEvent × SchedulerReply) :
    lastAccepted location (tr ++ [e]) =
      (acceptedFor location e).or (lastAccepted location tr) := by
  rw [lastAccepted, List.filterMap_append]
  cases h : acceptedFor location e with
  | none => simp [h, lastAccepted]
  | some beat => simp [h]

/-- **The servants are as their last heartbeats left them.** -/
def Traced (service : SchedulerServiceImpl) (tr : List (SchedulerEvent × SchedulerReply))
    (s : TaskDispatcher) : Prop :=
  ∀ p ∈ s.servants, ∃ peer request,
    lastAccepted (s.locationOf p) tr = some (peer, request) ∧
      heartBeatServant service peer request = .ok (s.infoOf p)

/-- A grant and a quiet move write no information and register no servant. -/
theorem infoOf_quiet {s t : TaskDispatcher} (hmove : Quiet s t) :
    ∀ p ∈ t.servants, p ∈ s.servants ∧ t.infoOf p = s.infoOf p := by
  cases hmove with
  | release htask => exact fun p hp => ⟨hp, releaseTask_infoOf ..⟩
  | touch tasks htasks => exact fun p hp => ⟨hp, rfl⟩
  | drop now hnow => exact fun p hp => ⟨List.mem_of_mem_filter hp, rfl⟩
  | book tasks hfind hperm => exact fun p hp => ⟨hp, rfl⟩
  | rebook locationRank => exact fun p hp => ⟨hp, rfl⟩

/-- An operation that is no heartbeat writes no information and registers no servant. -/
theorem infoOf_exec {s : TaskDispatcher} {op : Op} (hop : op.isHeartBeat = false) :
    ∀ p ∈ (exec s op).1.servants, p ∈ s.servants ∧ (exec s op).1.infoOf p = s.infoOf p := by
  rcases exec_cases s op with ⟨taskInfo, expiresIn, prefetching, now, p, -, -, hexec⟩ |
    ⟨servantInfo, expireTime, now, rfl⟩ | ⟨-, hquiet⟩
  · rw [hexec]
    exact fun q hq => ⟨hq, startNewTask_infoOf ..⟩
  · cases hop
  · refine quiet_invariant (P := fun t => ∀ p ∈ t.servants, p ∈ s.servants ∧
      t.infoOf p = s.infoOf p) (fun t t' hmove ht p hp => ?_) hquiet fun p hp => ⟨hp, rfl⟩
    obtain ⟨hmem, hinfo⟩ := infoOf_quiet hmove p hp
    exact ⟨(ht p hmem).1, hinfo.trans (ht p hmem).2⟩

/-- After a heartbeat, a servant is the one the heartbeat was about, or it has another location and
is what it was. -/
theorem keepServantAlive_servants {s : TaskDispatcher} (hreg : Registered s)
    (servantInfo : ServantInfo) (expireTime : Duration) (now : TimePoint) :
    ∀ p ∈ (keepServantAlive s servantInfo expireTime now).1.servants,
      (keepServantAlive s servantInfo expireTime now).1.infoOf p = servantInfo ∨
      (p ∈ s.servants ∧ s.locationOf p ≠ servantInfo.observedLocation ∧
        (keepServantAlive s servantInfo expireTime now).1.infoOf p = s.infoOf p) := by
  intro p hp
  by_cases hpw : p = (keepServantAlive s servantInfo expireTime now).2
  · exact Or.inl (hpw ▸ keepServantAlive_infoOf ..)
  · have hmem : p ∈ s.servants := (mem_keepServantAlive.1 hp).resolve_left hpw
    refine Or.inr ⟨hmem, fun hloc => ?_, congrArg Servant.servantInfo (keepServantAlive_of_ne hpw)⟩
    -- a servant at the location of the heartbeat would have been found
    have hfind := hreg.findServant hmem
    rw [hloc] at hfind
    rcases keepServantAlive_written s servantInfo expireTime now with ⟨hsome, -⟩ | ⟨hnone, -⟩
    · exact hpw (Option.some_inj.1 (hfind.symm.trans hsome))
    · cases hfind.symm.trans hnone

/-- **One step keeps the servants as their last heartbeats left them.** -/
theorem traced_step {service : SchedulerServiceImpl}
    {tr : List (SchedulerEvent × SchedulerReply)} {s : TaskDispatcher} (hreg : Registered s)
    (h : Traced service tr s) (e : SchedulerEvent) :
    Traced service (tr ++ [(e, (scheduler service).out s e)]) ((scheduler service).next s e) := by
  cases e with
  | op op hop =>
      intro p hp
      obtain ⟨hmem, hinfo⟩ := infoOf_exec hop p hp
      obtain ⟨peer, request, hlast, hbeat⟩ := h p hmem
      refine ⟨peer, request, ?_, ?_⟩
      · rw [lastAccepted_concat, TaskDispatcher.locationOf]
        change lastAccepted ((exec s op).1.infoOf p).observedLocation tr = _
        rw [hinfo]
        exact hlast
      · exact hbeat.trans (congrArg Except.ok hinfo.symm)
  | heartBeat peer request now =>
      cases hbeat : heartBeatServant service peer request with
      | error status =>
          have hnext : (scheduler service).next s (.heartBeat peer request now) = s := by
            simp only [scheduler, Machine.next, schedulerStep, hbeat]
          have hout : (scheduler service).out s (.heartBeat peer request now) =
              .refused status := by
            simp only [scheduler, Machine.out, schedulerStep, hbeat]
          rw [hnext, hout]
          intro p hp
          rw [lastAccepted_concat]
          exact h p hp
      | ok servantInfo =>
          have hnext : (scheduler service).next s (.heartBeat peer request now) =
              (keepServantAlive s servantInfo (ms request.nextHeartBeatInMs.toNat) now).1 := by
            simp only [scheduler, Machine.next, schedulerStep, hbeat]
          have hout : (scheduler service).out s (.heartBeat peer request now) =
              .accepted servantInfo := by
            simp only [scheduler, Machine.out, schedulerStep, hbeat]
          rw [hnext, hout]
          intro p hp
          rw [lastAccepted_concat]
          rcases keepServantAlive_servants hreg servantInfo _ now p hp with
            hself | ⟨hmem, hother, hinfo⟩
          · refine ⟨peer, request, ?_, hbeat.trans (congrArg Except.ok hself.symm)⟩
            rw [TaskDispatcher.locationOf, hself, acceptedFor, if_pos rfl]
            rfl
          · obtain ⟨peer', request', hlast, hbeat'⟩ := h p hmem
            refine ⟨peer', request', ?_, hbeat'.trans (congrArg Except.ok hinfo.symm)⟩
            have hne : servantInfo.observedLocation ≠ (s.infoOf p).observedLocation :=
              Ne.symm hother
            rw [TaskDispatcher.locationOf, hinfo, acceptedFor, if_neg hne]
            exact hlast

theorem registered_scheduler {service : SchedulerServiceImpl} {s : TaskDispatcher}
    (h : Registered s) (e : SchedulerEvent) : Registered ((scheduler service).next s e) :=
  Machine.Reachable.invariant (M := dispatcher) (P := Registered) (fun _ op hs => registered_exec hs op)
    (scheduler_simulates service s e) h

theorem traced_run (service : SchedulerServiceImpl) (minMemory : UInt64)
    (events : List SchedulerEvent) :
    Traced service ((scheduler service).trace (.init minMemory) events)
      ((scheduler service).run (.init minMemory) events) := by
  refine (Machine.trace_invariant (M := scheduler service)
    (P := fun tr s => Registered s ∧ Traced service tr s)
    ⟨registered_init minMemory, fun p hp => ?_⟩ (fun tr s e h => ?_) events).2
  · cases hp
  · exact ⟨registered_scheduler h.1 e, traced_step h.1 h.2 e⟩

/-- **Only trusted, reachable servants compile.**  Whenever a run of the scheduler goes on to a
grant, the last accepted heartbeat for the location it names carried a token of a servant, reported
exactly the observed address with its port, and announced another heartbeat. -/
theorem grant_trusted (service : SchedulerServiceImpl) (minMemory : UInt64)
    (events : List SchedulerEvent) (taskInfo : TaskInfo) (expiresIn : Duration)
    (prefetching : Bool) (now : TimePoint) (allocation : TaskAllocation) (p : ServantPtr)
    (h : (scheduler service).out ((scheduler service).run (.init minMemory) events)
      (.op (.waitForStartingNewTask taskInfo expiresIn prefetching now) rfl) =
        .done (.started (.granted allocation p))) :
    ∃ peer request observed reported,
      lastAccepted allocation.servantLocation
        ((scheduler service).trace (.init minMemory) events) = some (peer, request) ∧
      service.servantTokenVerifier.verify request.token = true ∧
      tryParseGrpcIPv4 peer = some observed ∧ tryParseIPv4 request.location = some reported ∧
      request.location = observed.1 ++ ":" ++ reported.2 ∧
      allocation.servantLocation = observed.1 ++ ":" ++ reported.2 ∧
      request.nextHeartBeatInMs ≠ 0 := by
  set s := (scheduler service).run (.init minMemory) events with hs
  have hstart : (waitForStartingNewTask s taskInfo expiresIn prefetching now).2 =
      .granted allocation p := by
    simpa only [scheduler, Machine.out, schedulerStep, exec, SchedulerReply.done.injEq,
      Output.started.injEq] using h
  obtain ⟨hfree, hloc, -⟩ := grant_sound (Prod.ext rfl hstart)
  obtain ⟨hmem, henv, -⟩ := mem_freeServantsFor.1 hfree
  obtain ⟨-, hconc, -⟩ := hasEnv_iff.1 henv
  obtain ⟨peer, request, hlast, hbeat⟩ := traced_run service minMemory events p (hs ▸ hmem)
  obtain ⟨-, reported, observed, hreported, hobserved, hinfo⟩ := heartBeatServant_ok hbeat
  rw [← hs] at hlast hinfo
  rw [hinfo] at hconc
  obtain ⟨htoken, hsame, hnext⟩ := concurrency_pos hconc
  have hobs : s.locationOf p = observed.1 ++ ":" ++ reported.2 := by
    rw [TaskDispatcher.locationOf, hinfo]
    rfl
  exact ⟨peer, request, observed, reported, hloc ▸ hlast, htoken, hobserved, hreported, hsame,
    hloc.trans hobs, hnext⟩

/-- A servant registers itself, and a task is granted on it. -/
theorem grant_trusted_sample :
    let events := [SchedulerEvent.heartBeat "ipv4:10.0.0.1:5555"
      (sampleHeartBeat "10.0.0.1:8080") 0]
    ∃ peer request,
      lastAccepted "10.0.0.1:8080" ((scheduler sampleService).trace (.init 0) events) =
        some (peer, request) ∧
      sampleService.servantTokenVerifier.verify request.token = true ∧
      request.nextHeartBeatInMs ≠ 0 := by
  intro events
  obtain ⟨peer, request, -, -, hlast, htoken, -, -, -, -, hnext⟩ :=
    grant_trusted sampleService 0 events sampleTask (sec 10) false 0
      { taskId := 0, servantLocation := "10.0.0.1:8080" } 0 (by decide)
  exact ⟨peer, request, hlast, htoken, hnext⟩

end Scheduler
