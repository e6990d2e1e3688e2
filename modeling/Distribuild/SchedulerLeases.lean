/-
**The grants of the scheduler are leases.**

A grant is not for ever.  The daemon that got it renews it with `KeepTaskAlive`, the servant it
names stays registered by its heartbeats, and `OnTimerExpiration` looks at both.  The dispatcher
keeps all this in servant objects, counters, flags and two tables.  Seen from outside it is a book
of leases: grants are terms, held by locations, and of the objects behind a location nothing is to
be seen.

This module proves that the dispatcher is such a book, for as many grants as there are ids: its
state is that of the book, and it gives the same answers.  What is known of books then holds of the
scheduler: whether a grant is renewed depends only on whether it was released, and on how the sweeps
and the deadlines since then were ordered.

Main definitions:

* `Scheduler.leases` — a dispatcher, seen as a book;
* `Scheduler.observed` — an operation with what it returns, seen as an event with its answer;
* `Scheduler.observedOf` — what is observed of a history.

Main results:

* `Scheduler.leases_exec` — an operation is the event it is seen as;
* `Scheduler.scheduler_keeps_leases` — **every history of the dispatcher is one of a book of
  leases**;
* `Scheduler.renewed_iff_survives` — **when a grant is renewed**.
-/

import Distribuild.Lease
import Distribuild.SchedulerReconcile

set_option relaxedAutoImplicit false
set_option autoImplicit false

namespace Scheduler

/-! ### The dispatcher as a book -/

/-- A book of the scheduler: locations hold grants. -/
abbrev LeaseBook := Lease.Book String UInt64 TimePoint

/-- An entry of `tasks_`, seen as a term. -/
def Task.term (location : ServantPtr → String) (task : Task) : Lease.Term String TimePoint where
  holder := location task.servant
  deadline := task.expiresTp
  lapsed := task.isZombie

/-- **A dispatcher, seen as a book.** -/
def leases (s : TaskDispatcher) : LeaseBook where
  holders location := (s.findServant location).map fun p => (s.heap p).expiresTp
  terms id := (s.tasks.lookup id).map (Task.term s.locationOf)

/-- **An operation with what it returns, seen as an event with its answer.**  A request that is not
granted is none. -/
def observed : Op × Output → List (Lease.Event String UInt64 TimePoint × Lease.Answer UInt64)
  | (.waitForStartingNewTask _ expiresIn _ now, .started (.granted allocation _)) =>
      [(.grant allocation.taskId allocation.servantLocation (now + expiresIn), .none)]
  | (.keepTaskAlive taskId expireTime now, .kept alive) =>
      [(.renew taskId (now + expireTime), .renewed alive)]
  | (.freeTask taskId, _) => [(.release taskId, .none)]
  | (.keepServantAlive servantInfo expireTime now, _) =>
      [(.heartbeat servantInfo.observedLocation (now + expireTime), .none)]
  | (.notifyServantRunningTasks location tasks, .unknownTasks ids) =>
      [(.report location (tasks.map RunningTask.taskGrantId), .refused ids)]
  | (.onTimerExpiration now, _) => [(.sweep now, .none)]
  | _ => []

/-! ### Parts of the book -/

section Parts

variable {s t : TaskDispatcher}

/-- The servant at a location, where locations are unique. -/
theorem Registered.findServant_iff (h : Registered s) {location : String} {p : ServantPtr} :
    s.findServant location = some p ↔ p ∈ s.servants ∧ s.locationOf p = location := by
  constructor
  · exact findServant_some
  · rintro ⟨hp, rfl⟩
    cases hfind : s.findServant (s.locationOf p) with
    | none => exact absurd rfl (findServant_none hfind p hp)
    | some q =>
        obtain ⟨hq, hloc⟩ := findServant_some hfind
        rw [h.eq_of_location hq hp hloc]

theorem Registered.holders_iff (h : Registered s) {location : String} {deadline : TimePoint} :
    (leases s).holders location = some deadline ↔
      ∃ p ∈ s.servants, s.locationOf p = location ∧ (s.heap p).expiresTp = deadline := by
  simp only [leases, Option.map_eq_some_iff, h.findServant_iff, and_assoc]

/-- The holders are the same if the servants, their locations and their deadlines are. -/
theorem holders_congr (hservants : t.servants = s.servants)
    (hlocation : ∀ p, t.locationOf p = s.locationOf p)
    (hexpires : ∀ p, (t.heap p).expiresTp = (s.heap p).expiresTp) :
    (leases t).holders = (leases s).holders := by
  funext location
  simp only [leases, TaskDispatcher.findServant, hservants, hlocation, hexpires]

/-- The terms are those of the entries, if no servant has moved. -/
theorem terms_eq (hlocation : ∀ p, t.locationOf p = s.locationOf p) (id : UInt64) :
    (leases t).terms id = (t.tasks.lookup id).map (Task.term s.locationOf) := by
  have hsame : t.locationOf = s.locationOf := funext hlocation
  rw [← hsame]
  rfl

/-- A servant that holds a term is registered at its location. -/
theorem Registered.holder_iff (h : Registered s) {id : UInt64} {task : Task} {p : ServantPtr}
    (hlook : s.tasks.lookup id = some task) (hp : p ∈ s.servants) :
    s.locationOf task.servant = s.locationOf p ↔ task.servant = p :=
  ⟨h.eq_of_location (h.assigned id task hlook) hp, fun heq => by rw [heq]⟩

end Parts

/-! ### The operations -/

section Operations

variable {s : TaskDispatcher}

/-- A grant under an id that is not in use. -/
theorem leases_startNewTask (hfresh : s.nextTaskId ∉ s.tasks) (p : ServantPtr) (taskInfo : TaskInfo)
    (expiresIn : Duration) (prefetching : Bool) (now : TimePoint) :
    leases (startNewTask s p taskInfo expiresIn prefetching now).1 =
      (leases s).next (.grant s.nextTaskId (s.locationOf p) (now + expiresIn)) := by
  have hlocation := startNewTask_locationOf s p taskInfo expiresIn prefetching now
  have hnone : s.tasks.lookup s.nextTaskId = none := AList.lookup_eq_none.2 hfresh
  refine Lease.Book.ext ?_ (funext fun id => ?_)
  · exact holders_congr rfl hlocation
      (startNewTask_field s p taskInfo expiresIn prefetching now Servant.expiresTp fun _ _ _ => rfl)
  · rw [terms_eq hlocation]
    simp only [Lease.Book.next, Function.update_apply]
    split_ifs with hid
    · subst hid
      have hinsert : (startNewTask s p taskInfo expiresIn prefetching now).1.tasks.lookup
          s.nextTaskId = some _ := AList.lookup_insert _
      have hzombie : ((s.tasks.lookup s.nextTaskId).map Task.isZombie).getD false = false := by
        rw [hnone]
        rfl
      rw [hinsert, Option.map_some]
      simp only [Task.term]
      exact congrArg some (congrArg (Lease.Term.mk (s.locationOf p) (now + expiresIn)) hzombie)
    · exact congrArg (Option.map _) (AList.lookup_insert_ne hid)

/-- A renewal. -/
theorem leases_keepTaskAlive (taskId : UInt64) (expireTime : Duration) (now : TimePoint) :
    leases (keepTaskAlive s taskId expireTime now).1 =
        (leases s).next (.renew taskId (now + expireTime)) ∧
      .renewed (keepTaskAlive s taskId expireTime now).2 =
        (leases s).answer (.renew taskId (now + expireTime)) := by
  have hsame : ∀ terms, terms = (leases s).terms taskId →
      leases s = { leases s with terms := Function.update (leases s).terms taskId terms } := by
    rintro terms rfl
    rw [Function.update_eq_self]
  rw [keepTaskAlive]
  cases hlook : s.tasks.lookup taskId with
  | none =>
      refine ⟨hsame _ ?_, ?_⟩
      · simp only [leases, hlook, Option.map_none]
      · simp only [Lease.Book.answer, Lease.Book.honours, leases, hlook, Option.map_none,
          Option.any_none]
  | some task =>
      have hterm : (leases s).terms taskId = some (task.term s.locationOf) := by
        simp only [leases, hlook, Option.map_some]
      have hlapsed : (task.term s.locationOf).lapsed = task.isZombie := rfl
      dsimp only
      by_cases hzombie : task.isZombie = true
      · rw [if_pos hzombie]
        refine ⟨hsame _ ?_, ?_⟩
        · rw [hterm, Option.map_some, if_pos (hlapsed.trans hzombie)]
        · simp only [Lease.Book.answer, Lease.Book.honours, hterm, Option.any_some, hlapsed,
            hzombie, Bool.not_true]
      · rw [if_neg hzombie]
        refine ⟨Lease.Book.ext rfl (funext fun id => ?_), ?_⟩
        · simp only [Lease.Book.next, Function.update_apply]
          split_ifs with hid
          · rw [hid, hterm, Option.map_some, if_neg (hlapsed ▸ hzombie)]
            exact congrArg (Option.map _) (AList.lookup_insert s.tasks)
          · exact congrArg (Option.map _) (AList.lookup_insert_ne hid)
        · simp only [Lease.Book.answer, Lease.Book.honours, hterm, Option.any_some, hlapsed,
            hzombie, Bool.not_false]

/-- A release, of an id that is known or not. -/
theorem leases_freeTask (taskId : UInt64) :
    leases (freeTask s taskId).1 = (leases s).next (.release taskId) := by
  rw [freeTask]
  have hlocation := unsafeFreeTask_locationOf s [taskId]
  refine Lease.Book.ext ?_ (funext fun id => ?_)
  · exact holders_congr (unsafeFreeTask_servants s [taskId]) hlocation fun p =>
      unsafeFreeTask_field (fun s => (s.heap p).expiresTp)
        (fun _ _ _ => releaseTask_expiresTp ..) s _
  · rw [terms_eq hlocation]
    simp only [Lease.Book.next, Function.update_apply]
    cases hlook : s.tasks.lookup taskId with
    | none =>
        simp only [unsafeFreeTask, hlook]
        split_ifs with hid
        · rw [hid, hlook, Option.map_none]
        · rfl
    | some task =>
        simp only [unsafeFreeTask, hlook]
        split_ifs with hid
        · rw [hid]
          exact congrArg (Option.map _) (AList.lookup_erase taskId s.tasks)
        · exact congrArg (Option.map _) (AList.lookup_erase_ne hid)

/-- A heartbeat, of a servant that is known or new. -/
theorem leases_keepServantAlive (h : Registered s) (servantInfo : ServantInfo)
    (expireTime : Duration) (now : TimePoint) :
    leases (keepServantAlive s servantInfo expireTime now).1 =
      (leases s).next (.heartbeat servantInfo.observedLocation (now + expireTime)) := by
  set t := (keepServantAlive s servantInfo expireTime now).1 with ht
  set p := (keepServantAlive s servantInfo expireTime now).2 with hp
  have hreg : Registered t := registered_keepServantAlive h servantInfo expireTime now
  have hself : t.locationOf p = servantInfo.observedLocation :=
    congrArg ServantInfo.observedLocation (keepServantAlive_infoOf s servantInfo expireTime now)
  have hexpires : (t.heap p).expiresTp = now + expireTime := by
    rw [ht, hp, keepServantAlive]
    split
    · rw [modifyServant_self]
    · simp only [Function.update_self]
  have hother : ∀ q, q ≠ p → t.heap q = s.heap q := fun q hq => keepServantAlive_of_ne hq
  -- the servant that was written is the only one at the location, before and after
  have hplace : ∀ q ∈ s.servants, s.locationOf q = servantInfo.observedLocation ↔ q = p := by
    intro q hq
    rcases keepServantAlive_written s servantInfo expireTime now with ⟨hfind, -⟩ | ⟨hfind, hnew, -⟩
    · obtain ⟨hmem, hloc⟩ := findServant_some hfind
      rw [← hloc]
      exact ⟨h.eq_of_location hq hmem, fun heq => by rw [heq]⟩
    · refine iff_of_false (findServant_none hfind q hq) fun heq => ?_
      have hlt := h.allocated q hq
      rw [heq, hp, hnew] at hlt
      exact lt_irrefl _ hlt
  have hlocation : ∀ q ∈ s.servants, t.locationOf q = s.locationOf q := by
    intro q hq
    by_cases heq : q = p
    · rw [heq, hself]
      rw [heq] at hq
      exact ((hplace p hq).2 rfl).symm
    · exact congrArg (fun servant => servant.servantInfo.observedLocation) (hother q heq)
  refine Lease.Book.ext (funext fun location => ?_) (funext fun id => ?_)
  · refine Option.ext fun deadline => ?_
    simp only [Lease.Book.next, Function.update_apply]
    rw [hreg.holders_iff]
    split_ifs with hloc
    · subst hloc
      rw [Option.some_inj]
      constructor
      · rintro ⟨q, hq, hqloc, rfl⟩
        have hmem : p ∈ t.servants := mem_keepServantAlive.2 (Or.inl rfl)
        rw [hreg.eq_of_location hq hmem (hqloc.trans hself.symm), hexpires]
      · rintro rfl
        exact ⟨p, mem_keepServantAlive.2 (Or.inl rfl), hself, hexpires⟩
    · rw [h.holders_iff]
      constructor
      · rintro ⟨q, hq, rfl, rfl⟩
        have hne : q ≠ p := by
          rintro rfl
          exact hloc hself
        have hold := (mem_keepServantAlive.1 hq).resolve_left hne
        exact ⟨q, hold, (hlocation q hold).symm, by rw [hother q hne]⟩
      · rintro ⟨q, hq, rfl, rfl⟩
        have hne : q ≠ p := fun heq => hloc ((hplace q hq).2 heq)
        exact ⟨q, mem_keepServantAlive.2 (Or.inr hq), hlocation q hq, by rw [hother q hne]⟩
  · have htasks : t.tasks = s.tasks := keepServantAlive_tasks s servantInfo expireTime now
    simp only [Lease.Book.next, leases, htasks]
    refine Option.map_congr fun task hlook => ?_
    simp only [Task.term, hlocation task.servant (h.assigned id task hlook)]

/-- No term is held at a location without a servant. -/
theorem Registered.holder_ne (h : Registered s) {location : String}
    (hfind : s.findServant location = none) {id : UInt64} {task : Task}
    (hlook : s.tasks.lookup id = some task) : (s.locationOf task.servant == location) = false :=
  beq_false_of_ne (findServant_none hfind _ (h.assigned id task hlook))

/-- A report, of a servant that is registered or not. -/
theorem leases_notify (h : Registered s) (location : String) (tasks : List RunningTask) :
    leases (notifyServantRunningTasks s location tasks).dispatcher =
        (leases s).next (.report location (tasks.map RunningTask.taskGrantId)) ∧
      .refused (notifyServantRunningTasks s location tasks).unknownTasks =
        (leases s).answer (.report location (tasks.map RunningTask.taskGrantId)) := by
  cases hfind : s.findServant location with
  | none =>
      have hnone : ∀ id, (leases s).permits location id = false := by
        intro id
        simp only [Lease.Book.permits, leases, Option.any_map]
        cases hlook : s.tasks.lookup id with
        | none => rfl
        | some task =>
            simp only [Option.any_some, Task.term, h.holder_ne hfind hlook, Bool.false_and]
      simp only [notifyServantRunningTasks, hfind]
      refine ⟨Lease.Book.ext rfl (funext fun id => ?_), ?_⟩
      · simp only [Lease.Book.next, leases]
        cases hlook : s.tasks.lookup id with
        | none => rfl
        | some task =>
            rw [Option.map_some, Option.filter_some]
            simp only [Task.term, h.holder_ne hfind hlook, Bool.false_and, Bool.not_false, if_true]
      · simp only [Lease.Book.answer, hnone, Bool.not_false, List.filter_true]
  | some p =>
      obtain ⟨hp, rfl⟩ := findServant_some hfind
      have hdone := notify_reconciled hfind tasks
      have hholder : ∀ {id task}, s.tasks.lookup id = some task →
          (s.locationOf task.servant == s.locationOf p) = (task.servant == p) := fun hlook => by
        rw [Bool.eq_iff_iff, beq_iff_eq, beq_iff_eq]
        exact h.holder_iff hlook hp
      have hheap : ∀ q, (notifyServantRunningTasks s (s.locationOf p) tasks).dispatcher.heap q =
          { s.heap q with runningTasks := ((notifyServantRunningTasks s (s.locationOf p)
              tasks).dispatcher.heap q).runningTasks } := by
        intro q
        by_cases hq : q = p
        · rw [hq, hdone.counted]
        · rw [hdone.others q hq]
      have hlocation : ∀ q, (notifyServantRunningTasks s (s.locationOf p)
          tasks).dispatcher.locationOf q = s.locationOf q := fun q =>
        congrArg (fun servant => servant.servantInfo.observedLocation) (hheap q)
      refine ⟨Lease.Book.ext ?_ (funext fun id => ?_), ?_⟩
      · exact holders_congr hdone.servants hlocation fun q => by rw [hheap q]
      · rw [terms_eq hlocation, hdone.removed]
        simp only [Lease.Book.next, leases]
        cases hlook : s.tasks.lookup id with
        | none => rfl
        | some task =>
            rw [Option.map_some, Option.filter_some, Option.filter_some]
            simp only [Task.term, hholder hlook, forgotten, h.keyed id task hlook]
            split <;> rfl
      · rw [hdone.returned]
        simp only [Lease.Book.answer]
        refine congrArg Lease.Answer.refused (List.filter_congr fun id _ => ?_)
        simp only [Lease.Book.permits, permitted, leases, Option.any_map]
        cases hlook : s.tasks.lookup id with
        | none => rfl
        | some task => simp only [Option.any_some, Task.term, hholder hlook]

/-- A sweep. -/
theorem leases_onTimerExpiration (h : Registered s) (now : TimePoint) :
    leases (onTimerExpiration s now).1 = (leases s).next (.sweep now) := by
  have hswept := onTimerExpiration_swept s now
  have hreg : Registered (onTimerExpiration s now).1 := registered_exec h (.onTimerExpiration now)
  have hmem : ∀ p, p ∈ (onTimerExpiration s now).1.servants ↔
      p ∈ s.servants ∧ now ≤ (s.heap p).expiresTp := by
    intro p
    rw [hswept.servants, List.mem_filter, decide_eq_true_eq]
  have hlocation : ∀ p ∈ (onTimerExpiration s now).1.servants,
      (onTimerExpiration s now).1.locationOf p = s.locationOf p := fun p hp =>
    congrArg (fun servant => servant.servantInfo.observedLocation) (hswept.survivors p hp)
  have hholders : (leases (onTimerExpiration s now).1).holders = (leases s).present now := by
    funext location
    refine Option.ext fun deadline => ?_
    rw [hreg.holders_iff, Lease.Book.present, Option.filter_eq_some_iff, h.holders_iff,
      decide_eq_true_eq]
    constructor
    · rintro ⟨p, hp, rfl, rfl⟩
      rw [hswept.survivors p hp, hlocation p hp]
      exact ⟨⟨p, ((hmem p).1 hp).1, rfl, rfl⟩, ((hmem p).1 hp).2⟩
    · rintro ⟨⟨p, hp, rfl, rfl⟩, hle⟩
      have hkept := (hmem p).2 ⟨hp, hle⟩
      exact ⟨p, hkept, hlocation p hkept, by rw [hswept.survivors p hkept]⟩
  refine Lease.Book.ext hholders (funext fun id => ?_)
  simp only [Lease.Book.next, leases, hswept.tasks id, Option.map_map]
  cases hlook : s.tasks.lookup id with
  | none => rfl
  | some task =>
      -- the term stays if its servant does
      have hstays : ((leases s).present now (s.locationOf task.servant)).isSome =
          (onTimerExpiration s now).1.servants.contains task.servant := by
        have hassigned := h.assigned id task hlook
        have hat : (leases s).holders (s.locationOf task.servant) =
            some (s.heap task.servant).expiresTp := h.holders_iff.2 ⟨_, hassigned, rfl, rfl⟩
        rw [Lease.Book.present, hat, Option.filter_some, Bool.eq_iff_iff, List.contains_iff_mem,
          hmem]
        by_cases hle : now ≤ (s.heap task.servant).expiresTp
        · simp [hle, hassigned]
        · simp [hle]
      rw [Option.map_some, Option.filter_some, Option.filter_some]
      have hterm : (task.term s.locationOf).holder = s.locationOf task.servant := rfl
      rw [hterm]
      simp only [leases] at hstays
      rw [hstays]
      split_ifs with hkept
      · rw [List.contains_iff_mem] at hkept
        simp only [Option.map_some, Function.comp_apply, Task.term, hlocation _ hkept]
      · rfl

theorem leases_rehash (taskRank : UInt64 → ℕ) (locationRank : String → ℕ) :
    leases (s.rehash taskRank locationRank) = leases s := by
  refine Lease.Book.ext rfl (funext fun id => ?_)
  exact congrArg (Option.map _) (Table.lookup_rehash taskRank s.tasks id)

/-- **An operation is the event it is seen as**, with the same answer, if it grants no id that is in
use. -/
theorem leases_exec (h : Registered s) (op : Op)
    (hfresh : ∀ allocation p, (exec s op).2 = .started (.granted allocation p) →
      s.nextTaskId ∉ s.tasks) :
    Lease.book.run (leases s) ((observed (op, (exec s op).2)).map Prod.fst) = leases (exec s op).1 ∧
      Lease.book.trace (leases s) ((observed (op, (exec s op).2)).map Prod.fst) =
        observed (op, (exec s op).2) := by
  cases op with
  | waitForStartingNewTask taskInfo expiresIn prefetching now =>
      rcases waitForStartingNewTask_cases s taskInfo expiresIn prefetching now with
        ⟨-, hresult⟩ | ⟨-, -, hresult⟩ | ⟨p, -, -, hresult⟩
      · simp only [exec, hresult]
        exact ⟨rfl, rfl⟩
      · simp only [exec, hresult]
        exact ⟨rfl, rfl⟩
      · have hunused := hfresh (startNewTask s p taskInfo expiresIn prefetching now).2 p
          (by simp only [exec, hresult])
        have hlocation : (startNewTask s p taskInfo expiresIn prefetching now).2.servantLocation =
            s.locationOf p := startNewTask_locationOf s p taskInfo expiresIn prefetching now p
        simp only [exec, hresult, observed, hlocation]
        exact ⟨(leases_startNewTask hunused p taskInfo expiresIn prefetching now).symm, rfl⟩
  | keepTaskAlive taskId expireTime now =>
      obtain ⟨hstate, hanswer⟩ := leases_keepTaskAlive (s := s) taskId expireTime now
      exact ⟨hstate.symm, congrArg (fun answer => [(_, answer)]) hanswer.symm⟩
  | freeTask taskId => exact ⟨(leases_freeTask taskId).symm, rfl⟩
  | keepServantAlive servantInfo expireTime now =>
      exact ⟨(leases_keepServantAlive h servantInfo expireTime now).symm, rfl⟩
  | notifyServantRunningTasks location tasks =>
      obtain ⟨hstate, hanswer⟩ := leases_notify h location tasks
      exact ⟨hstate.symm, congrArg (fun answer => [(_, answer)]) hanswer.symm⟩
  | onTimerExpiration now => exact ⟨(leases_onTimerExpiration h now).symm, rfl⟩
  | rehash taskRank locationRank => exact ⟨(leases_rehash taskRank locationRank).symm, rfl⟩

end Operations

/-! ### Whole runs -/

section Runs

/-- What is observed of a history. -/
def observedOf (tr : List (Op × Output)) :
    List (Lease.Event String UInt64 TimePoint × Lease.Answer UInt64) := tr.flatMap observed

/-- From any state that a history has led to: the rest of a run is seen as a run of the book. -/
theorem observed_run {tr : List (Op × Output)} {s : TaskDispatcher} (hreg : Registered s)
    (hissued : Issued tr s) (ops : List Op)
    (hle : (grantedIds (tr ++ dispatcher.trace s ops)).length ≤ 2 ^ 64) :
    Lease.book.run (leases s) ((observedOf (dispatcher.trace s ops)).map Prod.fst) =
        leases (dispatcher.run s ops) ∧
      Lease.book.trace (leases s) ((observedOf (dispatcher.trace s ops)).map Prod.fst) =
        observedOf (dispatcher.trace s ops) := by
  induction ops generalizing s tr with
  | nil => exact ⟨rfl, rfl⟩
  | cons op ops ih =>
      have hsplit : tr ++ dispatcher.trace s (op :: ops) =
          (tr ++ [(op, (exec s op).2)]) ++ dispatcher.trace (exec s op).1 ops := by
        rw [Machine.trace_cons, List.append_assoc]
        rfl
      have hcount : (grantedIds (tr ++ [(op, (exec s op).2)])).length ≤ 2 ^ 64 := by
        have happend : grantedIds (tr ++ dispatcher.trace s (op :: ops)) =
            grantedIds (tr ++ [(op, (exec s op).2)]) ++
              grantedIds (dispatcher.trace (exec s op).1 ops) := by
          rw [hsplit]
          exact List.filterMap_append
        rw [happend, List.length_append] at hle
        omega
      have hfresh : ∀ allocation p, (exec s op).2 = .started (.granted allocation p) →
          s.nextTaskId ∉ s.tasks := by
        intro allocation p hout
        rw [grantedIds_concat, hout, List.length_append] at hcount
        exact hissued.fresh (Nat.lt_of_succ_le hcount)
      obtain ⟨hstate, htrace⟩ := leases_exec hreg op hfresh
      obtain ⟨hrun, hrest⟩ := ih (registered_exec hreg op) (issued_exec hissued op)
        (by rw [← hsplit]; exact hle)
      have hobserved : observedOf (dispatcher.trace s (op :: ops)) =
          observed (op, (exec s op).2) ++ observedOf (dispatcher.trace (exec s op).1 ops) := by
        rw [Machine.trace_cons, observedOf, List.flatMap_cons]
        rfl
      rw [hobserved, List.map_append, Machine.run_append, Machine.trace_append, hstate, htrace,
        hrun, hrest]
      exact ⟨rfl, rfl⟩

/-- The empty dispatcher is the empty book. -/
theorem leases_init (minMemory : UInt64) : leases (.init minMemory) = {} := rfl

/-- **Every history of the dispatcher is one of a book of leases**: for as many grants as there are
ids, the operations with what they return are events of the book with its answers, and the state is
that of the book. -/
theorem scheduler_keeps_leases (minMemory : UInt64) (ops : List Op)
    (hle : (grantedIds (dispatcher.trace (.init minMemory) ops)).length ≤ 2 ^ 64) :
    let history := observedOf (dispatcher.trace (.init minMemory) ops)
    Lease.book.trace {} (history.map Prod.fst) = history ∧
      Lease.book.run {} (history.map Prod.fst) = leases (dispatcher.run (.init minMemory) ops) := by
  intro history
  obtain ⟨hrun, htrace⟩ := observed_run (registered_init minMemory) (issued_init minMemory) ops hle
  rw [leases_init] at hrun htrace
  exact ⟨htrace, hrun⟩

/-- The servant of `Scheduler.sampleRegister` reports the task it was granted, and is late then. -/
theorem scheduler_keeps_leases_late :
    let ops := [sampleRegister, sampleGrant,
      .notifyServantRunningTasks sampleInfo.observedLocation [reportOf sampleInfo.observedLocation],
      .onTimerExpiration (sec 11), .keepTaskAlive 0 (sec 10) (sec 12)]
    let history := observedOf (dispatcher.trace (.init 0) ops)
    history.map Prod.snd = [.none, .none, .refused [], .none, .renewed false] ∧
      Lease.book.trace {} (history.map Prod.fst) = history :=
  ⟨by decide +kernel, (scheduler_keeps_leases 0 _ (by decide +kernel)).1⟩

/-- A grant that is observed is one of the history. -/
theorem mem_grantedIds_of_observed {tr : List (Op × Output)} {key : UInt64}
    {event : Lease.Event String UInt64 TimePoint} (hevent : event ∈ (observedOf tr).map Prod.fst)
    (hgrants : event.grants key = true) : key ∈ grantedIds tr := by
  obtain ⟨⟨_, answer⟩, hmem, rfl⟩ := List.mem_map.1 hevent
  obtain ⟨⟨op, out⟩, htr, hobserved⟩ := List.mem_flatMap.1 hmem
  refine List.mem_filterMap.2 ⟨(op, out), htr, ?_⟩
  -- of all that is observed only the first case is a grant
  unfold observed at hobserved
  split at hobserved
  case h_1 allocation _ heq =>
    rw [List.mem_singleton] at hobserved
    cases hobserved
    cases heq
    exact congrArg some (eq_of_beq hgrants)
  case h_7 => cases hobserved
  all_goals
    rw [List.mem_singleton] at hobserved
    cases hobserved
    cases hgrants

/-- A grant, right after it was given: it is not lapsed, and its servant is there. -/
theorem leases_granted {s : TaskDispatcher} (h : Registered s) (hfresh : s.nextTaskId ∉ s.tasks)
    {taskInfo : TaskInfo} {expiresIn : Duration} {prefetching : Bool} {now : TimePoint}
    {allocation : TaskAllocation} {p : ServantPtr}
    (hgranted : (exec s (.waitForStartingNewTask taskInfo expiresIn prefetching now)).2 =
      .started (.granted allocation p)) :
    let t := (exec s (.waitForStartingNewTask taskInfo expiresIn prefetching now)).1
    (leases t).terms allocation.taskId =
        some { holder := allocation.servantLocation, deadline := now + expiresIn } ∧
      (leases t).holders allocation.servantLocation = some (s.heap p).expiresTp := by
  intro t
  rcases waitForStartingNewTask_cases s taskInfo expiresIn prefetching now with
    ⟨-, hresult⟩ | ⟨-, -, hresult⟩ | ⟨q, hq, -, hresult⟩
  · simp only [exec, hresult] at hgranted
    cases hgranted
  · simp only [exec, hresult] at hgranted
    cases hgranted
  · have ht : t = (startNewTask s q taskInfo expiresIn prefetching now).1 := by
      simp only [t, exec, hresult]
    simp only [exec, hresult] at hgranted
    cases hgranted
    have hlocation : (startNewTask s p taskInfo expiresIn prefetching now).2.servantLocation =
        s.locationOf p := startNewTask_locationOf s p taskInfo expiresIn prefetching now p
    rw [ht, hlocation, leases_startNewTask hfresh]
    refine ⟨Function.update_self .., ?_⟩
    exact h.holders_iff.2 ⟨p, (mem_freeServantsFor.1 hq).1, rfl, rfl⟩

/-- **When a grant is renewed.**  After a grant, and after whatever else the scheduler does, the
grant is renewed, and the servant that it names may run it, exactly if it survives what was observed
since: it has not been released, and every sweep came before the deadline of the grant, as it was
last renewed, and before that of the servant, as it was last heard of. -/
theorem renewed_iff_survives (minMemory : UInt64) (before after : List Op) (taskInfo : TaskInfo)
    (expiresIn : Duration) (prefetching : Bool) (now : TimePoint) {allocation : TaskAllocation}
    {p : ServantPtr}
    (hgranted : (exec (dispatcher.run (.init minMemory) before)
      (.waitForStartingNewTask taskInfo expiresIn prefetching now)).2 =
        .started (.granted allocation p))
    (hle : (grantedIds (dispatcher.trace (.init minMemory)
      (before ++ .waitForStartingNewTask taskInfo expiresIn prefetching now :: after))).length ≤
        2 ^ 64) :
    let s₀ := dispatcher.run (.init minMemory) before
    let s₁ := (exec s₀ (.waitForStartingNewTask taskInfo expiresIn prefetching now)).1
    let s := dispatcher.run s₁ after
    let survives := Lease.Survives allocation.taskId allocation.servantLocation (now + expiresIn)
      (s₀.heap p).expiresTp ((observedOf (dispatcher.trace s₁ after)).map Prod.fst)
    (∀ expireTime later, (keepTaskAlive s allocation.taskId expireTime later).2 = true ↔ survives) ∧
      ∀ tasks : List RunningTask, allocation.taskId ∈ tasks.map RunningTask.taskGrantId →
        (allocation.taskId ∉
            (notifyServantRunningTasks s allocation.servantLocation tasks).unknownTasks ↔
          survives) := by
  intro s₀ s₁ s survives
  have hreg₀ := registered_run minMemory before
  have hissued₀ := issued_run minMemory before
  set op := Op.waitForStartingNewTask taskInfo expiresIn prefetching now with hop
  have htrace : dispatcher.trace (.init minMemory) (before ++ op :: after) =
      (dispatcher.trace (.init minMemory) before ++ [(op, (exec s₀ op).2)]) ++
        dispatcher.trace s₁ after := by
    rw [Machine.trace_append, Machine.trace_cons, List.append_assoc]
    rfl
  have hids : grantedIds (dispatcher.trace (.init minMemory) (before ++ op :: after)) =
      grantedIds (dispatcher.trace (.init minMemory) before) ++
        allocation.taskId :: grantedIds (dispatcher.trace s₁ after) := by
    rw [htrace]
    refine List.filterMap_append.trans ?_
    rw [← grantedIds, grantedIds_concat, hgranted, List.append_assoc]
    rfl
  -- the id is not granted again
  have hagain : ∀ event ∈ (observedOf (dispatcher.trace s₁ after)).map Prod.fst,
      event.grants allocation.taskId = false := by
    intro event hevent
    by_contra hgrants
    have hmem := mem_grantedIds_of_observed hevent (Bool.not_eq_false _ ▸ hgrants)
    have hnodup := (issued_run minMemory (before ++ op :: after)).nodup hle
    rw [hids] at hnodup
    exact (List.nodup_cons.1 (List.nodup_append.1 hnodup).2.1).1 hmem
  have hfresh : s₀.nextTaskId ∉ s₀.tasks := by
    refine hissued₀.fresh ?_
    rw [hids, List.length_append, List.length_cons] at hle
    omega
  obtain ⟨hterm, hholder⟩ := leases_granted hreg₀ hfresh hgranted
  have hrun : Lease.book.run (leases s₁) ((observedOf (dispatcher.trace s₁ after)).map Prod.fst) =
      leases s :=
    (observed_run (registered_exec hreg₀ op) (issued_exec hissued₀ op) after
      (by rw [← htrace]; exact hle)).1
  have hhonours : (leases s).honours allocation.taskId = true ↔ survives := by
    rw [← hrun]
    exact Lease.Book.honours_run_iff hterm hholder hagain
  have hstays : ∀ t, (leases s).terms allocation.taskId = some t →
      t.holder = allocation.servantLocation := by
    intro t ht
    rw [← hrun] at ht
    refine Lease.Book.holder_run (fun t' ht' => ?_) hagain ht
    rw [hterm] at ht'
    exact (Option.some_inj.1 ht') ▸ rfl
  refine ⟨fun expireTime later => ?_, fun tasks hmem => ?_⟩
  · have hanswer := (leases_keepTaskAlive (s := s) allocation.taskId expireTime later).2
    rw [Lease.Answer.renewed.inj hanswer, hhonours]
  · have hreg : Registered s :=
      Machine.run_invariant (M := dispatcher) (P := Registered)
        (fun _ op h => registered_exec h op) (registered_exec hreg₀ op) after
    have hanswer := (leases_notify hreg allocation.servantLocation tasks).2
    rw [Lease.Answer.refused.inj hanswer, List.mem_filter, Lease.Book.permits_eq_honours hstays,
      ← hhonours]
    simp [hmem]

/-- A grant that is renewed and whose servant is heard of again, and the same grant without the
second heartbeat. -/
theorem renewed_iff_survives_late :
    let s₁ := dispatcher.run (.init 0) [sampleRegister, sampleGrant]
    let renewal := Op.keepTaskAlive 0 (sec 10) (sec 9)
    let heartbeat := Op.keepServantAlive sampleInfo (sec 10) (sec 9)
    let sweep := Op.onTimerExpiration (sec 11)
    (keepTaskAlive (dispatcher.run s₁ [renewal, heartbeat, sweep]) 0 (sec 10) (sec 12)).2 = true ∧
      (keepTaskAlive (dispatcher.run s₁ [renewal, sweep]) 0 (sec 10) (sec 12)).2 ≠ true := by
  intro s₁ renewal heartbeat sweep
  have hboth := renewed_iff_survives 0 [sampleRegister] [renewal, heartbeat, sweep] sampleTask
    (sec 10) false 0 rfl (by decide +kernel)
  have hone := renewed_iff_survives 0 [sampleRegister] [renewal, sweep] sampleTask
    (sec 10) false 0 rfl (by decide +kernel)
  refine ⟨(hboth.1 (sec 10) (sec 12)).2 ?_, fun hkept => ?_⟩
  · exact ⟨by decide, by decide, trivial⟩
  · have hlate := ((hone.1 (sec 10) (sec 12)).1 hkept).2.1
    exact absurd hlate (by decide)

end Runs

end Scheduler
