/-
**What an operation of the dispatcher can do.**

The six operations of `Distribuild/SchedulerDispatcher.lean` do many things, but seen as changes of
the state they are made of few moves.  A grant adds one task and raises one counter.  A heartbeat
rewrites one servant object or adds one.  Everything else — freeing, clearing zombies, expiry,
keeping alive, bookkeeping — is a sequence of *quiet* moves: release one task, touch the deadlines
and flags of tasks, drop servants that hold no task, write the bookkeeper.

`Scheduler.exec_cases` says so once, and the invariants of the following modules are proved move
by move.

Main definitions:

* `Scheduler.TaskDispatcher.load` — the number of entries of `tasks_` whose servant is a given
  object;
* `Scheduler.Quiet` — the quiet moves.

Main results:

* `Scheduler.lookup_unsafeFreeTask` — freeing distinct known ids removes exactly these;
* `Scheduler.unsafeFreeTask_quiet`, `Scheduler.onTimerExpiration_quiet`,
  `Scheduler.notifyServantRunningTasks_quiet` — the bulk operations are quiet;
* `Scheduler.exec_cases` — **every operation is a grant, a heartbeat or quiet**.
-/

import Distribuild.SchedulerPick
import Mathlib.Logic.Relation

set_option relaxedAutoImplicit false
set_option autoImplicit false

namespace Scheduler

open Relation (ReflTransGen)

/-! ### Objects and their load -/

/-- The number of entries of `tasks_` whose servant is the object `p`. -/
def TaskDispatcher.load (s : TaskDispatcher) (p : ServantPtr) : ℕ :=
  s.tasks.tally fun task => decide (task.servant = p)

@[simp] theorem modifyServant_self (s : TaskDispatcher) (p : ServantPtr) (f : Servant → Servant) :
    (s.modifyServant p f).heap p = f (s.heap p) := Function.update_self ..

theorem modifyServant_of_ne {s : TaskDispatcher} {p q : ServantPtr} (f : Servant → Servant)
    (h : q ≠ p) : (s.modifyServant p f).heap q = s.heap q := Function.update_of_ne h ..

/-- A field that `f` leaves alone has its old value in every object. -/
theorem modifyServant_field {α : Type*} (field : Servant → α) (s : TaskDispatcher)
    (p q : ServantPtr) {f : Servant → Servant} (h : field (f (s.heap p)) = field (s.heap p)) :
    field ((s.modifyServant p f).heap q) = field (s.heap q) := by
  by_cases hq : q = p
  · rw [hq, modifyServant_self, h]
  · rw [modifyServant_of_ne f hq]

@[simp] theorem modifyServant_servants (s : TaskDispatcher) (p : ServantPtr)
    (f : Servant → Servant) : (s.modifyServant p f).servants = s.servants := rfl

theorem findServant_some {s : TaskDispatcher} {location : String} {p : ServantPtr}
    (h : s.findServant location = some p) : p ∈ s.servants ∧ s.locationOf p = location :=
  ⟨List.mem_of_find?_eq_some h, by simpa using List.find?_some h⟩

theorem findServant_none {s : TaskDispatcher} {location : String}
    (h : s.findServant location = none) : ∀ p ∈ s.servants, s.locationOf p ≠ location := by
  intro p hp
  simpa using List.find?_eq_none.1 h p hp

/-! ### Heartbeats -/

section KeepServantAlive

variable (s : TaskDispatcher) (servantInfo : ServantInfo) (expireTime : Duration)
  (now : TimePoint)

@[simp] theorem keepServantAlive_tasks :
    (keepServantAlive s servantInfo expireTime now).1.tasks = s.tasks := by
  unfold keepServantAlive
  split <;> rfl

@[simp] theorem keepServantAlive_nextTaskId :
    (keepServantAlive s servantInfo expireTime now).1.nextTaskId = s.nextTaskId := by
  unfold keepServantAlive
  split <;> rfl

/-- **The object that a heartbeat writes** is the one found at the location, which keeps its
counter, or a new one. -/
theorem keepServantAlive_written :
    (s.findServant servantInfo.observedLocation =
        some (keepServantAlive s servantInfo expireTime now).2 ∧
      ((keepServantAlive s servantInfo expireTime now).1.heap
        (keepServantAlive s servantInfo expireTime now).2).runningTasks =
          (s.heap (keepServantAlive s servantInfo expireTime now).2).runningTasks) ∨
    (s.findServant servantInfo.observedLocation = none ∧
      (keepServantAlive s servantInfo expireTime now).2 = s.heapTop ∧
      ((keepServantAlive s servantInfo expireTime now).1.heap
        (keepServantAlive s servantInfo expireTime now).2).runningTasks = 0) := by
  unfold keepServantAlive
  cases hfind : s.findServant servantInfo.observedLocation with
  | some p => exact Or.inl ⟨rfl, by simp only [modifyServant_self]⟩
  | none => exact Or.inr ⟨rfl, rfl, by simp only [Function.update_self]⟩

/-- It carries the new information. -/
theorem keepServantAlive_infoOf :
    (keepServantAlive s servantInfo expireTime now).1.infoOf
      (keepServantAlive s servantInfo expireTime now).2 = servantInfo := by
  unfold keepServantAlive
  cases hfind : s.findServant servantInfo.observedLocation with
  | some p => simp only [TaskDispatcher.infoOf, modifyServant_self]
  | none => simp only [TaskDispatcher.infoOf, Function.update_self]

variable {s servantInfo expireTime now}

/-- No other object is written. -/
theorem keepServantAlive_of_ne {q : ServantPtr}
    (h : q ≠ (keepServantAlive s servantInfo expireTime now).2) :
    (keepServantAlive s servantInfo expireTime now).1.heap q = s.heap q := by
  unfold keepServantAlive at h ⊢
  cases hfind : s.findServant servantInfo.observedLocation with
  | some p =>
      simp only [hfind] at h
      simp only [modifyServant_of_ne _ h]
  | none =>
      simp only [hfind] at h
      exact Function.update_of_ne h ..

/-- The servants after a heartbeat. -/
theorem mem_keepServantAlive {q : ServantPtr} :
    q ∈ (keepServantAlive s servantInfo expireTime now).1.servants ↔
      q = (keepServantAlive s servantInfo expireTime now).2 ∨ q ∈ s.servants := by
  unfold keepServantAlive
  cases hfind : s.findServant servantInfo.observedLocation with
  | some p =>
      have hp : p ∈ s.servants := (findServant_some hfind).1
      refine ⟨Or.inr, fun h => ?_⟩
      rcases h with rfl | hq
      · exact hp
      · exact hq
  | none => simp only [List.mem_append, List.mem_singleton, or_comm]

end KeepServantAlive

/-! ### Starting a task -/

section StartNewTask

variable (s : TaskDispatcher) (p : ServantPtr) (taskInfo : TaskInfo) (expiresIn : Duration)
  (prefetching : Bool) (now : TimePoint)

@[simp] theorem startNewTask_servants :
    (startNewTask s p taskInfo expiresIn prefetching now).1.servants = s.servants := rfl

@[simp] theorem startNewTask_nextTaskId :
    (startNewTask s p taskInfo expiresIn prefetching now).1.nextTaskId = s.nextTaskId + 1 := rfl

theorem startNewTask_heap :
    (startNewTask s p taskInfo expiresIn prefetching now).1.heap =
      Function.update s.heap p { s.heap p with
        runningTasks := (s.heap p).runningTasks + 1
        assignedTasks := (s.heap p).assignedTasks + 1 } := rfl

/-- A grant changes nothing in the servant objects but two counters. -/
theorem startNewTask_field {α : Type*} (field : Servant → α)
    (h : ∀ servant m n, field { servant with runningTasks := m, assignedTasks := n } =
      field servant) (q : ServantPtr) :
    field ((startNewTask s p taskInfo expiresIn prefetching now).1.heap q) = field (s.heap q) := by
  rw [startNewTask_heap]
  by_cases hq : q = p
  · rw [hq, Function.update_self, h]
  · rw [Function.update_of_ne hq]

@[simp] theorem startNewTask_infoOf (q : ServantPtr) :
    (startNewTask s p taskInfo expiresIn prefetching now).1.infoOf q = s.infoOf q :=
  startNewTask_field s p taskInfo expiresIn prefetching now Servant.servantInfo
    (fun _ _ _ => rfl) q

@[simp] theorem startNewTask_locationOf (q : ServantPtr) :
    (startNewTask s p taskInfo expiresIn prefetching now).1.locationOf q = s.locationOf q :=
  congrArg ServantInfo.observedLocation
    (startNewTask_infoOf s p taskInfo expiresIn prefetching now q)

theorem startNewTask_runningTasks (q : ServantPtr) :
    ((startNewTask s p taskInfo expiresIn prefetching now).1.heap q).runningTasks =
      if p = q then (s.heap q).runningTasks + 1 else (s.heap q).runningTasks := by
  rw [startNewTask_heap]
  split
  next hq => rw [hq, Function.update_self]
  next hq => rw [Function.update_of_ne (Ne.symm hq)]

/-- The new entry of `tasks_`, and the old ones. -/
theorem startNewTask_lookup (id : UInt64) :
    ∃ task : Task, task.taskId = s.nextTaskId ∧ task.servant = p ∧
      (startNewTask s p taskInfo expiresIn prefetching now).1.tasks =
        s.tasks.insert s.nextTaskId task ∧
      (startNewTask s p taskInfo expiresIn prefetching now).1.tasks.lookup id =
        if id = s.nextTaskId then some task else s.tasks.lookup id := by
  refine ⟨_, rfl, rfl, rfl, ?_⟩
  split
  next hid => rw [hid]; exact AList.lookup_insert _
  next hid => exact AList.lookup_insert_ne hid

end StartNewTask

/-! ### Releasing tasks -/

@[simp] theorem releaseTask_tasks (s : TaskDispatcher) (id : UInt64) (task : Task) :
    (releaseTask s id task).tasks = s.tasks.erase id := rfl

@[simp] theorem releaseTask_servants (s : TaskDispatcher) (id : UInt64) (task : Task) :
    (releaseTask s id task).servants = s.servants := rfl

theorem releaseTask_heap (s : TaskDispatcher) (id : UInt64) (task : Task) :
    (releaseTask s id task).heap = Function.update s.heap task.servant
      { s.heap task.servant with runningTasks := (s.heap task.servant).runningTasks - 1 } := rfl

/-- A release changes nothing in the servant objects but a counter. -/
theorem releaseTask_field {α : Type*} (field : Servant → α)
    (h : ∀ servant n, field { servant with runningTasks := n } = field servant)
    (s : TaskDispatcher) (id : UInt64) (task : Task) (p : ServantPtr) :
    field ((releaseTask s id task).heap p) = field (s.heap p) := by
  rw [releaseTask_heap]
  by_cases hp : p = task.servant
  · rw [hp, Function.update_self, h]
  · rw [Function.update_of_ne hp]

@[simp] theorem releaseTask_infoOf (s : TaskDispatcher) (id : UInt64) (task : Task)
    (p : ServantPtr) : (releaseTask s id task).infoOf p = s.infoOf p :=
  releaseTask_field Servant.servantInfo (fun _ _ => rfl) s id task p

@[simp] theorem releaseTask_locationOf (s : TaskDispatcher) (id : UInt64) (task : Task)
    (p : ServantPtr) : (releaseTask s id task).locationOf p = s.locationOf p :=
  congrArg ServantInfo.observedLocation (releaseTask_infoOf s id task p)

@[simp] theorem releaseTask_expiresTp (s : TaskDispatcher) (id : UInt64) (task : Task)
    (p : ServantPtr) : ((releaseTask s id task).heap p).expiresTp = (s.heap p).expiresTp :=
  releaseTask_field Servant.expiresTp (fun _ _ => rfl) s id task p

/-- What no release changes, `UnsafeFreeTask` does not change. -/
theorem unsafeFreeTask_field {α : Type*} (field : TaskDispatcher → α)
    (h : ∀ s id task, field (releaseTask s id task) = field s) (s : TaskDispatcher)
    (ids : List UInt64) : field (unsafeFreeTask s ids).1 = field s := by
  induction ids generalizing s with
  | nil => rfl
  | cons id ids ih =>
      cases hid : s.tasks.lookup id with
      | none => simp only [unsafeFreeTask, hid]
      | some task => simp only [unsafeFreeTask, hid, ih, h]

@[simp] theorem unsafeFreeTask_servants (s : TaskDispatcher) (ids : List UInt64) :
    (unsafeFreeTask s ids).1.servants = s.servants :=
  unsafeFreeTask_field TaskDispatcher.servants (fun _ _ _ => rfl) s ids

/-- No release moves a servant. -/
@[simp] theorem unsafeFreeTask_locationOf (s : TaskDispatcher) (ids : List UInt64)
    (p : ServantPtr) : (unsafeFreeTask s ids).1.locationOf p = s.locationOf p :=
  unsafeFreeTask_field (fun s => s.locationOf p) (fun _ _ _ => releaseTask_locationOf ..) s ids

@[simp] theorem unsafeFreeTask_findServant (s : TaskDispatcher) (ids : List UInt64)
    (location : String) : (unsafeFreeTask s ids).1.findServant location = s.findServant location := by
  simp only [TaskDispatcher.findServant, unsafeFreeTask_servants, unsafeFreeTask_locationOf]

/-- Freeing ids that are all known, each once, goes through the whole list and removes exactly
these. -/
theorem lookup_unsafeFreeTask {s : TaskDispatcher} {ids : List UInt64} (hnd : ids.Nodup)
    (hknown : ∀ id ∈ ids, id ∈ s.tasks) :
    (unsafeFreeTask s ids).2 = true ∧
      ∀ k, (unsafeFreeTask s ids).1.tasks.lookup k =
        if k ∈ ids then none else s.tasks.lookup k := by
  induction ids generalizing s with
  | nil => simp [unsafeFreeTask]
  | cons id ids ih =>
      obtain ⟨task, htask⟩ := Table.mem_iff_lookup.1 (hknown id List.mem_cons_self)
      have hnotin : id ∉ ids := (List.nodup_cons.1 hnd).1
      have hknown' : ∀ k ∈ ids, k ∈ (releaseTask s id task).tasks := by
        intro k hk
        rw [releaseTask_tasks, AList.mem_erase]
        exact ⟨fun h => hnotin (h ▸ hk), hknown k (List.mem_cons_of_mem _ hk)⟩
      obtain ⟨hall, hlook⟩ := ih (List.nodup_cons.1 hnd).2 hknown'
      have hrec : unsafeFreeTask s (id :: ids) = unsafeFreeTask (releaseTask s id task) ids := by
        simp only [unsafeFreeTask, htask]
      rw [hrec]
      refine ⟨hall, fun k => ?_⟩
      rw [hlook k, releaseTask_tasks]
      by_cases hk : k = id
      · subst hk
        simp [hnotin]
      · simp only [List.mem_cons, hk, false_or, AList.lookup_erase_ne hk]

/-- A free that goes through the whole list of known ids says so to the sleeping callers. -/
theorem unsafeFreeTask_keysWhere (s : TaskDispatcher) (p : UInt64 → Task → Bool) :
    (unsafeFreeTask s (s.tasks.keysWhere p)).2 = true ∧
      ∀ k, (unsafeFreeTask s (s.tasks.keysWhere p)).1.tasks.lookup k =
        if k ∈ s.tasks.keysWhere p then none else s.tasks.lookup k :=
  lookup_unsafeFreeTask (Table.nodup_keysWhere _ _) fun _ hid =>
    Table.mem_iff_lookup.2 ((Table.mem_keysWhere.1 hid).imp fun _ h => h.1)

/-! ### Quiet moves -/

/-- What the code never changes in an entry of `tasks_`: its id and its servant. -/
def Task.identity (task : Task) : UInt64 × ServantPtr := (task.taskId, task.servant)

/-- **The quiet moves**: those that neither grant a task nor write a servant's information. -/
inductive Quiet : TaskDispatcher → TaskDispatcher → Prop
  /-- One task is erased and the counter of its servant lowered. -/
  | release {s : TaskDispatcher} {id : UInt64} {task : Task}
      (h : s.tasks.lookup id = some task) : Quiet s (releaseTask s id task)
  /-- Deadlines and flags of tasks change, or the iteration order. -/
  | touch {s : TaskDispatcher} (tasks : Table UInt64 Task)
      (h : ∀ id, (tasks.lookup id).map Task.identity = (s.tasks.lookup id).map Task.identity) :
      Quiet s { s with tasks := tasks }
  /-- Expired servants are dropped, once no task is assigned to one of them. -/
  | drop {s : TaskDispatcher} (now : TimePoint)
      (h : ∀ id task, s.tasks.lookup id = some task →
        task.servant ∈ (expireServants s now).servants) : Quiet s (expireServants s now)
  /-- The bookkeeper records a report of a registered servant. -/
  | book {s : TaskDispatcher} {p : ServantPtr} {location : String} (tasks : List RunningTask)
      (hfind : s.findServant location = some p)
      (h : ∀ t ∈ tasks, t.taskGrantId ∈ permittedTaskIds s p) :
      Quiet s { s with
        runningTaskBookkeeper := s.runningTaskBookkeeper.setRunningTask location tasks }
  /-- The bookkeeper is iterated in another order. -/
  | rebook {s : TaskDispatcher} (locationRank : String → ℕ) :
      Quiet s { s with
        runningTaskBookkeeper :=
          { runningTasks := Table.rehash locationRank s.runningTaskBookkeeper.runningTasks } }

/-- What every quiet move preserves, a sequence of them preserves. -/
theorem quiet_invariant {P : TaskDispatcher → Prop} (hquiet : ∀ s t, Quiet s t → P s → P t)
    {s t : TaskDispatcher} (h : ReflTransGen Quiet s t) (hs : P s) : P t := by
  induction h with
  | refl => exact hs
  | tail _ hmove ih => exact hquiet _ _ hmove ih

/-- A quiet move issues no id and adds no task. -/
theorem quiet_keys {s t : TaskDispatcher} (hmove : Quiet s t) :
    t.nextTaskId = s.nextTaskId ∧ ∀ id ∈ t.tasks, id ∈ s.tasks := by
  cases hmove with
  | release htask => exact ⟨rfl, fun id hid => (AList.mem_erase.1 hid).2⟩
  | touch tasks htasks =>
      refine ⟨rfl, fun id hid => ?_⟩
      obtain ⟨task, htask⟩ := Table.mem_iff_lookup.1 hid
      have hid := htasks id
      rw [htask] at hid
      obtain ⟨task₀, h₀, -⟩ := Option.map_eq_some_iff.1 hid.symm
      exact Table.mem_iff_lookup.2 ⟨task₀, h₀⟩
  | drop now hnow => exact ⟨rfl, fun _ hid => hid⟩
  | book tasks hfind hperm => exact ⟨rfl, fun _ hid => hid⟩
  | rebook locationRank => exact ⟨rfl, fun _ hid => hid⟩

theorem unsafeFreeTask_quiet (s : TaskDispatcher) (ids : List UInt64) :
    ReflTransGen Quiet s (unsafeFreeTask s ids).1 := by
  induction ids generalizing s with
  | nil => exact ReflTransGen.refl
  | cons id ids ih =>
      cases h : s.tasks.lookup id with
      | none => simpa only [unsafeFreeTask, h] using ReflTransGen.refl
      | some task =>
          simpa only [unsafeFreeTask, h] using ReflTransGen.head (Quiet.release h) (ih _)

theorem keepTaskAlive_quiet (s : TaskDispatcher) (taskId : UInt64) (expireTime : Duration)
    (now : TimePoint) : ReflTransGen Quiet s (keepTaskAlive s taskId expireTime now).1 := by
  unfold keepTaskAlive
  split
  · exact ReflTransGen.refl
  next task htask =>
    split
    · exact ReflTransGen.refl
    · refine ReflTransGen.single (Quiet.touch _ fun id => ?_)
      by_cases hid : id = taskId
      · rw [hid, AList.lookup_insert, htask]
        rfl
      · rw [AList.lookup_insert_ne hid]

/-- Releasing a task and dropping expired servants do not interfere. -/
theorem releaseTask_expireServants (s : TaskDispatcher) (now : TimePoint) (id : UInt64)
    (task : Task) :
    releaseTask (expireServants s now) id task = expireServants (releaseTask s id task) now := by
  simp only [expireServants, releaseTask_expiresTp, releaseTask_locationOf]
  rfl

theorem unsafeFreeTask_expireServants (s : TaskDispatcher) (now : TimePoint)
    (ids : List UInt64) :
    (unsafeFreeTask (expireServants s now) ids).1 =
      expireServants (unsafeFreeTask s ids).1 now := by
  induction ids generalizing s with
  | nil => rfl
  | cons id ids ih =>
      have htasks : (expireServants s now).tasks = s.tasks := rfl
      cases h : s.tasks.lookup id with
      | none => simp only [unsafeFreeTask, htasks, h]
      | some task =>
          simp only [unsafeFreeTask, htasks, h, releaseTask_expireServants, ih]

theorem markZombies_quiet (s : TaskDispatcher) (now : TimePoint) :
    Quiet s (markZombies s now) := by
  refine Quiet.touch _ fun id => ?_
  rw [Table.lookup_mapVal, Option.map_map]
  rfl

theorem onTimerExpiration_quiet (s : TaskDispatcher) (now : TimePoint) :
    ReflTransGen Quiet s (onTimerExpiration s now).1 := by
  -- the code drops the servants first and frees their tasks afterwards; the other order comes to
  -- the same and never leaves a task without a servant
  set freed := (unsafeFreeTask s (orphans (expireServants s now))).1 with hfreed
  have hstate : (onTimerExpiration s now).1 = markZombies (expireServants freed now) now := by
    rw [hfreed, ← unsafeFreeTask_expireServants]
    rfl
  have hsame : (unsafeFreeTask (expireServants s now) (orphans (expireServants s now))).1 =
      expireServants freed now := unsafeFreeTask_expireServants ..
  have hdrop : Quiet freed (expireServants freed now) := by
    refine Quiet.drop now fun id task htask => ?_
    have hrest := (unsafeFreeTask_keysWhere (expireServants s now) fun _ task =>
      !(expireServants s now).servants.contains task.servant).2 id
    change (unsafeFreeTask (expireServants s now) (orphans (expireServants s now))).1.tasks.lookup
      id = _ at hrest
    rw [hsame] at hrest
    change freed.tasks.lookup id = _ at hrest
    rw [htask] at hrest
    rw [← hsame, unsafeFreeTask_servants]
    by_contra hnot
    -- a task of a dropped servant would have been among the orphans
    split at hrest
    · cases hrest
    next hkept =>
      exact hkept (Table.mem_keysWhere.2 ⟨task, hrest.symm, by simpa using hnot⟩)
  rw [hstate]
  exact ((unsafeFreeTask_quiet s _).tail hdrop).tail (markZombies_quiet _ _)

theorem notifyServantRunningTasks_quiet (s : TaskDispatcher) (servantLocation : String)
    (tasks : List RunningTask) :
    ReflTransGen Quiet s (notifyServantRunningTasks s servantLocation tasks).dispatcher := by
  unfold notifyServantRunningTasks
  cases hfind : s.findServant servantLocation with
  | none => exact ReflTransGen.refl
  | some p =>
      refine (unsafeFreeTask_quiet s _).tail (Quiet.book _ (p := p) ?_ ?_)
      · exact (unsafeFreeTask_findServant ..).trans hfind
      · intro t ht
        exact List.contains_iff_mem.1 (List.mem_filter.1 ht).2

theorem rehash_quiet (s : TaskDispatcher) (taskRank : UInt64 → ℕ) (locationRank : String → ℕ) :
    ReflTransGen Quiet s (s.rehash taskRank locationRank) := by
  refine (ReflTransGen.single (Quiet.touch (Table.rehash taskRank s.tasks) ?_)).tail
    (Quiet.rebook locationRank)
  intro id
  rw [Table.lookup_rehash]

/-! ### Every operation -/

/-- An operation that neither granted a task nor wrote a servant object. -/
def Output.Silent (o : Output) : Prop :=
  (∀ allocation p, o ≠ .started (.granted allocation p)) ∧ ∀ p, o ≠ .wrote p

/-- **Every operation is a grant, a heartbeat or quiet.** -/
theorem exec_cases (s : TaskDispatcher) (op : Op) :
    (∃ taskInfo expiresIn prefetching now, ∃ p ∈ freeServantsFor s taskInfo,
      op = .waitForStartingNewTask taskInfo expiresIn prefetching now ∧
      exec s op = ((startNewTask s p taskInfo expiresIn prefetching now).1,
        .started (.granted (startNewTask s p taskInfo expiresIn prefetching now).2 p))) ∨
    (∃ servantInfo expireTime now, op = .keepServantAlive servantInfo expireTime now) ∨
    ((exec s op).2.Silent ∧ ReflTransGen Quiet s (exec s op).1) := by
  cases op with
  | waitForStartingNewTask taskInfo expiresIn prefetching now =>
      rcases waitForStartingNewTask_cases s taskInfo expiresIn prefetching now with
        ⟨-, h⟩ | ⟨-, -, h⟩ | ⟨p, hp, -, h⟩
      · exact Or.inr (Or.inr (by simp [exec, h, Output.Silent, ReflTransGen.refl]))
      · exact Or.inr (Or.inr (by simp [exec, h, Output.Silent, ReflTransGen.refl]))
      · exact Or.inl ⟨taskInfo, expiresIn, prefetching, now, p, hp, rfl, by simp only [exec, h]⟩
  | keepTaskAlive taskId expireTime now =>
      exact Or.inr (Or.inr ⟨by simp [exec, Output.Silent], keepTaskAlive_quiet ..⟩)
  | freeTask taskId =>
      exact Or.inr (Or.inr ⟨by simp [exec, Output.Silent], unsafeFreeTask_quiet ..⟩)
  | keepServantAlive servantInfo expireTime now =>
      exact Or.inr (Or.inl ⟨servantInfo, expireTime, now, rfl⟩)
  | notifyServantRunningTasks servantLocation tasks =>
      exact Or.inr (Or.inr ⟨by simp [exec, Output.Silent], notifyServantRunningTasks_quiet ..⟩)
  | onTimerExpiration now =>
      exact Or.inr (Or.inr ⟨by simp [exec, Output.Silent], onTimerExpiration_quiet ..⟩)
  | rehash taskRank locationRank =>
      exact Or.inr (Or.inr ⟨by simp [exec, Output.Silent], rehash_quiet ..⟩)

end Scheduler
