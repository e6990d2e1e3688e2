/-
**What a servant is permitted to run.**

When a servant reports its tasks, `NotifyServantRunningTasks` answers with those it is not permitted
to run, and the servant kills them.  A grant is permitted if it is in `tasks_`, on the servant that
is registered at the reported location, and no zombie.  This module follows that property through
the operations of the scheduler: it begins with the grant, and it ends with `FreeTask`, with the
expiry of the grant or of its servant, or with another grant that gets the same id.

Main definitions:

* `Scheduler.Permitted` — the grant is permitted on the servant at a location;
* `Scheduler.standing` — where a grant is, and whether it is a zombie;
* `Scheduler.Spares` — the step of the scheduler does not end the permission of a grant.

Main results:

* `Scheduler.not_permitted_of_unknown` — only what is not permitted is reported as unknown;
* `Scheduler.Permitted.next`, `Scheduler.permitted_of_next` — **how a permission ends, and how it
  begins**.
-/

import Distribuild.SchedulerHeartbeat

set_option relaxedAutoImplicit false
set_option autoImplicit false

namespace Scheduler

/-! ### Permissions -/

/-- The grant is among those that `NotifyServantRunningTasks` permits at a location. -/
def Permitted (s : TaskDispatcher) (location : String) (id : UInt64) : Prop :=
  ∃ p ∈ s.findServant location, id ∈ permittedTaskIds s p

instance (s : TaskDispatcher) (location : String) (id : UInt64) :
    Decidable (Permitted s location id) :=
  inferInstanceAs (Decidable (∃ p ∈ s.findServant location, id ∈ permittedTaskIds s p))

/-- Where a grant is, and whether it is a zombie. -/
def standing (s : TaskDispatcher) (id : UInt64) : Option (String × Bool) :=
  (s.tasks.lookup id).map fun task => (s.locationOf task.servant, task.isZombie)

theorem mem_permittedTaskIds {s : TaskDispatcher} {p : ServantPtr} {id : UInt64} :
    id ∈ permittedTaskIds s p ↔
      ∃ task, s.tasks.lookup id = some task ∧ task.servant = p ∧ task.isZombie = false := by
  rw [permittedTaskIds, Table.mem_keysWhere]
  simp

theorem permitted_iff {s : TaskDispatcher} (h : Registered s) {location : String} {id : UInt64} :
    Permitted s location id ↔ standing s id = some (location, false) := by
  unfold standing
  rw [Option.map_eq_some_iff]
  constructor
  · rintro ⟨p, hfind, hmem⟩
    obtain ⟨task, hlook, rfl, hzombie⟩ := mem_permittedTaskIds.1 hmem
    exact ⟨task, hlook, Prod.ext (findServant_some hfind).2 hzombie⟩
  · rintro ⟨task, hlook, heq⟩
    refine ⟨task.servant, ?_, mem_permittedTaskIds.2 ⟨task, hlook, rfl, congrArg Prod.snd heq⟩⟩
    rw [← show s.locationOf task.servant = location from congrArg Prod.fst heq]
    exact h.findServant (h.assigned id task hlook)

/-! ### What the operations do to it -/

theorem standing_freeTask (s : TaskDispatcher) (taskId id : UInt64) :
    standing (freeTask s taskId).1 id = if id = taskId then none else standing s id := by
  have hlook : (freeTask s taskId).1.tasks.lookup id =
      if id = taskId then none else s.tasks.lookup id := by
    cases htask : s.tasks.lookup taskId with
    | none =>
        simp only [freeTask, unsafeFreeTask, htask]
        split
        next heq => rw [heq, htask]
        next => rfl
    | some task =>
        simp only [freeTask, unsafeFreeTask, htask, releaseTask_tasks]
        split
        next heq => rw [heq, AList.lookup_erase]
        next hne => rw [AList.lookup_erase_ne hne]
  unfold standing
  rw [hlook]
  split
  · rfl
  · simp only [freeTask, unsafeFreeTask_locationOf]

theorem standing_keepTaskAlive (s : TaskDispatcher) (taskId : UInt64) (expireTime : Duration)
    (now : TimePoint) (id : UInt64) :
    standing (keepTaskAlive s taskId expireTime now).1 id = standing s id := by
  unfold keepTaskAlive
  split
  · rfl
  next task htask =>
    split
    · rfl
    · unfold standing
      by_cases hid : id = taskId
      · rw [hid, AList.lookup_insert, htask]
        rfl
      · rw [AList.lookup_insert_ne hid]
        rfl

theorem standing_rehash (s : TaskDispatcher) (taskRank : UInt64 → ℕ) (locationRank : String → ℕ)
    (id : UInt64) : standing (s.rehash taskRank locationRank) id = standing s id := by
  simp only [standing, TaskDispatcher.rehash, Table.lookup_rehash]
  rfl

/-- A heartbeat moves no servant. -/
theorem keepServantAlive_locationOf {s : TaskDispatcher} (h : Registered s)
    (servantInfo : ServantInfo) (expireTime : Duration) (now : TimePoint) {q : ServantPtr}
    (hq : q ∈ s.servants) :
    (keepServantAlive s servantInfo expireTime now).1.locationOf q = s.locationOf q := by
  by_cases hqw : q = (keepServantAlive s servantInfo expireTime now).2
  · rw [TaskDispatcher.locationOf, hqw, keepServantAlive_infoOf, ← hqw]
    rcases keepServantAlive_written s servantInfo expireTime now with ⟨hfind, -⟩ | ⟨-, hnew, -⟩
    · exact (hqw ▸ (findServant_some hfind).2).symm
    · exact absurd (hqw.trans hnew) (Nat.ne_of_lt (h.allocated q hq))
  · rw [TaskDispatcher.locationOf, TaskDispatcher.infoOf, keepServantAlive_of_ne hqw]
    rfl

theorem standing_keepServantAlive {s : TaskDispatcher} (h : Registered s)
    (servantInfo : ServantInfo) (expireTime : Duration) (now : TimePoint) (id : UInt64) :
    standing (keepServantAlive s servantInfo expireTime now).1 id = standing s id := by
  unfold standing
  rw [keepServantAlive_tasks]
  refine Option.map_congr fun task htask => ?_
  rw [keepServantAlive_locationOf h servantInfo expireTime now (h.assigned id task htask)]

/-- A report clears zombies only. -/
theorem standing_notify (s : TaskDispatcher) (servantLocation : String)
    (tasks : List RunningTask) (id : UInt64) (location : String) :
    standing (notifyServantRunningTasks s servantLocation tasks).dispatcher id =
        some (location, false) ↔ standing s id = some (location, false) := by
  unfold notifyServantRunningTasks
  cases hfind : s.findServant servantLocation with
  | none => rfl
  | some p =>
      set ids := tasks.map RunningTask.taskGrantId
      have hstand : standing (unsafeClearZombies s p ids).1 id =
          if id ∈ zombiesOf s p ids then none else standing s id := by
        unfold standing
        rw [(unsafeClearZombies_spec s p ids).1 id]
        split
        · rfl
        · simp only [unsafeClearZombies, unsafeFreeTask_locationOf]
      change standing (unsafeClearZombies s p ids).1 id = _ ↔ _
      rw [hstand]
      split
      next hzombie =>
        obtain ⟨task, hlook, -, hz, -⟩ := mem_zombiesOf.1 hzombie
        simp [standing, hlook, hz]
      next => rfl

/-- What is left of the grants after `OnTimerExpiration`. -/
theorem lookup_onTimerExpiration (s : TaskDispatcher) (now : TimePoint) (id : UInt64) :
    (onTimerExpiration s now).1.tasks.lookup id =
      (if id ∈ orphans (expireServants s now) then none else s.tasks.lookup id).map fun task =>
        { task with isZombie := task.isZombie || decide (task.expiresTp < now) } := by
  have hfree := (unsafeFreeTask_keysWhere (expireServants s now) fun _ task =>
    !(expireServants s now).servants.contains task.servant).2 id
  change (unsafeFreeTask (expireServants s now) (orphans (expireServants s now))).1.tasks.lookup
    id = if id ∈ orphans (expireServants s now) then none else s.tasks.lookup id at hfree
  rw [← hfree]
  exact Table.lookup_mapVal ..

theorem locationOf_onTimerExpiration (s : TaskDispatcher) (now : TimePoint) (p : ServantPtr) :
    (onTimerExpiration s now).1.locationOf p = s.locationOf p :=
  unsafeFreeTask_locationOf (expireServants s now) (orphans (expireServants s now)) p

/-- **A grant survives `OnTimerExpiration`** if neither its lease nor its servant has expired. -/
theorem standing_onTimerExpiration {s : TaskDispatcher} (h : Registered s) (now : TimePoint)
    (id : UInt64) (location : String) :
    standing (onTimerExpiration s now).1 id = some (location, false) ↔
      standing s id = some (location, false) ∧ ∀ task, s.tasks.lookup id = some task →
        now ≤ task.expiresTp ∧ now ≤ (s.heap task.servant).expiresTp := by
  unfold standing
  rw [lookup_onTimerExpiration]
  cases hlook : s.tasks.lookup id with
  | none => simp
  | some task =>
      have hmem : task.servant ∈ s.servants := h.assigned id task hlook
      have horphan : id ∈ orphans (expireServants s now) ↔
          (s.heap task.servant).expiresTp < now := by
        rw [orphans, Table.mem_keysWhere]
        change (∃ task', s.tasks.lookup id = some task' ∧ _) ↔ _
        simp [hlook, expireServants, hmem]
      by_cases hgone : (s.heap task.servant).expiresTp < now
      · simp [horphan, hgone]
      · simp only [horphan, hgone, if_false, Option.map_some, Option.some_inj, Prod.mk.injEq,
          locationOf_onTimerExpiration, Bool.or_eq_false_iff, decide_eq_false_iff_not, Nat.not_lt,
          forall_eq']
        have halive : now ≤ (s.heap task.servant).expiresTp := Nat.not_lt.1 hgone
        tauto

/-- A grant begins one permission, and leaves those of other ids alone. -/
theorem standing_startNewTask (s : TaskDispatcher) (p : ServantPtr) (taskInfo : TaskInfo)
    (expiresIn : Duration) (prefetching : Bool) (now : TimePoint) {id : UInt64}
    (hid : id ≠ s.nextTaskId) :
    standing (startNewTask s p taskInfo expiresIn prefetching now).1 id = standing s id := by
  obtain ⟨task, -, -, -, hlook⟩ := startNewTask_lookup s p taskInfo expiresIn prefetching now id
  unfold standing
  rw [hlook, if_neg hid]
  simp only [startNewTask_locationOf]

theorem standing_waitForStartingNewTask (s : TaskDispatcher) (taskInfo : TaskInfo)
    (expiresIn : Duration) (prefetching : Bool) (now : TimePoint) {id : UInt64}
    (hid : id ≠ s.nextTaskId) :
    standing (waitForStartingNewTask s taskInfo expiresIn prefetching now).1 id =
      standing s id := by
  rcases waitForStartingNewTask_cases s taskInfo expiresIn prefetching now with
    ⟨-, h⟩ | ⟨-, -, h⟩ | ⟨p, -, -, h⟩
  · rw [h]
  · rw [h]
  · rw [h]
    exact standing_startNewTask s p taskInfo expiresIn prefetching now hid

/-! ### The steps of the scheduler -/

/-- The step does not end the permission of the grant `id`: it is not freed, neither its lease nor
its servant has expired when the timer looks, and no new grant gets its id. -/
def Spares (s : TaskDispatcher) (id : UInt64) : SchedulerEvent → Prop
  | .op (.freeTask taskId) _ => taskId ≠ id
  | .op (.onTimerExpiration now) _ => ∀ task ∈ s.tasks.lookup id,
      now ≤ task.expiresTp ∧ now ≤ (s.heap task.servant).expiresTp
  | .op (.waitForStartingNewTask ..) _ => s.nextTaskId ≠ id
  | _ => True

instance (s : TaskDispatcher) (id : UInt64) : ∀ e, Decidable (Spares s id e)
  | .op (.freeTask taskId) _ => inferInstanceAs (Decidable (taskId ≠ id))
  | .op (.onTimerExpiration now) _ => inferInstanceAs (Decidable (∀ task ∈ s.tasks.lookup id,
      now ≤ task.expiresTp ∧ now ≤ (s.heap task.servant).expiresTp))
  | .op (.waitForStartingNewTask ..) _ => inferInstanceAs (Decidable (s.nextTaskId ≠ id))
  | .heartBeat .. => .isTrue trivial
  | .op (.keepTaskAlive ..) _ => .isTrue trivial
  | .op (.keepServantAlive ..) _ => .isTrue trivial
  | .op (.notifyServantRunningTasks ..) _ => .isTrue trivial
  | .op (.rehash ..) _ => .isTrue trivial

/-- The step looks for a servant, and may issue the next id. -/
def SchedulerEvent.grants : SchedulerEvent → Bool
  | .op (.waitForStartingNewTask ..) _ => true
  | _ => false

section Next

variable {service : SchedulerServiceImpl} {s : TaskDispatcher} {location : String} {id : UInt64}
  {e : SchedulerEvent}

/-- **How a permission ends**: in no other step than those `Scheduler.Spares` excludes. -/
theorem Permitted.next (h : Registered s) (hp : Permitted s location id) (hs : Spares s id e) :
    Permitted ((scheduler service).next s e) location id := by
  rw [permitted_iff (registered_scheduler h e)]
  rw [permitted_iff h] at hp
  cases e with
  | heartBeat peer request now =>
      simp only [scheduler, Machine.next, schedulerStep]
      split
      · exact hp
      · exact (standing_keepServantAlive h ..).trans hp
  | op op hop =>
      cases op with
      | waitForStartingNewTask taskInfo expiresIn prefetching now =>
          exact (standing_waitForStartingNewTask s taskInfo expiresIn prefetching now
            (Ne.symm hs)).trans hp
      | keepTaskAlive taskId expireTime now => exact (standing_keepTaskAlive ..).trans hp
      | freeTask taskId =>
          refine (standing_freeTask s taskId id).trans ?_
          rw [if_neg (Ne.symm hs)]
          exact hp
      | keepServantAlive servantInfo expireTime now => cases hop
      | notifyServantRunningTasks servantLocation tasks =>
          exact (standing_notify ..).2 hp
      | onTimerExpiration now => exact (standing_onTimerExpiration h now id location).2 ⟨hp, hs⟩
      | rehash taskRank locationRank => exact (standing_rehash ..).trans hp

/-- **How a permission begins**: with a grant of the id. -/
theorem permitted_of_next (h : Registered s)
    (hp : Permitted ((scheduler service).next s e) location id) :
    Permitted s location id ∨ (e.grants = true ∧ id = s.nextTaskId) := by
  rw [permitted_iff (registered_scheduler h e)] at hp
  rw [permitted_iff h]
  cases e with
  | heartBeat peer request now =>
      refine Or.inl ?_
      simp only [scheduler, Machine.next, schedulerStep] at hp
      split at hp
      · exact hp
      · exact (standing_keepServantAlive h ..).symm.trans hp
  | op op hop =>
      cases op with
      | waitForStartingNewTask taskInfo expiresIn prefetching now =>
          by_cases hid : id = s.nextTaskId
          · exact Or.inr ⟨rfl, hid⟩
          · exact Or.inl ((standing_waitForStartingNewTask s taskInfo expiresIn prefetching now
              hid).symm.trans hp)
      | keepTaskAlive taskId expireTime now =>
          exact Or.inl ((standing_keepTaskAlive ..).symm.trans hp)
      | freeTask taskId =>
          have hfree := (standing_freeTask s taskId id).symm.trans hp
          split at hfree
          · cases hfree
          · exact Or.inl hfree
      | keepServantAlive servantInfo expireTime now => cases hop
      | notifyServantRunningTasks servantLocation tasks =>
          exact Or.inl ((standing_notify ..).1 hp)
      | onTimerExpiration now =>
          exact Or.inl ((standing_onTimerExpiration h now id location).1 hp).1
      | rehash taskRank locationRank => exact Or.inl ((standing_rehash ..).symm.trans hp)

end Next

/-- **Only what is not permitted is reported as unknown.** -/
theorem not_permitted_of_unknown {s : TaskDispatcher} {location : String}
    {tasks : List RunningTask} {id : UInt64}
    (h : id ∈ (notifyServantRunningTasks s location tasks).unknownTasks) :
    ¬Permitted (notifyServantRunningTasks s location tasks).dispatcher location id := by
  unfold notifyServantRunningTasks at h ⊢
  cases hfind : s.findServant location with
  | none =>
      rintro ⟨p, hp, -⟩
      simp only [hfind] at hp
      cases hp
  | some p =>
      simp only [hfind, List.mem_map, List.mem_filter, Bool.not_eq_true', List.contains_eq_mem,
        decide_eq_false_iff_not] at h
      obtain ⟨t, ⟨-, hnot⟩, rfl⟩ := h
      rintro ⟨q, hq, hmem⟩
      have hqp : q = p := by
        have hsame : some q = s.findServant location :=
          hq.symm.trans (unsafeFreeTask_findServant ..)
        exact Option.some_inj.1 (hsame.trans hfind)
      exact hnot (hqp ▸ hmem)

end Scheduler
