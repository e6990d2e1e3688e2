/-
**Freeing a list of grants.**

A daemon gives its grants back with `FreeTask`, a list of ids in one request.  The routine behind
it, `UnsafeFreeTask`, stops at the first id that it does not know, so a list with an unknown id in
the middle would leave the rest of it allocated.  The handler of `SchedulerServiceImpl` never passes
it more than one id, and an id that was freed before is unknown the second time.  So neither the
order of the list matters nor how often an id stands in it: the request is a filter on `tasks_`, and
this module computes the state it leaves behind in one expression.

Main definitions:

* `Scheduler.released` — the tasks that a request frees;
* `Scheduler.freedState` — the state that it leaves behind;
* `Scheduler.Freed` — what that state must be.

Main results:

* `Scheduler.foldl_freeTask` — **one id after the other is all at once**;
* `Scheduler.freeTaskRpc_exact` — freeing a list removes what it names and nothing else, in any
  order.
-/

import Distribuild.SchedulerAllocate

set_option relaxedAutoImplicit false
set_option autoImplicit false

namespace Scheduler

/-! ### All at once -/

/-- The tasks under the ids of a list. -/
def released (s : TaskDispatcher) (ids : List UInt64) : Table UInt64 Task :=
  s.tasks.filter fun id _ => ids.contains id

/-- How many of them a servant has. -/
def releasedFrom (s : TaskDispatcher) (ids : List UInt64) (p : ServantPtr) : ℕ :=
  (released s ids).tally fun task => decide (task.servant = p)

/-- The state after all ids of a list have been freed. -/
def freedState (s : TaskDispatcher) (ids : List UInt64) : TaskDispatcher :=
  { s with
    heap := fun p =>
      { s.heap p with
        runningTasks := (s.heap p).runningTasks - UInt64.ofNat (releasedFrom s ids p) }
    tasks := s.tasks.filter fun id _ => !ids.contains id }

theorem released_nil (s : TaskDispatcher) (p : ServantPtr) : releasedFrom s [] p = 0 := by
  rw [releasedFrom, Table.tally_eq_zero]
  intro id task hlook
  simp [released] at hlook

theorem freedState_nil (s : TaskDispatcher) : freedState s [] = s := by
  have htasks : s.tasks.filter (fun id _ => !([] : List UInt64).contains id) = s.tasks :=
    AList.ext (List.filter_eq_self.2 fun _ _ => rfl)
  simp only [freedState, htasks, released_nil]
  simp

/-- An id that is unknown makes no difference. -/
theorem freedState_cons_of_none {s : TaskDispatcher} {id : UInt64}
    (h : s.tasks.lookup id = none) (ids : List UInt64) :
    freedState s (id :: ids) = freedState s ids := by
  have hcontains : ∀ k task, s.tasks.lookup k = some task →
      (id :: ids).contains k = ids.contains k := by
    intro k task hk
    have hne : k ≠ id := fun heq => by
      rw [heq, h] at hk
      cases hk
    simp [hne]
  have hreleased : released s (id :: ids) = released s ids := Table.filter_congr hcontains
  have htasks : s.tasks.filter (fun k _ => !(id :: ids).contains k) =
      s.tasks.filter (fun k _ => !ids.contains k) :=
    Table.filter_congr fun k task hk => by rw [hcontains k task hk]
  simp only [freedState, releasedFrom, hreleased, htasks]

/-- An id that is known is freed, and then the rest. -/
theorem freedState_cons_of_some {s : TaskDispatcher} {id : UInt64} {task : Task}
    (h : s.tasks.lookup id = some task) (ids : List UInt64) :
    freedState s (id :: ids) = freedState (releaseTask s id task) ids := by
  have htasks : s.tasks.filter (fun k _ => !(id :: ids).contains k) =
      Table.filter (fun k _ => !ids.contains k) (s.tasks.erase id) := by
    rw [Table.erase_eq_filter, Table.filter_filter]
    refine Table.filter_congr fun k _ _ => ?_
    by_cases hk : k = id <;> simp [hk]
  -- without the task itself, what is freed is what the rest of the list frees
  have herase : (released s (id :: ids)).erase id = released (releaseTask s id task) ids := by
    rw [released, released, releaseTask_tasks, Table.erase_eq_filter, Table.erase_eq_filter,
      Table.filter_filter, Table.filter_filter]
    refine Table.filter_congr fun k _ _ => ?_
    by_cases hk : k = id <;> simp [hk]
  have hlook : (released s (id :: ids)).lookup id = some task := by
    rw [released, Table.lookup_filter, h]
    simp [Option.filter]
  have hcount : ∀ p, releasedFrom s (id :: ids) p =
      releasedFrom (releaseTask s id task) ids p + if task.servant = p then 1 else 0 := by
    intro p
    rw [releasedFrom, releasedFrom, Table.tally_erase hlook, herase]
    simp only [decide_eq_true_eq]
  have hheap : ∀ p, ({ s.heap p with
      runningTasks := (s.heap p).runningTasks - UInt64.ofNat (releasedFrom s (id :: ids) p) } :
        Servant) =
      { (releaseTask s id task).heap p with
        runningTasks := ((releaseTask s id task).heap p).runningTasks -
          UInt64.ofNat (releasedFrom (releaseTask s id task) ids p) } := by
    intro p
    rw [hcount, releaseTask_heap]
    by_cases hp : task.servant = p
    · rw [if_pos hp, hp, Function.update_self, UInt64.sub_one_sub_ofNat]
    · rw [if_neg hp, Function.update_of_ne (Ne.symm hp), Nat.add_zero]
  simp only [freedState, htasks, hheap]
  rfl

/-- **One id after the other is all at once.** -/
theorem foldl_freeTask (s : TaskDispatcher) (ids : List UInt64) :
    ids.foldl (fun s taskId => (freeTask s taskId).1) s = freedState s ids := by
  induction ids generalizing s with
  | nil => exact (freedState_nil s).symm
  | cons id ids ih =>
      rw [List.foldl_cons, ih]
      cases h : s.tasks.lookup id with
      | none => simp only [freeTask, unsafeFreeTask, h, freedState_cons_of_none h]
      | some task => simp only [freeTask, unsafeFreeTask, h, freedState_cons_of_some h]

/-- The state depends only on which ids stand in the list. -/
theorem freedState_congr (s : TaskDispatcher) {ids ids' : List UInt64}
    (h : ∀ id, id ∈ ids' ↔ id ∈ ids) : freedState s ids' = freedState s ids := by
  have hcontains : ∀ id, ids'.contains id = ids.contains id := by
    intro id
    rw [Bool.eq_iff_iff, List.contains_iff_mem, List.contains_iff_mem]
    exact h id
  simp only [freedState, releasedFrom, released, hcontains]

/-! ### What the request leaves behind -/

/-- **What the state `t` must be** after the ids of a list have been freed in the state `s`. -/
structure Freed (s : TaskDispatcher) (ids : List UInt64) (t : TaskDispatcher) : Prop where
  /-- The listed tasks are gone, and every other task is what it was. -/
  removed : ∀ id, t.tasks.lookup id = if id ∈ ids then none else s.tasks.lookup id
  /-- Every counter is lowered by the number of tasks of its servant that are gone. -/
  lowered : ∀ p, (t.heap p).runningTasks.toNat + releasedFrom s ids p =
    (s.heap p).runningTasks.toNat
  /-- Nothing else of a servant changes. -/
  servant : ∀ p, t.heap p = { s.heap p with runningTasks := (t.heap p).runningTasks }
  /-- Nor anything else. -/
  servants : t.servants = s.servants
  heapTop : t.heapTop = s.heapTop
  nextTaskId : t.nextTaskId = s.nextTaskId
  bookkeeper : t.runningTaskBookkeeper = s.runningTaskBookkeeper
  minMemory : t.minMemoryForNewTask = s.minMemoryForNewTask

/-- No servant loses more tasks than it has. -/
theorem releasedFrom_le_load (s : TaskDispatcher) (ids : List UInt64) (p : ServantPtr) :
    releasedFrom s ids p ≤ s.load p :=
  List.Sublist.countP_le List.filter_sublist

theorem freed_freedState {s : TaskDispatcher} (h : Covered s) (ids : List UInt64) :
    Freed s ids (freedState s ids) where
  removed := by
    intro id
    change (s.tasks.filter _).lookup id = _
    rw [Table.lookup_filter]
    by_cases hid : id ∈ ids
    · cases s.tasks.lookup id <;> simp [Option.filter, hid]
    · cases s.tasks.lookup id <;> simp [Option.filter, hid]
  lowered := by
    intro p
    have hle : releasedFrom s ids p ≤ (s.heap p).runningTasks.toNat :=
      Nat.le_trans (releasedFrom_le_load s ids p) (h p)
    change ((s.heap p).runningTasks - UInt64.ofNat _).toNat + _ = _
    rw [UInt64.toNat_sub_ofNat_of_le hle]
    exact Nat.sub_add_cancel hle
  servant := fun _ => rfl
  servants := rfl
  heapTop := rfl
  nextTaskId := rfl
  bookkeeper := rfl
  minMemory := rfl

/-- **Freeing a list of grants is exact and does not depend on the order.**  In every state that a
run reaches and for every list, an accepted request removes the listed tasks that are there, lowers
the counter of every servant by the number of its tasks among them and changes nothing else; and
every list with the same ids, in another order or with other repetitions, leaves the same state
behind. -/
theorem freeTaskRpc_exact (service : SchedulerServiceImpl) (minMemory : UInt64) (ops : List Op)
    (token : String) (htoken : service.userTokenVerifier.verify token = true)
    (ids : List UInt64) :
    let s := dispatcher.run (.init minMemory) ops
    (freeTaskRpc service s token ids).2 = .OK ∧
      Freed s ids (freeTaskRpc service s token ids).1 ∧
      ∀ ids' : List UInt64, (∀ id, id ∈ ids' ↔ id ∈ ids) →
        (freeTaskRpc service s token ids').1 = (freeTaskRpc service s token ids).1 := by
  intro s
  have hstate : ∀ ids, freeTaskRpc service s token ids = (freedState s ids, .OK) := by
    intro ids
    rw [freeTaskRpc, htoken, foldl_freeTask]
    rfl
  refine ⟨congrArg Prod.snd (hstate ids), ?_, fun ids' hids => ?_⟩
  · rw [hstate]
    exact freed_freedState (covered_run minMemory ops) ids
  · rw [hstate, hstate]
    exact freedState_congr s hids

/-- Of three tasks the first and the last are freed, by a list that names a task that was never
granted in the middle, and one of them twice. -/
theorem freeTaskRpc_exact_mixed :
    let s := dispatcher.run (.init 0) [sampleRegister, sampleGrant, sampleGrant, sampleGrant]
    let t := (freeTaskRpc sampleService s "user" [2, 9, 0, 2]).1
    t.tasks.lookup 0 = none ∧ t.tasks.lookup 1 = s.tasks.lookup 1 ∧
      (t.heap 0).runningTasks.toNat + 2 = (s.heap 0).runningTasks.toNat ∧
      (freeTaskRpc sampleService s "user" [0, 2, 9]).1 = t := by
  intro s t
  obtain ⟨-, hfreed, hsame⟩ := freeTaskRpc_exact sampleService 0
    [sampleRegister, sampleGrant, sampleGrant, sampleGrant] "user" (by decide) [2, 9, 0, 2]
  refine ⟨(hfreed.removed 0).trans (if_pos (by decide)),
    (hfreed.removed 1).trans (if_neg (by decide)), ?_, hsame [0, 2, 9] fun id => ?_⟩
  · have hcount : releasedFrom s [2, 9, 0, 2] 0 = 2 := by decide +kernel
    rw [← hfreed.lowered 0]
    exact congrArg _ hcount.symm
  · simp only [List.mem_cons, List.not_mem_nil, or_false]
    tauto

end Scheduler
