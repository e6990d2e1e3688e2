/-
**What the operations of the executor do.**

One specification for each operation of `Distribuild/CloudExecutor.lean` that has cases: when a
compile is started and what is then new, when a reference is the last one, which entries the
clean-up drops, and which object an exit callback finds.  The modules on processes, completion,
signals and references are proved from these and do not unfold the operations again.

Main definitions:

* `Cloud.TaskDesc.identity` — what no operation changes in an object;
* `Cloud.Executor.Sound` — the entries of `tasks_` refer to objects of the heap, each to its own.

Main results:

* `Cloud.tryQueueTask_cases`, `Cloud.freeTask_cases`, `Cloud.lookup_onTimerClean`,
  `Cloud.onExitCallback_spec` — the specifications;
* `Cloud.identity_exec`, `Cloud.sound_exec` — **objects keep their identity, and entries their
  objects**.
-/

import Distribuild.CloudExecutor

set_option relaxedAutoImplicit false
set_option autoImplicit false

namespace Cloud

open Executor

variable {τ : Type}

/-! ### Objects -/

/-- What no operation changes in an object: its process, its grant, its start and its task. -/
def TaskDesc.identity (desc : TaskDesc τ) : Pid × UInt64 × TimePoint × τ :=
  (desc.pid, desc.grantId, desc.startTp, desc.task)

theorem heap_modifyDesc (e : Executor τ) (p q : TaskPtr) (f : TaskDesc τ → TaskDesc τ) :
    (e.modifyDesc p f).heap q = if q = p then (e.heap p).map f else e.heap q := by
  split
  next hq => rw [hq]; exact Function.update_self ..
  next hq => exact Function.update_of_ne hq ..

/-- A field that `f` leaves alone has its old value in every object. -/
theorem field_modifyDesc {α : Type*} (field : TaskDesc τ → α) (e : Executor τ) (p q : TaskPtr)
    {f : TaskDesc τ → TaskDesc τ} (hf : ∀ desc, field (f desc) = field desc) :
    ((e.modifyDesc p f).heap q).map field = (e.heap q).map field := by
  rw [heap_modifyDesc]
  split
  next hq =>
    rw [hq, Option.map_map]
    exact Option.map_congr fun desc _ => hf desc
  next => rfl

theorem find_eq_some {e : Executor τ} {taskId : UInt64} {p : TaskPtr} {desc : TaskDesc τ} :
    e.find taskId = some (p, desc) ↔ e.tasks.lookup taskId = some p ∧ e.heap p = some desc := by
  unfold Executor.find
  rw [Option.bind_eq_some_iff]
  constructor
  · rintro ⟨q, hlook, hmap⟩
    obtain ⟨desc', hdesc, heq⟩ := Option.map_eq_some_iff.1 hmap
    cases heq
    exact ⟨hlook, hdesc⟩
  · rintro ⟨hlook, hdesc⟩
    exact ⟨p, hlook, by rw [hdesc]; rfl⟩

theorem Executor.find_eq_none {e : Executor τ} {taskId : UInt64} (h : e.find taskId = none)
    {p : TaskPtr} (hlook : e.tasks.lookup taskId = some p) : e.heap p = none := by
  cases hdesc : e.heap p with
  | none => rfl
  | some desc => cases h.symm.trans (find_eq_some.2 ⟨hlook, hdesc⟩)

/-! ### Starting a compile -/

/-- The object that `TryQueueTask` makes. -/
def newDesc (grantId : UInt64) (userTask : τ) (pid : Pid) (now : TimePoint) : TaskDesc τ :=
  { pid := pid, grantId := grantId, refCount := 1, startTp := now, task := userTask }

/-- The executor once `TryQueueTask` has started a compile. -/
def Executor.started (e : Executor τ) (desc : TaskDesc τ) : Executor τ :=
  { e with
    heap := Function.update e.heap e.heapTop (some desc)
    heapTop := e.heapTop + 1
    tasks := e.tasks.insert e.nextTaskId e.heapTop
    nextTaskId := e.nextTaskId + 1
    runningTasks := e.runningTasks + 1
    taskRanSum := e.taskRanSum + 1
    permits := e.permits + 1 }

/-- **`TryQueueTask`** refuses, and at most an id is lost; or a new object is filed under the next
id, and there was room for it. -/
theorem tryQueueTask_cases (e : Executor τ) (grantId : UInt64) (userTask : τ)
    (availMemory : UInt64) (pid : Pid) (now : TimePoint) :
    (∃ n, (n = e.nextTaskId ∨ n = e.nextTaskId + 1) ∧
      tryQueueTask e grantId userTask availMemory pid now = ({ e with nextTaskId := n }, none)) ∨
    (e.exiting = false ∧ e.runningTasks + 1 ≤ e.maxConcurrency ∧
      tryQueueTask e grantId userTask availMemory pid now =
        (e.started (newDesc grantId userTask pid now), some e.nextTaskId)) := by
  unfold tryQueueTask
  simp only [tryStartingNewTaskUnsafe]
  by_cases hexit : e.exiting = true
  · rw [if_pos hexit]
    exact Or.inl ⟨e.nextTaskId, Or.inl rfl, rfl⟩
  · rw [if_neg hexit]
    by_cases hfull : e.runningTasks + 1 > e.maxConcurrency
    · rw [if_pos hfull]
      exact Or.inl ⟨e.nextTaskId + 1, Or.inr rfl, rfl⟩
    · rw [if_neg hfull]
      by_cases hmem : availMemory < e.minMemory
      · rw [if_pos hmem]
        exact Or.inl ⟨e.nextTaskId + 1, Or.inr rfl, rfl⟩
      · rw [if_neg hmem]
        refine Or.inr ⟨by simpa using hexit, ?_, rfl⟩
        exact UInt64.not_lt.1 hfull

/-! ### References -/

/-- **`FreeTask`** finds nothing, or it takes back a reference that is not the last, or it takes
back the last one and the entry with it. -/
theorem freeTask_cases (e : Executor τ) (taskId : UInt64) :
    (e.find taskId = none ∧ freeTask e taskId = (e, none)) ∨
    ∃ p desc, e.tasks.lookup taskId = some p ∧ e.heap p = some desc ∧
      ((desc.refCount - 1 ≠ 0 ∧ freeTask e taskId =
        (e.modifyDesc p fun desc => { desc with refCount := desc.refCount - 1 }, none)) ∨
      (desc.refCount - 1 = 0 ∧ freeTask e taskId =
        ({ e.modifyDesc p fun desc => { desc with refCount := desc.refCount - 1 } with
            tasks := e.tasks.erase taskId }, some p))) := by
  unfold freeTask
  cases hfind : e.find taskId with
  | none => exact Or.inl ⟨rfl, rfl⟩
  | some found =>
      obtain ⟨p, desc⟩ := found
      obtain ⟨hlook, hdesc⟩ := find_eq_some.1 hfind
      refine Or.inr ⟨p, desc, hlook, hdesc, ?_⟩
      by_cases hlast : desc.refCount - 1 > 0
      · refine Or.inl ⟨?_, by simp only [if_pos hlast]⟩
        intro h0
        rw [h0] at hlast
        exact absurd hlast (by decide)
      · refine Or.inr ⟨?_, by simp only [if_neg hlast]; rfl⟩
        exact UInt32.le_zero_iff.1 (UInt32.not_lt.1 hlast)

/-- What `FreeTask` has done if it hands an object to `KillTask`. -/
theorem freeTask_eq_some {e : Executor τ} {taskId : UInt64} {p : TaskPtr}
    (h : (freeTask e taskId).2 = some p) :
    ∃ desc, e.tasks.lookup taskId = some p ∧ e.heap p = some desc ∧ desc.refCount - 1 = 0 ∧
      (freeTask e taskId).1 =
        { e.modifyDesc p fun desc => { desc with refCount := desc.refCount - 1 } with
          tasks := e.tasks.erase taskId } := by
  rcases freeTask_cases e taskId with
    ⟨-, heq⟩ | ⟨q, desc, hlook, hdesc, ⟨-, heq⟩ | ⟨hlast, heq⟩⟩
  · rw [heq] at h
    cases h
  · rw [heq] at h
    cases h
  · rw [heq] at h
    cases h
    exact ⟨desc, hlook, hdesc, hlast, by rw [heq]⟩

/-! ### The clean-up -/

theorem lookup_eraseAll (entries : List (UInt64 × TaskPtr × TaskDesc τ))
    (tasks : Table UInt64 TaskPtr) (taskId : UInt64) :
    (entries.foldl (fun tasks entry => tasks.erase entry.1) tasks).lookup taskId =
      if taskId ∈ entries.map Prod.fst then none else tasks.lookup taskId := by
  induction entries generalizing tasks with
  | nil => simp
  | cons entry entries ih =>
      rw [List.foldl_cons, ih, List.map_cons]
      by_cases hid : taskId = entry.1
      · rw [hid, AList.lookup_erase]
        simp
      · simp only [List.mem_cons, hid, false_or, AList.lookup_erase_ne hid]

/-- A compile that `OnTimerClean` drops: it ended more than a minute ago. -/
def Stale (now : TimePoint) (desc : TaskDesc τ) : Prop :=
  desc.isRunning = false ∧ desc.completedTp + minute < now

/-- **`OnTimerClean`** drops the entries of stale compiles, and no others. -/
theorem lookup_onTimerClean (e : Executor τ) (now : TimePoint) (taskId : UInt64) (p : TaskPtr) :
    (onTimerClean e now).tasks.lookup taskId = some p ↔
      e.tasks.lookup taskId = some p ∧ ∀ desc, e.heap p = some desc → ¬Stale now desc := by
  have hdropped : taskId ∈ (e.all.filter fun entry =>
      !entry.2.2.isRunning && decide (entry.2.2.completedTp + minute < now)).map Prod.fst ↔
        ∃ q desc, e.tasks.lookup taskId = some q ∧ e.heap q = some desc ∧ Stale now desc := by
    rw [List.mem_map]
    constructor
    · rintro ⟨⟨k, q, desc⟩, hmem, rfl⟩
      obtain ⟨hall, hstale⟩ := List.mem_filter.1 hmem
      obtain ⟨hlook, hdesc⟩ := mem_all.1 hall
      exact ⟨q, desc, hlook, hdesc, by simpa [Stale] using hstale⟩
    · rintro ⟨q, desc, hlook, hdesc, hstale⟩
      refine ⟨(taskId, q, desc), List.mem_filter.2 ⟨mem_all.2 ⟨hlook, hdesc⟩, ?_⟩, rfl⟩
      simpa [Stale] using hstale
  have hlookup := lookup_eraseAll (e.all.filter fun entry =>
    !entry.2.2.isRunning && decide (entry.2.2.completedTp + minute < now)) e.tasks taskId
  change (onTimerClean e now).tasks.lookup taskId = _ at hlookup
  rw [hlookup]
  constructor
  · intro h
    split at h
    next => cases h
    next hkept => exact ⟨h, fun desc hdesc hstale => hkept (hdropped.2 ⟨p, desc, h, hdesc, hstale⟩)⟩
  · rintro ⟨hlook, hkept⟩
    rw [if_neg]
    · exact hlook
    · intro hdrop
      obtain ⟨q, desc, hlook', hdesc, hstale⟩ := hdropped.1 hdrop
      cases hlook.symm.trans hlook'
      exact hkept desc hdesc hstale

/-! ### The end of a compile -/

/-- The object that the loop of `OnExitCallback` finds. -/
def exitFound (e : Executor τ) (pid : Pid) : Option TaskPtr :=
  (e.all.find? fun entry => entry.2.2.pid == pid).map fun entry => entry.2.1

/-- **`OnExitCallback`** lowers the counter and marks the object that it finds. -/
theorem onExitCallback_spec (e : Executor τ) (pid : Pid) (now : TimePoint) :
    (onExitCallback e pid now).2 = exitFound e pid ∧
    (onExitCallback e pid now).1.tasks = e.tasks ∧
    (onExitCallback e pid now).1.heapTop = e.heapTop ∧
    (onExitCallback e pid now).1.runningTasks = e.runningTasks - 1 ∧
    ∀ q, (onExitCallback e pid now).1.heap q =
      if exitFound e pid = some q then
        (e.heap q).map fun desc => { desc with completedTp := now, isRunning := false }
      else e.heap q := by
  cases hfound : exitFound e pid with
  | none =>
      have heq : onExitCallback e pid now =
          ({ e with runningTasks := e.runningTasks - 1 }, none) := by
        rw [exitFound] at hfound
        rw [onExitCallback, hfound]
      rw [heq]
      exact ⟨rfl, rfl, rfl, rfl, fun q => (if_neg fun h => by cases h).symm⟩
  | some p =>
      have heq : onExitCallback e pid now =
          ({ e with runningTasks := e.runningTasks - 1 }.modifyDesc p
            fun desc => { desc with completedTp := now, isRunning := false }, some p) := by
        rw [exitFound] at hfound
        rw [onExitCallback, hfound]
      rw [heq]
      refine ⟨rfl, rfl, rfl, rfl, fun q => ?_⟩
      rw [heap_modifyDesc]
      by_cases hq : q = p
      · rw [if_pos hq, if_pos (congrArg some hq.symm), hq]
      · have hne : ¬some p = some q := fun h => hq (Option.some_inj.1 h).symm
        rw [if_neg hq, if_neg hne]

/-- What the loop finds is an entry of `tasks_` with the pid. -/
theorem exitFound_some {e : Executor τ} {pid : Pid} {p : TaskPtr} (h : exitFound e pid = some p) :
    ∃ taskId desc, e.tasks.lookup taskId = some p ∧ e.heap p = some desc ∧ desc.pid = pid := by
  obtain ⟨⟨taskId, q, desc⟩, hfind, rfl⟩ := Option.map_eq_some_iff.1 h
  obtain ⟨hlook, hdesc⟩ := mem_all.1 (List.mem_of_find?_eq_some hfind)
  exact ⟨taskId, desc, hlook, hdesc, by simpa using List.find?_some hfind⟩

/-! ### Identities and entries -/

/-- Only `TryQueueTask` makes objects and hands out ids. -/
theorem unallocated_exec (e : Executor τ) {op : ExecutorOp τ}
    (hop : ∀ grantId userTask availMemory pid now,
      op ≠ .tryQueueTask grantId userTask availMemory pid now) :
    (exec e op).1.heapTop = e.heapTop ∧ (exec e op).1.nextTaskId = e.nextTaskId := by
  cases op with
  | tryQueueTask grantId userTask availMemory pid now => exact absurd rfl (hop _ _ _ _ _)
  | tryAddTaskRef taskId =>
      simp only [exec, tryAddTaskRef]
      split
      · exact ⟨rfl, rfl⟩
      · exact ⟨rfl, rfl⟩
  | freeTask taskId =>
      rcases freeTask_cases e taskId with ⟨-, heq⟩ | ⟨p, desc, -, -, ⟨-, heq⟩ | ⟨-, heq⟩⟩
      · rw [exec, heq]
        exact ⟨rfl, rfl⟩
      · rw [exec, heq]
        exact ⟨rfl, rfl⟩
      · rw [exec, heq]
        exact ⟨rfl, rfl⟩
  | tryWait p =>
      simp only [exec, tryWait]
      split
      · split
        · exact ⟨rfl, rfl⟩
        · exact ⟨rfl, rfl⟩
      · exact ⟨rfl, rfl⟩
  | onExitCallback pid now =>
      simp only [exec, onExitCallback]
      split
      · exact ⟨rfl, rfl⟩
      · exact ⟨rfl, rfl⟩
  | _ => exact ⟨rfl, rfl⟩

/-- **Objects keep their identity**, whatever the operation. -/
theorem identity_exec (e : Executor τ) (op : ExecutorOp τ) {p : TaskPtr} (hp : p < e.heapTop) :
    ((exec e op).1.heap p).map TaskDesc.identity = (e.heap p).map TaskDesc.identity := by
  cases op with
  | tryQueueTask grantId userTask availMemory pid now =>
      rcases tryQueueTask_cases e grantId userTask availMemory pid now with
        ⟨n, -, heq⟩ | ⟨-, -, heq⟩
      · simp only [exec, heq]
      · simp only [exec, heq, started]
        rw [Function.update_of_ne (Nat.ne_of_lt hp)]
  | tryAddTaskRef taskId =>
      simp only [exec, tryAddTaskRef]
      split
      · rfl
      · exact field_modifyDesc _ e _ p fun _ => rfl
  | freeTask taskId =>
      rcases freeTask_cases e taskId with ⟨-, heq⟩ | ⟨q, desc, -, -, ⟨-, heq⟩ | ⟨-, heq⟩⟩
      · simp only [exec, heq]
      · simp only [exec, heq]
        exact field_modifyDesc _ e q p fun _ => rfl
      · simp only [exec, heq]
        exact field_modifyDesc _ e q p fun _ => rfl
  | killTask q => rfl
  | waitForTask taskId => rfl
  | tryWait q =>
      simp only [exec, tryWait]
      split
      · split
        · exact field_modifyDesc _ e q p fun _ => rfl
        · rfl
      · rfl
  | killExpiredTasks expiredGrantIds => rfl
  | onExitCallback pid now =>
      simp only [exec, (onExitCallback_spec e pid now).2.2.2.2 p]
      split
      · rw [Option.map_map]
        rfl
      · rfl
  | reportCompletion q => exact field_modifyDesc _ e q p fun _ => rfl
  | onTimerClean now => rfl
  | stop => rfl
  | rehash rank => rfl

/-- The entries of `tasks_` refer to objects of the heap, and no two to the same. -/
structure Executor.Sound (e : Executor τ) : Prop where
  top : ∀ p, e.heapTop ≤ p → e.heap p = none
  filed : ∀ taskId p, e.tasks.lookup taskId = some p → ∃ desc, e.heap p = some desc
  single : ∀ taskId taskId' p, e.tasks.lookup taskId = some p →
    e.tasks.lookup taskId' = some p → taskId = taskId'

theorem Executor.Sound.lt {e : Executor τ} (h : e.Sound) {p : TaskPtr} {desc : TaskDesc τ}
    (hdesc : e.heap p = some desc) : p < e.heapTop := by
  by_contra hge
  rw [h.top p (Nat.not_lt.1 hge)] at hdesc
  cases hdesc

/-- An object stays one, with the same identity. -/
theorem Executor.Sound.object {e : Executor τ} (h : e.Sound) (op : ExecutorOp τ) {p : TaskPtr}
    {desc : TaskDesc τ} (hdesc : e.heap p = some desc) :
    ∃ desc', (exec e op).1.heap p = some desc' ∧ desc'.identity = desc.identity := by
  have hid := identity_exec e op (h.lt hdesc)
  rw [hdesc] at hid
  exact Option.map_eq_some_iff.1 hid

/-- Taking entries away keeps the rest in order, and so does changing objects. -/
theorem Executor.Sound.shrink {e e' : Executor τ} (h : e.Sound) (htop : e'.heapTop = e.heapTop)
    (hheap : ∀ p, (e'.heap p).isSome = (e.heap p).isSome)
    (htasks : ∀ taskId p, e'.tasks.lookup taskId = some p → e.tasks.lookup taskId = some p) :
    e'.Sound where
  top := by
    intro p hp
    have hnone := hheap p
    rw [h.top p (htop ▸ hp)] at hnone
    exact Option.isSome_eq_false_iff.1 hnone |> Option.isNone_iff_eq_none.1
  filed := by
    intro taskId p hlook
    obtain ⟨desc, hdesc⟩ := h.filed taskId p (htasks taskId p hlook)
    have hsome := hheap p
    rw [hdesc] at hsome
    exact Option.isSome_iff_exists.1 hsome
  single := fun taskId taskId' p hlook hlook' =>
    h.single taskId taskId' p (htasks taskId p hlook) (htasks taskId' p hlook')

theorem Executor.Sound.started {e : Executor τ} (h : e.Sound) (desc : TaskDesc τ) :
    (e.started desc).Sound where
  top := by
    intro p hp
    have hp : e.heapTop + 1 ≤ p := hp
    change Function.update e.heap e.heapTop (some desc) p = none
    rw [Function.update_of_ne (Nat.ne_of_gt (Nat.lt_of_succ_le hp))]
    exact h.top p (Nat.le_of_succ_le hp)
  filed := by
    intro taskId p hlook
    change ∃ desc', Function.update e.heap e.heapTop (some desc) p = some desc'
    by_cases hp : p = e.heapTop
    · rw [hp, Function.update_self]
      exact ⟨desc, rfl⟩
    · rw [Function.update_of_ne hp]
      rcases Table.lookup_insert_cases hlook with ⟨-, hnew⟩ | ⟨-, hold⟩
      · exact absurd hnew hp
      · exact h.filed taskId p hold
  single := by
    intro taskId taskId' p hlook hlook'
    have hlook : (e.tasks.insert e.nextTaskId e.heapTop).lookup taskId = some p := hlook
    have hlook' : (e.tasks.insert e.nextTaskId e.heapTop).lookup taskId' = some p := hlook'
    -- the new object is filed under the new id only, since no old entry refers to it
    have hold : ∀ k, k ≠ e.nextTaskId →
        (e.tasks.insert e.nextTaskId e.heapTop).lookup k = some p →
          e.tasks.lookup k = some p ∧ p < e.heapTop := by
      intro k hk hkp
      rw [AList.lookup_insert_ne hk] at hkp
      obtain ⟨desc', hdesc'⟩ := h.filed k p hkp
      exact ⟨hkp, h.lt hdesc'⟩
    by_cases hid : taskId = e.nextTaskId
    · by_cases hid' : taskId' = e.nextTaskId
      · rw [hid, hid']
      · rw [hid, AList.lookup_insert] at hlook
        have hlt := (hold taskId' hid' hlook').2
        rw [← Option.some_inj.1 hlook] at hlt
        exact absurd hlt (Nat.lt_irrefl _)
    · by_cases hid' : taskId' = e.nextTaskId
      · rw [hid', AList.lookup_insert] at hlook'
        have hlt := (hold taskId hid hlook).2
        rw [← Option.some_inj.1 hlook'] at hlt
        exact absurd hlt (Nat.lt_irrefl _)
      · exact h.single taskId taskId' p (hold taskId hid hlook).1 (hold taskId' hid' hlook').1

theorem isSome_modifyDesc (e : Executor τ) (p q : TaskPtr) (f : TaskDesc τ → TaskDesc τ) :
    ((e.modifyDesc p f).heap q).isSome = (e.heap q).isSome := by
  rw [heap_modifyDesc]
  split
  next hq => rw [hq, Option.isSome_map]
  next => rfl

/-- **Entries keep their objects**, whatever the operation. -/
theorem sound_exec {e : Executor τ} (h : e.Sound) (op : ExecutorOp τ) : (exec e op).1.Sound := by
  cases op with
  | tryQueueTask grantId userTask availMemory pid now =>
      rcases tryQueueTask_cases e grantId userTask availMemory pid now with
        ⟨n, -, heq⟩ | ⟨-, -, heq⟩
      · simp only [exec, heq]
        exact ⟨h.top, h.filed, h.single⟩
      · simp only [exec, heq]
        exact h.started _
  | tryAddTaskRef taskId =>
      simp only [exec, tryAddTaskRef]
      split
      · exact h
      · exact h.shrink rfl (fun q => isSome_modifyDesc e _ q _) fun _ _ hlook => hlook
  | freeTask taskId =>
      rcases freeTask_cases e taskId with ⟨-, heq⟩ | ⟨p, desc, -, -, ⟨-, heq⟩ | ⟨-, heq⟩⟩
      · simp only [exec, heq]
        exact h
      · simp only [exec, heq]
        exact h.shrink rfl (fun q => isSome_modifyDesc e p q _) fun _ _ hlook => hlook
      · simp only [exec, heq]
        exact h.shrink rfl (fun q => isSome_modifyDesc e p q _) fun _ _ hlook =>
          lookup_of_erase hlook
  | killTask p => exact h
  | waitForTask taskId => exact h
  | tryWait p =>
      simp only [exec, tryWait]
      split
      · split
        · exact h.shrink rfl (fun q => isSome_modifyDesc e p q _) fun _ _ hlook => hlook
        · exact h
      · exact h
  | killExpiredTasks expiredGrantIds => exact h
  | onExitCallback pid now =>
      obtain ⟨-, htasks, htop, -, hheap⟩ := onExitCallback_spec e pid now
      refine h.shrink htop (fun q => ?_) fun taskId q hlook => ?_
      · simp only [exec, hheap q]
        split
        · rw [Option.isSome_map]
        · rfl
      · simp only [exec, htasks] at hlook
        exact hlook
  | reportCompletion p =>
      exact h.shrink rfl (fun q => isSome_modifyDesc e p q _) fun _ _ hlook => hlook
  | onTimerClean now =>
      exact h.shrink rfl (fun _ => rfl) fun taskId q hlook =>
        ((lookup_onTimerClean e now taskId q).1 hlook).1
  | stop => exact ⟨h.top, h.filed, h.single⟩
  | rehash rank =>
      refine h.shrink rfl (fun _ => rfl) fun taskId q hlook => ?_
      rwa [exec, Table.lookup_rehash] at hlook

end Cloud
