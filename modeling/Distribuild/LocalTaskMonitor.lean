/-
**The quota of a machine.**

The client asks the daemon on its own machine for a permission before it preprocesses or compiles,
so that a parallel build does not overload the machine.  The daemon keeps the process ids that hold
one in a set, `permissions_granted_`.  This module embeds `daemon/local/task_monitor.cpp`: a request
for a permission, which may have to wait, the end of a permission, and the timer that takes the
permissions of dead processes away.

There are two limits and one set.  A heavyweight request is let in while fewer than
`max_heavy_tasks_` permissions are held, of whatever kind; a lightweight one while fewer than
`max_heavy_tasks_ + max_light_tasks_` are.  A request of a process that already holds a permission
is let in under the same condition and adds nothing.

The waiting is `wait_for` with a predicate.  A call takes effect when it leaves its wait with the
mutex in its hands, and that is where it returns in the runs here.  The two counters of waiting
requests are written but never read, so they are left out.

Main definitions:

* `Local.TaskMonitor` — the limits and the set, and `Local.TaskMonitor.init` — its constructor;
* `Local.quotaMachine` — the monitor with the threads that wait, as a machine;
* `Local.held` — what a history says about the permission of a process.

Main results:

* `Local.quota_cases` — what one step can do;
* `Local.quota_limits` — **the limits hold, and the set is what the answers say it is**.
-/

import Distribuild.Monitor
import Distribuild.SchedulerDispatcher
import Mathlib.Data.Finset.Card

set_option relaxedAutoImplicit false
set_option autoImplicit false

namespace Local

open Scheduler (TimePoint)

/-! ### The monitor -/

/-- `pid_t`. -/
abbrev Pid := Int32

structure TaskMonitor where
  maxHeavyTasks : UInt64
  maxLightTasks : UInt64
  permissionsGranted : Finset Pid := ∅

namespace TaskMonitor

/-- The constructor, for a value of `FLAGS_max_concurrency` and the number of hardware threads.
The product `max_heavy_tasks_ * 1.5` is one of `double`, exact for numbers of this size, and is
truncated. -/
def init (maxConcurrency : Int32) (hardwareConcurrency : UInt32) : TaskMonitor :=
  let maxHeavyTasks :=
    if maxConcurrency > 0 then UInt64.ofNat maxConcurrency.toInt.toNat
    else hardwareConcurrency.toUInt64
  { maxHeavyTasks := maxHeavyTasks
    maxLightTasks := UInt64.ofNat (maxHeavyTasks.toNat * 3 / 2) }

/-- The limit that a request is held against, a sum of `size_t`. -/
def limit (m : TaskMonitor) (lightweight : Bool) : UInt64 :=
  m.maxHeavyTasks + if lightweight then m.maxLightTasks else 0

/-- The predicate of the wait. -/
def hasRoom (m : TaskMonitor) (lightweight : Bool) : Bool :=
  decide (m.permissionsGranted.card < (m.limit lightweight).toNat)

/-- The part of `WaitForNewTask` after a wait that has succeeded.  A process that is a member already
is only logged. -/
def grant (m : TaskMonitor) (pid : Pid) : TaskMonitor :=
  if pid ∈ m.permissionsGranted then m
  else { m with permissionsGranted := insert pid m.permissionsGranted }

/-- `DropTask`, and the pids that it has removed. -/
def dropTask (m : TaskMonitor) (pid : Pid) : TaskMonitor × Finset Pid :=
  if pid ∈ m.permissionsGranted then
    ({ m with permissionsGranted := m.permissionsGranted.erase pid }, {pid})
  else (m, ∅)

/-- `OnTimerCheckAliveProc`, where `isAliveProc` is what is found under `/proc`, and the pids that it
has removed. -/
def onTimerCheckAliveProc (m : TaskMonitor) (isAliveProc : Pid → Bool) :
    TaskMonitor × Finset Pid :=
  ({ m with permissionsGranted := m.permissionsGranted.filter fun pid => isAliveProc pid = true },
    m.permissionsGranted.filter fun pid => isAliveProc pid = false)

end TaskMonitor

/-! ### The machine -/

/-- The arguments of a call of `WaitForNewTask`; the timeout has become a deadline. -/
structure QuotaRequest where
  pid : Pid
  lightweight : Bool
  deadline : TimePoint
deriving DecidableEq, Repr

/-- The monitor, and the threads that sleep in `WaitForNewTask`. -/
structure QuotaState where
  monitor : TaskMonitor
  waiting : ℕ → Option QuotaRequest

inductive QuotaEvent
  /-- A thread calls `WaitForNewTask`. -/
  | waitForNewTask (caller : ℕ) (request : QuotaRequest)
  /-- A sleep of the thread ends. -/
  | wake (caller : ℕ) (timedOut : Bool) (now : TimePoint)
  | dropTask (pid : Pid)
  | onTimerCheckAliveProc (isAliveProc : Pid → Bool)

inductive QuotaReply
  /-- A call of `WaitForNewTask` for this process returns. -/
  | returned (pid : Pid) (success : Bool)
  /-- The thread sleeps. -/
  | asleep
  /-- These were removed from `permissions_granted_`. -/
  | removed (pids : Finset Pid)
  /-- The event cannot happen in this state, and nothing does. -/
  | disabled

/-- A thread in `WaitForNewTask` has the mutex. -/
def QuotaState.look (s : QuotaState) (caller : ℕ) (request : QuotaRequest) (timedOut : Bool)
    (now : TimePoint) : QuotaState × QuotaReply :=
  match Monitor.waitFor (s.monitor.hasRoom request.lightweight) request.deadline now timedOut with
  | .satisfied =>
      ({ monitor := s.monitor.grant request.pid
         waiting := Function.update s.waiting caller none }, .returned request.pid true)
  | .timedOut =>
      ({ s with waiting := Function.update s.waiting caller none }, .returned request.pid false)
  | .asleep =>
      ({ s with waiting := Function.update s.waiting caller (some request) }, .asleep)

def quotaStep (s : QuotaState) : QuotaEvent → QuotaState × QuotaReply
  | .waitForNewTask caller request =>
      match s.waiting caller with
      | none => s.look caller request false 0
      | some _ => (s, .disabled)
  | .wake caller timedOut now =>
      match s.waiting caller with
      | none => (s, .disabled)
      | some request => s.look caller request timedOut now
  | .dropTask pid =>
      let r := s.monitor.dropTask pid
      ({ s with monitor := r.1 }, .removed r.2)
  | .onTimerCheckAliveProc isAliveProc =>
      let r := s.monitor.onTimerCheckAliveProc isAliveProc
      ({ s with monitor := r.1 }, .removed r.2)

/-- **The monitor and the threads that wait, as a machine.** -/
def quotaMachine : Machine QuotaState QuotaEvent QuotaReply := ⟨quotaStep⟩

/-- The start: nobody waits. -/
def QuotaState.init (maxConcurrency : Int32) (hardwareConcurrency : UInt32) : QuotaState where
  monitor := TaskMonitor.init maxConcurrency hardwareConcurrency
  waiting := fun _ => none

/-- The request on whose behalf a step is made. -/
def QuotaState.request? (s : QuotaState) : QuotaEvent → Option QuotaRequest
  | .waitForNewTask _ request => some request
  | .wake caller _ _ => s.waiting caller
  | _ => none

/-! ### What one step can do -/

/-- A thread that looks is let in, or leaves the monitor alone. -/
theorem QuotaState.look_cases (s : QuotaState) (caller : ℕ) (request : QuotaRequest)
    (timedOut : Bool) (now : TimePoint) :
    (s.monitor.hasRoom request.lightweight = true ∧
      (s.look caller request timedOut now).1.monitor = s.monitor.grant request.pid ∧
      (s.look caller request timedOut now).2 = .returned request.pid true) ∨
    ((s.look caller request timedOut now).1.monitor = s.monitor ∧
      ((s.look caller request timedOut now).2 = .asleep ∨
        (s.look caller request timedOut now).2 = .returned request.pid false)) := by
  unfold QuotaState.look
  cases hwait : Monitor.waitFor (s.monitor.hasRoom request.lightweight) request.deadline now
      timedOut with
  | satisfied => exact Or.inl ⟨Monitor.waitFor_eq_satisfied.1 hwait, rfl, rfl⟩
  | timedOut => exact Or.inr ⟨rfl, Or.inr rfl⟩
  | asleep => exact Or.inr ⟨rfl, Or.inl rfl⟩

/-- What a step does on behalf of a request. -/
inductive QuotaCase (s : QuotaState) (e : QuotaEvent) (m : TaskMonitor) (out : QuotaReply) : Prop
  /-- The request is let in. -/
  | admitted (request : QuotaRequest) (h : s.request? e = some request)
      (hroom : s.monitor.hasRoom request.lightweight = true)
      (hm : m = s.monitor.grant request.pid) (hout : out = .returned request.pid true)
  /-- Nothing happens to the monitor. -/
  | idle (hm : m = s.monitor)
      (hout : out = .disabled ∨ out = .asleep ∨ ∃ pid, out = .returned pid false)
  /-- Permissions are taken away. -/
  | removed (pids : Finset Pid) (h : pids ⊆ s.monitor.permissionsGranted)
      (hm : m = { s.monitor with permissionsGranted := s.monitor.permissionsGranted \ pids })
      (hout : out = .removed pids)

theorem QuotaCase.of_look {s : QuotaState} {e : QuotaEvent} (caller : ℕ) {request : QuotaRequest}
    (timedOut : Bool) (now : TimePoint) (h : s.request? e = some request)
    (hstep : quotaMachine.step s e = s.look caller request timedOut now) :
    QuotaCase s e (quotaMachine.next s e).monitor (quotaMachine.out s e) := by
  rw [Machine.next, Machine.out, hstep]
  rcases s.look_cases caller request timedOut now with ⟨hroom, hm, hout⟩ | ⟨hm, hout⟩
  · exact .admitted request h hroom hm hout
  · refine .idle hm (Or.inr ?_)
    rcases hout with hout | hout
    · exact Or.inl hout
    · exact Or.inr ⟨_, hout⟩

/-- **Every step** lets a request in, leaves the monitor alone, or takes permissions away. -/
theorem quota_cases (s : QuotaState) (e : QuotaEvent) :
    QuotaCase s e (quotaMachine.next s e).monitor (quotaMachine.out s e) := by
  cases e with
  | waitForNewTask caller request =>
      cases hw : s.waiting caller with
      | none =>
          refine QuotaCase.of_look caller false 0 rfl ?_
          simp only [quotaMachine, quotaStep, hw]
      | some request' =>
          refine .idle ?_ (Or.inl ?_)
          · simp only [Machine.next, quotaMachine, quotaStep, hw]
          · simp only [Machine.out, quotaMachine, quotaStep, hw]
  | wake caller timedOut now =>
      cases hw : s.waiting caller with
      | none =>
          refine .idle ?_ (Or.inl ?_)
          · simp only [Machine.next, quotaMachine, quotaStep, hw]
          · simp only [Machine.out, quotaMachine, quotaStep, hw]
      | some request =>
          refine QuotaCase.of_look caller timedOut now hw ?_
          simp only [quotaMachine, quotaStep, hw]
  | dropTask pid =>
      refine .removed (s.monitor.dropTask pid).2 ?_ ?_ rfl
      · rw [TaskMonitor.dropTask]
        split
        next hmem => exact Finset.singleton_subset_iff.2 hmem
        next => exact Finset.empty_subset _
      · change (s.monitor.dropTask pid).1 = _
        rw [TaskMonitor.dropTask]
        split
        next => rw [Finset.sdiff_singleton_eq_erase]
        next => rw [Finset.sdiff_empty]
  | onTimerCheckAliveProc isAliveProc =>
      refine .removed (s.monitor.onTimerCheckAliveProc isAliveProc).2 (Finset.filter_subset _ _) ?_
        rfl
      change (s.monitor.onTimerCheckAliveProc isAliveProc).1 = _
      simp only [TaskMonitor.onTimerCheckAliveProc]
      congr 1
      ext pid
      simp only [Finset.mem_filter, Finset.mem_sdiff, not_and, Bool.not_eq_false]
      tauto

/-! ### The limits -/

/-- The sum of the two limits does not wrap around. -/
def TaskMonitor.Bounded (m : TaskMonitor) : Prop :=
  m.maxHeavyTasks.toNat + m.maxLightTasks.toNat < 2 ^ 64

/-- Both limits come from a 32-bit number. -/
theorem TaskMonitor.bounded_init (maxConcurrency : Int32) (hardwareConcurrency : UInt32) :
    (TaskMonitor.init maxConcurrency hardwareConcurrency).Bounded := by
  have hheavy : (TaskMonitor.init maxConcurrency hardwareConcurrency).maxHeavyTasks.toNat <
      2 ^ 32 := by
    simp only [TaskMonitor.init]
    split
    next =>
      have hlt := maxConcurrency.toInt_lt
      rw [UInt64.toNat_ofNat', Nat.mod_eq_of_lt (by omega)]
      omega
    next =>
      rw [UInt32.toNat_toUInt64]
      exact hardwareConcurrency.toNat_lt
  have hlight : (TaskMonitor.init maxConcurrency hardwareConcurrency).maxLightTasks.toNat ≤
      (TaskMonitor.init maxConcurrency hardwareConcurrency).maxHeavyTasks.toNat * 3 / 2 := by
    simp only [TaskMonitor.init, UInt64.toNat_ofNat']
    exact Nat.mod_le _ _
  unfold TaskMonitor.Bounded
  omega

/-- What a request is held against. -/
theorem TaskMonitor.limit_toNat {m : TaskMonitor} (h : m.Bounded) (lightweight : Bool) :
    (m.limit lightweight).toNat =
      m.maxHeavyTasks.toNat + if lightweight then m.maxLightTasks.toNat else 0 := by
  unfold TaskMonitor.Bounded at h
  cases lightweight with
  | true =>
      simp only [TaskMonitor.limit, if_true, UInt64.toNat_add]
      omega
  | false => simp [TaskMonitor.limit]

@[simp] theorem TaskMonitor.grant_maxHeavyTasks (m : TaskMonitor) (pid : Pid) :
    (m.grant pid).maxHeavyTasks = m.maxHeavyTasks := by
  unfold TaskMonitor.grant
  split <;> rfl

@[simp] theorem TaskMonitor.grant_maxLightTasks (m : TaskMonitor) (pid : Pid) :
    (m.grant pid).maxLightTasks = m.maxLightTasks := by
  unfold TaskMonitor.grant
  split <;> rfl

/-- A grant adds its process and nobody else. -/
theorem TaskMonitor.mem_grant {m : TaskMonitor} {pid other : Pid} :
    other ∈ (m.grant pid).permissionsGranted ↔ other = pid ∨ other ∈ m.permissionsGranted := by
  unfold TaskMonitor.grant
  split
  next hmem =>
    constructor
    · exact Or.inr
    · rintro (rfl | h)
      · exact hmem
      · exact h
  next => exact Finset.mem_insert

theorem TaskMonitor.card_grant_le (m : TaskMonitor) (pid : Pid) :
    (m.grant pid).permissionsGranted.card ≤ m.permissionsGranted.card + 1 := by
  unfold TaskMonitor.grant
  split
  next => exact Nat.le_succ _
  next => exact Finset.card_insert_le _ _

/-- The invariant: as many permissions as both limits allow together. -/
structure WithinLimits (maxHeavy maxLight : ℕ) (m : TaskMonitor) : Prop where
  heavy : m.maxHeavyTasks.toNat = maxHeavy
  light : m.maxLightTasks.toNat = maxLight
  card : m.permissionsGranted.card ≤ maxHeavy + maxLight

theorem withinLimits_next {maxHeavy maxLight : ℕ} (hsum : maxHeavy + maxLight < 2 ^ 64)
    (s : QuotaState) (e : QuotaEvent) (h : WithinLimits maxHeavy maxLight s.monitor) :
    WithinLimits maxHeavy maxLight (quotaMachine.next s e).monitor := by
  have hstep := quota_cases s e
  generalize (quotaMachine.next s e).monitor = m at hstep ⊢
  cases hstep with
  | admitted request hrequest hroom hm hout =>
      have hbounded : s.monitor.Bounded := by
        rw [TaskMonitor.Bounded, h.heavy, h.light]
        exact hsum
      have hlt : s.monitor.permissionsGranted.card < maxHeavy + maxLight := by
        have hlimit := of_decide_eq_true hroom
        rw [TaskMonitor.limit_toNat hbounded, h.heavy, h.light] at hlimit
        split at hlimit <;> omega
      subst hm
      refine ⟨?_, ?_, ?_⟩
      · rw [TaskMonitor.grant_maxHeavyTasks, h.heavy]
      · rw [TaskMonitor.grant_maxLightTasks, h.light]
      · exact (s.monitor.card_grant_le request.pid).trans hlt
  | idle hm hout =>
      subst hm
      exact h
  | removed pids hsub hm hout =>
      subst hm
      exact ⟨h.heavy, h.light, (Finset.card_le_card Finset.sdiff_subset).trans h.card⟩

/-! ### Who is a member -/

/-- What one more step of a history says about the permission of a process: a call of
`WaitForNewTask` for it has returned `true`, or it was removed. -/
def heldAfter (pid : Pid) (before : Bool) (step : QuotaEvent × QuotaReply) : Bool :=
  match step.2 with
  | .returned p true => if p = pid then true else before
  | .removed pids => if pid ∈ pids then false else before
  | _ => before

/-- **What a history says about the permission of a process**: some call of `WaitForNewTask` for it
has returned `true` since it was last removed, or since the start. -/
def held (pid : Pid) (history : List (QuotaEvent × QuotaReply)) : Bool :=
  history.foldl (heldAfter pid) false

/-- The set is what the history says. -/
def Answered (history : List (QuotaEvent × QuotaReply)) (s : QuotaState) : Prop :=
  ∀ pid, pid ∈ s.monitor.permissionsGranted ↔ held pid history = true

theorem answered_next {history : List (QuotaEvent × QuotaReply)} {s : QuotaState}
    (h : Answered history s) (e : QuotaEvent) :
    Answered (history ++ [(e, quotaMachine.out s e)]) (quotaMachine.next s e) := by
  intro pid
  have hheld : held pid (history ++ [(e, quotaMachine.out s e)]) =
      heldAfter pid (held pid history) (e, quotaMachine.out s e) := by
    rw [held, List.foldl_concat]
    rfl
  rw [hheld]
  have hstep := quota_cases s e
  generalize (quotaMachine.next s e).monitor = m at hstep ⊢
  generalize quotaMachine.out s e = out at hstep ⊢
  cases hstep with
  | admitted request hrequest hroom hm hout =>
      subst hm hout
      rw [TaskMonitor.mem_grant, heldAfter, h pid]
      by_cases hpid : request.pid = pid
      · simp [hpid]
      · simp [hpid, Ne.symm hpid]
  | idle hm hout =>
      subst hm
      rw [h pid]
      rcases hout with rfl | rfl | ⟨p, rfl⟩ <;> rfl
  | removed pids hsub hm hout =>
      subst hm hout
      rw [heldAfter, Finset.mem_sdiff, h pid]
      by_cases hpid : pid ∈ pids
      · simp [hpid]
      · simp [hpid]

/-- **Quota limits hold.**  In every run, whatever the requests, their timeouts, the drops and the
liveness answers: there are never more permissions than both limits together; a heavyweight request
adds a process only while fewer than `max_heavy_tasks_` permissions are held; and a process is a
member exactly when some call for it has returned `true` since it was last removed. -/
theorem quota_limits (maxConcurrency : Int32) (hardwareConcurrency : UInt32)
    (events : List QuotaEvent) :
    let s := quotaMachine.run (.init maxConcurrency hardwareConcurrency) events
    s.monitor.permissionsGranted.card ≤
        s.monitor.maxHeavyTasks.toNat + s.monitor.maxLightTasks.toNat ∧
      (∀ e request pid, s.request? e = some request → request.lightweight = false →
        pid ∉ s.monitor.permissionsGranted →
        pid ∈ (quotaMachine.next s e).monitor.permissionsGranted →
          s.monitor.permissionsGranted.card < s.monitor.maxHeavyTasks.toNat) ∧
      ∀ pid, pid ∈ s.monitor.permissionsGranted ↔
        held pid (quotaMachine.trace (.init maxConcurrency hardwareConcurrency) events) = true := by
  intro s
  set m₀ := TaskMonitor.init maxConcurrency hardwareConcurrency with hm₀
  have hsum := TaskMonitor.bounded_init maxConcurrency hardwareConcurrency
  have hlimits : WithinLimits m₀.maxHeavyTasks.toNat m₀.maxLightTasks.toNat s.monitor :=
    Machine.run_invariant (M := quotaMachine)
      (P := fun s => WithinLimits m₀.maxHeavyTasks.toNat m₀.maxLightTasks.toNat s.monitor)
      (withinLimits_next hsum) ⟨rfl, rfl, Nat.zero_le _⟩ events
  refine ⟨?_, ?_, ?_⟩
  · rw [hlimits.heavy, hlimits.light]
    exact hlimits.card
  · intro e request pid hrequest hheavy hout hin
    have hstep := quota_cases s e
    generalize (quotaMachine.next s e).monitor = m at hstep hin
    cases hstep with
    | admitted request' hrequest' hroom hm =>
        rw [hrequest] at hrequest'
        cases hrequest'
        simpa [TaskMonitor.hasRoom, TaskMonitor.limit, hheavy] using hroom
    | idle hm => exact absurd (hm ▸ hin) hout
    | removed pids hsub hm =>
        subst hm
        exact absurd (Finset.sdiff_subset hin) hout
  · exact Machine.trace_invariant (M := quotaMachine) (P := Answered)
      (fun pid => by simp [QuotaState.init, TaskMonitor.init, held]) (fun _ _ e h => answered_next h e)
      events

end Local
