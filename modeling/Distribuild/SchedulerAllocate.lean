/-
**Allocating several tasks for one request.**

`SchedulerServiceImpl::WaitForStaringTask` asks the dispatcher for tasks in two loops, one for the
tasks that are needed at once and one for those to be prefetched.  Every call of
`WaitForStartingNewTask` takes `alloc_mutex_` anew, and may sleep, so servants come and go between
two tasks of the same request.  The module runs one such handler, as caller `0` of the dispatcher,
among any other callers, heartbeats, frees and expirations.

All the exits of the handler but one keep what has been granted so far: both loops `break` when no
more can be had, and an error is returned only if nothing was granted.  The exception is the first
loop when the compiler is not found: it returns `NOT_FOUND` on the spot, also after earlier passes
have been granted tasks.  An error carries no message, so nobody is told of these tasks, and they
stay allocated.

Main definitions:

* `Scheduler.WaitForStaringTaskRequest`, `Scheduler.Allocation` — the request and the handler;
* `Scheduler.allocation` — the handler among other threads, as a machine;
* `Scheduler.CompilerStays` — in a step, the first loop does not lose the compiler.

Main results:

* `Scheduler.allocation_simulates`, `Scheduler.allocation_reachable` — seen from the dispatcher, the
  handler is one of its callers;
* `Scheduler.drawn_spec` — what the handler adds to `tasks_`;
* `Scheduler.allocation_all_or_reported` — **all or reported**, where the compiler stays;
* `Scheduler.allocation_leaks` — it may be otherwise.
-/

import Distribuild.SchedulerService
import Distribuild.SchedulerWait

set_option relaxedAutoImplicit false
set_option autoImplicit false

namespace Scheduler

/-! ### The handler -/

structure WaitForStaringTaskRequest where
  token : String
  millsToWait : UInt32
  envDesc : EnviromentDesc
  immeadiateReqs : UInt32
  prefetchReqs : UInt32
  nextKeepAliveInMs : UInt32
  minVersion : UInt32
deriving DecidableEq, Repr

/-- Where the handler is. -/
inductive Phase
  /-- The call has not arrived yet. -/
  | idle
  /-- In the first loop, with this `i`. -/
  | immediate (i : ℕ)
  /-- In the second loop, with this `i`. -/
  | prefetch (i : ℕ)
  /-- The call has returned. -/
  | returned (status : Status)
deriving DecidableEq, Repr

/-- The handler and the dispatcher it works on. -/
structure Allocation where
  waiting : Waiting
  phase : Phase := .idle
  /-- The clock as read at the beginning. -/
  now : TimePoint := 0
  /-- `response->grants()`. -/
  grants : List TaskAllocation := []
  /-- History: the ids under which the handler's own calls have filed a task in `tasks_`. -/
  created : List UInt64 := []

/-- What can happen next. -/
inductive AllocationStep
  /-- The call arrives. -/
  | arrive (now : TimePoint)
  /-- The handler goes on, up to and including its next call of the dispatcher. -/
  | proceed (now : TimePoint)
  /-- A wait of the handler inside the dispatcher ends. -/
  | wake (timedOut : Bool) (now : TimePoint)
  /-- Another thread does something. -/
  | other (e : WaitEvent) (h : e.caller? ≠ some 0)

/-- The checks at the beginning of the handler. -/
def waitForStaringTaskCheck (service : SchedulerServiceImpl)
    (request : WaitForStaringTaskRequest) : Option Status :=
  if !service.userTokenVerifier.verify request.token then
    some { code := .permissionDenied, message := "Token验证失败" }
  else if ms request.millsToWait.toNat > sec 15 ∨ ms request.nextKeepAliveInMs.toNat > sec 30 then
    some { code := .permissionDenied, message := "不合理的超时时间" }
  else none

/-- The task that the handler asks for. -/
def requestedTask (peer : String) (request : WaitForStaringTaskRequest) : TaskInfo where
  requesterIp := peer
  minVersion := request.minVersion
  envDesc := request.envDesc

/-- The ids that a call of the dispatcher draws from `next_task_id_`. -/
def drawn (before after : TaskDispatcher) : List UInt64 :=
  if after.nextTaskId = before.nextTaskId then [] else [before.nextTaskId]

/-- The end of the handler. -/
def Allocation.finish (a : Allocation) : Allocation :=
  { a with
    phase := .returned
      (if a.grants.isEmpty then { code := .resourceExhausted, message := "无编译资源" } else .OK) }

/-- What the handler does with the result of `WaitForStartingNewTask`. -/
def Allocation.receive (a : Allocation) (reply : WaitReply) : Allocation :=
  match a.phase, reply with
  | .immediate i, .answered (.granted added _) =>
      { a with grants := a.grants ++ [added], phase := .immediate (i + 1) }
  | .immediate _, .answered .envNotFound =>
      { a with phase := .returned { code := .notFound, message := "未找到对应编译器" } }
  | .immediate _, .timeout => { a with phase := .prefetch 0 }
  | .prefetch i, .answered (.granted added _) =>
      { a with grants := a.grants ++ [added], phase := .prefetch (i + 1) }
  | .prefetch _, .answered .envNotFound => a.finish
  | .prefetch _, .timeout => a.finish
  -- the call of the dispatcher has not returned
  | _, _ => a

/-- The handler's thread takes a step inside the dispatcher. -/
def Allocation.enter (a : Allocation) (e : WaitEvent) : Allocation :=
  { a with
    waiting := blocking.next a.waiting e
    created := a.created ++ drawn a.waiting.shared (blocking.next a.waiting e).shared }.receive
    (blocking.out a.waiting e)

section Handler

variable (service : SchedulerServiceImpl) (peer : String) (request : WaitForStaringTaskRequest)

/-- The call of `WaitForStartingNewTask` in one of the loops. -/
def requestCall (a : Allocation) (prefetching : Bool) (wait : Duration) (now : TimePoint) :
    WaitEvent :=
  .call 0
    { taskInfo := requestedTask peer request
      expiresIn := ms request.nextKeepAliveInMs.toNat
      prefetching := prefetching }
    (a.now + wait) now

/-- `WaitForStaringTask`, one step at a time. -/
def allocationStep (a : Allocation) : AllocationStep → Allocation
  | .arrive now =>
      match a.phase with
      | .idle =>
          match waitForStaringTaskCheck service request with
          | some status => { a with phase := .returned status }
          | none => { a with phase := .immediate 0, now := now }
      | _ => a
  | .proceed now =>
      let maxWait := ms request.millsToWait.toNat
      match a.phase with
      | .immediate i =>
          if i = request.immeadiateReqs.toNat then { a with phase := .prefetch 0 }
          else a.enter (requestCall peer request a false (if i = 0 then maxWait else 0) now)
      | .prefetch i =>
          if i = request.prefetchReqs.toNat then a.finish
          else a.enter (requestCall peer request a true
            (if a.grants.isEmpty then maxWait else 0) now)
      | _ => a
  | .wake timedOut now =>
      match a.phase with
      | .immediate _ => a.enter (.wake 0 timedOut now)
      | .prefetch _ => a.enter (.wake 0 timedOut now)
      | _ => a
  | .other e _ => { a with waiting := blocking.next a.waiting e }

/-- **The handler among other threads, as a machine.** -/
def allocation : Machine Allocation AllocationStep Unit :=
  ⟨fun a step => (allocationStep service peer request a step, ())⟩

end Handler

def Allocation.init (minMemory : UInt64) : Allocation where
  waiting := .init minMemory

/-! ### Inside the dispatcher -/

@[simp] theorem finish_grants (a : Allocation) : a.finish.grants = a.grants := rfl

@[simp] theorem receive_waiting (a : Allocation) (reply : WaitReply) :
    (a.receive reply).waiting = a.waiting := by
  unfold Allocation.receive
  split <;> rfl

theorem enter_waiting (a : Allocation) (e : WaitEvent) :
    (a.enter e).waiting = blocking.next a.waiting e := receive_waiting ..

/-- Every step of the handler is one event of the dispatcher, or none. -/
theorem allocationStep_waiting (service : SchedulerServiceImpl) (peer : String)
    (request : WaitForStaringTaskRequest) (a : Allocation) (step : AllocationStep) :
    (allocationStep service peer request a step).waiting = a.waiting ∨
      ∃ e, (allocationStep service peer request a step).waiting = blocking.next a.waiting e := by
  cases step with
  | arrive now =>
      refine Or.inl ?_
      simp only [allocationStep]
      split
      · split <;> rfl
      · rfl
  | proceed now =>
      simp only [allocationStep]
      split
      · split
        · exact Or.inl rfl
        · exact Or.inr ⟨_, enter_waiting ..⟩
      · split
        · exact Or.inl rfl
        · exact Or.inr ⟨_, enter_waiting ..⟩
      · exact Or.inl rfl
  | wake timedOut now =>
      simp only [allocationStep]
      split
      · exact Or.inr ⟨_, enter_waiting ..⟩
      · exact Or.inr ⟨_, enter_waiting ..⟩
      · exact Or.inl rfl
  | other e h => exact Or.inr ⟨e, rfl⟩

/-- **Seen from the dispatcher, the handler is one of its callers.** -/
theorem allocation_simulates (service : SchedulerServiceImpl) (peer : String)
    (request : WaitForStaringTaskRequest) :
    blocking.Simulates (allocation service peer request) Allocation.waiting := by
  intro a step
  rcases allocationStep_waiting service peer request a step with h | ⟨e, h⟩
  · exact ⟨[], h.symm⟩
  · exact ⟨[e], h.symm⟩

/-- **Whatever the handler and the others do, the dispatcher is in a state it can reach by its own
operations**, so that its invariants hold behind the handler, too. -/
theorem allocation_reachable (service : SchedulerServiceImpl) (peer : String)
    (request : WaitForStaringTaskRequest) (minMemory : UInt64) (steps : List AllocationStep) :
    dispatcher.Reachable (.init minMemory)
      ((allocation service peer request).run (.init minMemory) steps).waiting.shared := by
  have hblocking : blocking.Reachable (Allocation.init minMemory).waiting
      ((allocation service peer request).run (.init minMemory) steps).waiting :=
    (allocation_simulates service peer request).reachable steps
  obtain ⟨events, hevents⟩ := hblocking
  rw [← hevents]
  have hdispatcher : dispatcher.Reachable (Allocation.init minMemory).waiting.shared
      (blocking.run (Allocation.init minMemory).waiting events).shared :=
    blocking_simulates.reachable events
  exact hdispatcher

/-- **What a caller's step does to the dispatcher**: it is granted a task, or nothing changes. -/
theorem caller_step {w : Waiting} {e : WaitEvent} (h : e.caller? ≠ none) :
    (∃ added p task, blocking.out w e = .answered (.granted added p) ∧
      added.taskId = w.shared.nextTaskId ∧
      (blocking.next w e).shared.nextTaskId = w.shared.nextTaskId + 1 ∧
      (blocking.next w e).shared.tasks = w.shared.tasks.insert w.shared.nextTaskId task) ∨
    ((∀ added p, blocking.out w e ≠ .answered (.granted added p)) ∧
      (blocking.next w e).shared = w.shared) := by
  rcases Monitor.next_cases (M := waitMonitor) w e with ⟨hnext, hout⟩ |
    ⟨caller, w', now, -, -, -, hnext, hout⟩ | ⟨caller, request, deadline, now, hnext, hout⟩ |
    ⟨i, rfl, -⟩
  · refine Or.inr ⟨fun added p heq => ?_, (congrArg Monitor.State.shared hnext).trans rfl⟩
    cases hout.symm.trans heq
  · refine Or.inr ⟨fun added p heq => ?_, (congrArg Monitor.State.shared hnext).trans rfl⟩
    cases hout.symm.trans heq
  · have hshared := congrArg Monitor.State.shared hnext
    rcases look_cases w caller request deadline now with ⟨-, hlook, hsame⟩ | ⟨hlook, hsame⟩ |
      ⟨p, hlook, hstart⟩
    · refine Or.inr ⟨fun added p hgrant => ?_, hshared.trans hsame⟩
      cases hlook.symm.trans (hout.symm.trans hgrant)
    · refine Or.inr ⟨fun added p hgrant => ?_, hshared.trans hsame⟩
      cases hlook.symm.trans (hout.symm.trans hgrant)
    · obtain ⟨task, -, -, hins, -⟩ := startNewTask_lookup w.shared p request.taskInfo
        request.expiresIn request.prefetching now w.shared.nextTaskId
      refine Or.inl ⟨_, p, task, hout.trans hlook, rfl, ?_, ?_⟩
      · exact congrArg TaskDispatcher.nextTaskId (hshared.trans hstart)
      · exact (congrArg TaskDispatcher.tasks (hshared.trans hstart)).trans hins
  · exact absurd rfl h

/-- **What the handler adds to `tasks_`** in one step: nothing, or one task under the id it drew. -/
theorem drawn_spec {w : Waiting} {e : WaitEvent} (h : e.caller? ≠ none) :
    (drawn w.shared (blocking.next w e).shared = [] ∧
      (blocking.next w e).shared.tasks = w.shared.tasks ∧
      ∀ added p, blocking.out w e ≠ .answered (.granted added p)) ∨
    ∃ added p task, blocking.out w e = .answered (.granted added p) ∧
      drawn w.shared (blocking.next w e).shared = [added.taskId] ∧
      (blocking.next w e).shared.tasks = w.shared.tasks.insert added.taskId task := by
  rcases caller_step (w := w) h with ⟨added, p, task, hout, hid, hnext, htasks⟩ | ⟨hout, hsame⟩
  · refine Or.inr ⟨added, p, task, hout, ?_, hid ▸ htasks⟩
    have hne : w.shared.nextTaskId + 1 ≠ w.shared.nextTaskId := by
      intro heq
      have hnat := congrArg UInt64.toNat heq
      have hlt := w.shared.nextTaskId.toNat_lt
      rw [UInt64.toNat_add, UInt64.toNat_one] at hnat
      omega
    rw [drawn, hnext, if_neg hne, hid]
  · refine Or.inl ⟨?_, congrArg TaskDispatcher.tasks hsame, hout⟩
    rw [drawn, hsame, if_pos rfl]

/-! ### All or reported -/

section AllOrReported

variable (service : SchedulerServiceImpl) (peer : String) (request : WaitForStaringTaskRequest)

/-- **The compiler stays.**  Whenever the first loop looks at the servants after it has been granted
a task, some registered servant still has the compiler and accepts tasks. -/
def CompilerStays (a : Allocation) : AllocationStep → Prop
  | .proceed _ => ∀ i, a.phase = .immediate i → i ≠ request.immeadiateReqs.toNat →
      a.grants ≠ [] → unsafeGetServantsHasEnv a.waiting.shared (requestedTask peer request) ≠ []
  | .wake false _ => ∀ i, a.phase = .immediate i →
      a.grants ≠ [] → unsafeGetServantsHasEnv a.waiting.shared (requestedTask peer request) ≠ []
  | _ => True

/-- The invariant of the handler. -/
structure Reported (a : Allocation) : Prop where
  /-- What was created is what the response will say. -/
  created : a.created = a.grants.map TaskAllocation.taskId
  /-- The handler sleeps with its own request. -/
  asleep : ∀ w, a.waiting.waiting 0 = some w → w.request.taskInfo = requestedTask peer request
  /-- Before the call arrives nothing has been granted. -/
  idle : a.phase = .idle → a.grants = []
  /-- An error is returned only if nothing was granted. -/
  error : ∀ status, a.phase = .returned status → status.code ≠ .ok → a.grants = []

variable {service peer request}

theorem reported_init (minMemory : UInt64) : Reported peer request (.init minMemory) where
  created := rfl
  asleep := fun w hw => by cases hw
  idle := fun _ => rfl
  error := fun status h => by cases h

/-- In the loops there is nothing to say about the status. -/
theorem Reported.of_running {a : Allocation}
    (hcreated : a.created = a.grants.map TaskAllocation.taskId)
    (hasleep : ∀ w, a.waiting.waiting 0 = some w →
      w.request.taskInfo = requestedTask peer request)
    (hphase : (∃ i, a.phase = .immediate i) ∨ ∃ i, a.phase = .prefetch i) :
    Reported peer request a := by
  refine ⟨hcreated, hasleep, fun hidle => ?_, fun status hret => ?_⟩
  · rcases hphase with ⟨i, hi⟩ | ⟨i, hi⟩
    · cases hi.symm.trans hidle
    · cases hi.symm.trans hidle
  · rcases hphase with ⟨i, hi⟩ | ⟨i, hi⟩
    · cases hi.symm.trans hret
    · cases hi.symm.trans hret

/-- The end of the handler reports what was granted. -/
theorem Reported.finish {a : Allocation} (h : Reported peer request a) :
    Reported peer request a.finish where
  created := h.created
  asleep := h.asleep
  idle := fun hidle => by cases hidle
  error := by
    intro status hstatus herror
    cases hstatus
    cases hgrants : a.grants with
    | nil => rw [finish_grants, hgrants]
    | cons added rest =>
        rw [hgrants] at herror
        exact absurd rfl herror

/-- A caller is told that the compiler is missing only if no servant has it. -/
theorem env_missing {w : Waiting} {e : WaitEvent} {taskInfo : TaskInfo}
    (hcall : ∀ r deadline now, e = .call 0 r deadline now → r.taskInfo = taskInfo)
    (hwake : ∀ w', w.waiting 0 = some w' → w'.request.taskInfo = taskInfo)
    (h0 : e.caller? = some 0) (hout : blocking.out w e = .answered .envNotFound) :
    unsafeGetServantsHasEnv w.shared taskInfo = [] ∧ ∀ now, e ≠ .wake 0 true now := by
  obtain ⟨caller, r, now, hcaller, hasked, hanswer⟩ := Monitor.out_eq_answered hout
  cases h0.symm.trans hcaller
  have henv : unsafeGetServantsHasEnv w.shared r.taskInfo = [] := by
    change (attemptToStart w.shared r now).2 = _ at hanswer
    rcases attemptToStart_cases w.shared r now with ⟨henv, -⟩ | ⟨-, heq⟩ | ⟨p, -, heq⟩
    · exact henv
    · rw [heq] at hanswer
      cases hanswer
    · rw [heq] at hanswer
      cases hanswer
  rcases hasked with ⟨deadline, rfl⟩ | ⟨rfl, w', hw, rfl⟩
  · exact ⟨hcall r deadline now rfl ▸ henv, fun now' heq => by cases heq⟩
  · exact ⟨hwake w' hw ▸ henv, fun now' heq => by cases heq⟩

/-- **A step inside the dispatcher keeps the handler's invariant**, if the first loop is not told
that the compiler is missing after it has been granted a task. -/
theorem Reported.enter {a : Allocation} (h : Reported peer request a) {e : WaitEvent}
    (h0 : e.caller? = some 0)
    (hcall : ∀ r deadline now, e = .call 0 r deadline now →
      r.taskInfo = requestedTask peer request)
    (hphase : (∃ i, a.phase = .immediate i) ∨ ∃ i, a.phase = .prefetch i)
    (hstays : ∀ i, a.phase = .immediate i → blocking.out a.waiting e = .answered .envNotFound →
      a.grants = []) : Reported peer request (a.enter e) := by
  have hcaller : e.caller? ≠ none := by
    rw [h0]
    exact Option.some_ne_none 0
  have hasleep : ∀ w, (blocking.next a.waiting e).waiting 0 = some w →
      w.request.taskInfo = requestedTask peer request := by
    intro w hw
    rcases Monitor.waiting_next hw with ⟨w₀, hw₀, hreq⟩ | ⟨deadline, now, he⟩
    · rw [← hreq]
      exact h.asleep w₀ hw₀
    · exact hcall _ deadline now he
  -- the handler after the dispatcher has moved and before it looks at the reply
  rcases drawn_spec (w := a.waiting) hcaller with ⟨hdrawn, -, hout⟩ |
    ⟨added, p, task, hout, hdrawn, -⟩
  · have hmoved : Reported peer request { a with
        waiting := blocking.next a.waiting e
        created := a.created ++ drawn a.waiting.shared (blocking.next a.waiting e).shared } :=
      { created := by rw [hdrawn, List.append_nil]; exact h.created
        asleep := hasleep
        idle := h.idle
        error := h.error }
    unfold Allocation.enter Allocation.receive
    split
    next i added p hph hreply => exact absurd hreply (hout added p)
    next i hph hreply =>
      have hnone := hstays i hph hreply
      exact ⟨hmoved.created, hasleep, fun _ => hnone, fun _ _ _ => hnone⟩
    next i hph hreply =>
      exact Reported.of_running hmoved.created hasleep (Or.inr ⟨0, rfl⟩)
    next i added p hph hreply => exact absurd hreply (hout added p)
    next i hph hreply => exact hmoved.finish
    next i hph hreply => exact hmoved.finish
    next => exact hmoved
  · have hcreated : a.created ++ drawn a.waiting.shared (blocking.next a.waiting e).shared =
        (a.grants ++ [added]).map TaskAllocation.taskId := by
      rw [hdrawn, h.created, List.map_append]
      rfl
    unfold Allocation.enter
    rw [hout]
    rcases hphase with ⟨i, hph⟩ | ⟨i, hph⟩
    · simp only [Allocation.receive, hph]
      exact Reported.of_running hcreated hasleep (Or.inl ⟨i + 1, rfl⟩)
    · simp only [Allocation.receive, hph]
      exact Reported.of_running hcreated hasleep (Or.inr ⟨i + 1, rfl⟩)

/-- **One step keeps the handler's invariant**, if the compiler stays. -/
theorem reported_step {a : Allocation} {step : AllocationStep}
    (hstays : CompilerStays peer request a step) (h : Reported peer request a) :
    Reported peer request (allocationStep service peer request a step) := by
  cases step with
  | arrive now =>
      simp only [allocationStep]
      split
      next hidle =>
        split
        · exact ⟨h.created, h.asleep, fun _ => h.idle hidle, fun _ _ _ => h.idle hidle⟩
        · exact Reported.of_running h.created h.asleep (Or.inl ⟨0, rfl⟩)
      · exact h
  | proceed now =>
      simp only [allocationStep]
      split
      next i hph =>
        split
        next => exact Reported.of_running h.created h.asleep (Or.inr ⟨0, rfl⟩)
        next hi =>
          have hreq : ∀ r deadline now', requestCall peer request a false
              (if i = 0 then ms request.millsToWait.toNat else 0) now = .call 0 r deadline now' →
              r.taskInfo = requestedTask peer request := by
            intro r deadline now' heq
            cases heq
            rfl
          refine h.enter rfl hreq (Or.inl ⟨i, hph⟩) fun j _ hout => ?_
          by_contra hgrants
          exact hstays i hph hi hgrants (env_missing hreq h.asleep rfl hout).1
      next i hph =>
        split
        next => exact h.finish
        next hi =>
          refine h.enter rfl (fun r deadline now' heq => ?_) (Or.inr ⟨i, hph⟩) fun j hj _ => ?_
          · cases heq
            rfl
          · rw [hph] at hj
            cases hj
      · exact h
  | wake timedOut now =>
      simp only [allocationStep]
      split
      next i hph =>
        have hreq : ∀ r deadline now', (.wake 0 timedOut now : WaitEvent) = .call 0 r deadline now' →
            r.taskInfo = requestedTask peer request := fun r deadline now' heq => by cases heq
        refine h.enter rfl hreq (Or.inl ⟨i, hph⟩) fun j _ hout => ?_
        obtain ⟨henv, hnot⟩ := env_missing hreq h.asleep rfl hout
        cases timedOut with
        | true => exact absurd rfl (hnot now)
        | false =>
            by_contra hgrants
            exact hstays i hph hgrants henv
      next i hph =>
        refine h.enter rfl (fun r deadline now' heq => by cases heq) (Or.inr ⟨i, hph⟩) fun j hj _ => ?_
        rw [hph] at hj
        cases hj
      · exact h
  | other e he =>
      refine ⟨h.created, fun w hw => ?_, h.idle, h.error⟩
      rcases Monitor.waiting_next hw with ⟨w₀, hw₀, hreq⟩ | ⟨deadline, now, heq⟩
      · rw [← hreq]
        exact h.asleep w₀ hw₀
      · rw [heq] at he
        exact absurd rfl he

end AllOrReported

/-- **All or reported.**  In every run of the handler among other threads in which the compiler
stays, the ids that it has added to `tasks_` are those of the response when it returns `OK`, and
none of them is in `tasks_` when it returns an error. -/
theorem allocation_all_or_reported (service : SchedulerServiceImpl) (peer : String)
    (request : WaitForStaringTaskRequest) (minMemory : UInt64) (steps : List AllocationStep)
    (hstays : (allocation service peer request).Along (CompilerStays peer request)
      (.init minMemory) steps) :
    let a := (allocation service peer request).run (.init minMemory) steps
    ∀ status, a.phase = .returned status →
      (status.code = .ok → a.created = a.grants.map TaskAllocation.taskId) ∧
      (status.code ≠ .ok → ∀ id ∈ a.created, id ∉ a.waiting.shared.tasks) := by
  intro a status hstatus
  have h : Reported peer request a :=
    Machine.run_invariant_along (M := allocation service peer request)
      (C := CompilerStays peer request) (P := Reported peer request)
      (fun a step hC ha => reported_step hC ha) (reported_init minMemory) hstays
  refine ⟨fun _ => h.created, fun herror id hid => ?_⟩
  rw [h.created, h.error status hstatus herror] at hid
  cases hid

/-! ### A request for two tasks -/

/-- A service that knows one token. -/
def sampleService : SchedulerServiceImpl where
  userTokenVerifier := { recognizedTokens := ["user"] }
  servantTokenVerifier := { recognizedTokens := ["servant"] }
  activeDaemonTokens := ["a", "b", "c"]

/-- A request for two tasks at once. -/
def sampleRequest : WaitForStaringTaskRequest where
  token := "user"
  millsToWait := 0
  envDesc := ⟨"gcc"⟩
  immeadiateReqs := 2
  prefetchReqs := 0
  nextKeepAliveInMs := 10000
  minVersion := 1

/-- The peer of the requests. -/
def samplePeer : String := "ipv4:10.0.0.9:40000"

/-- A heartbeat of the servant of `Scheduler.sampleInfo` with these compilers. -/
def sampleBeat (envDecs : List EnviromentDesc) : AllocationStep :=
  .other (.op ⟨.keepServantAlive { sampleInfo with envDecs := envDecs } (sec 10) 0, rfl⟩)
    (by intro h; cases h)

/-- Both tasks are granted and reported. -/
theorem allocation_all_or_reported_two :
    let steps := [sampleBeat [⟨"gcc"⟩], .arrive 0, .proceed 0, .proceed 0, .proceed 0, .proceed 0]
    let a := (allocation sampleService samplePeer sampleRequest).run (.init 0) steps
    a.phase = .returned .OK ∧ a.created = [0, 1] ∧
      a.created = a.grants.map TaskAllocation.taskId := by
  intro steps a
  have hret : a.phase = .returned .OK := by decide
  refine ⟨hret, by decide, ?_⟩
  refine (allocation_all_or_reported sampleService samplePeer sampleRequest 0 steps ?_ _ hret).1 rfl
  refine ⟨trivial, trivial, fun i _ _ => ?_, fun i _ _ => ?_, fun i _ _ => ?_, fun i _ _ => ?_,
    trivial⟩
  all_goals
    intro _
    decide

/-- **A task that nobody is told of.**  After the first of two tasks has been granted, the servant
reports that it has lost the compiler; the handler returns `NOT_FOUND`, and task `0` stays
allocated. -/
theorem allocation_leaks :
    let steps := [sampleBeat [⟨"gcc"⟩], .arrive 0, .proceed 0, sampleBeat [], .proceed 0]
    let a := (allocation sampleService samplePeer sampleRequest).run (.init 0) steps
    a.phase = .returned { code := .notFound, message := "未找到对应编译器" } ∧
      a.created = [0] ∧ (0 : UInt64) ∈ a.waiting.shared.tasks := by
  decide

end Scheduler
