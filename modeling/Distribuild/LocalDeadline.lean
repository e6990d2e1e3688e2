/-
**The start deadline of a task.**

`QueueTask` is given a time at which a task is to have started.  `OnTimerTimeoutAbort` marks a task
as aborted once this time has passed, and it does not look at the state of the task.  A compile that
has been dispatched in time is therefore cut off when it runs for longer, and a result that is
there, but has not been fetched, is dropped by `OnTimerClear`, which deletes what is `Done` and
aborted.

A task leaves `Pending` when it gets a grant, when it joins a compile, or when it is `Done` at once;
the code notes the time in `ready_tp` and in `completed_tp`.  The timer leaves alone what started in
time exactly if it finds no such task past its deadline in the table.  In runs where this is so, a
result stays for its client until a minute after the deadline.

Main definitions:

* `Local.TaskDesc.leftPending`, `Local.TaskDesc.InTime` — when a task left `Pending`;
* `Local.Aborts` — a step marks a task as aborted;
* `Local.SparesStarted` — `OnTimerTimeoutAbort` never marks a task that started in time;
* `Local.KeepsResults` — results stay;
* `Local.FindsNoneStarted` — the condition on a step.

Main results:

* `Local.Change.leftPending` — a step that takes a task out of `Pending` notes the time, and no
  other step touches it;
* `Local.sparesStarted_iff` — **when tasks that started in time are spared**, and that results stay
  then;
* `Local.startDeadline_missed` — a result is lost that was there in time.
-/

import Distribuild.LocalLifecycle

set_option relaxedAutoImplicit false
set_option autoImplicit false

namespace Local

open Cloud (TimePoint minute)

/-! ### Leaving `Pending` -/

namespace TaskDesc

/-- The time at which the task left `Pending`: a task that does not get `Ready` or `Dispatched`
leaves it by its completion. -/
def leftPending (desc : TaskDesc) : Option TimePoint := desc.readyTp.or desc.completedTp

/-- The task left `Pending` no later than its deadline. -/
def InTime (desc : TaskDesc) : Prop := ∃ time, desc.leftPending = some time ∧ time ≤ desc.startDeadline

/-- The times go with the state. -/
structure Stamped (desc : TaskDesc) : Prop where
  fits : desc.phase.Fits desc.state
  pending : desc.leftPending = none ↔ desc.state = .pending
  completed : desc.phase ≠ .ended → desc.completedTp = none

variable {now : TimePoint} {desc desc' : TaskDesc} {op : PerformOp}

theorem Moved.stamped (h : Moved now desc op desc') (hs : desc.Stamped) : desc'.Stamped := by
  cases h with
  | stays => exact hs
  | proceeds output hnext =>
      refine ⟨hnext.fits hs.fits, hs.pending, fun _ => hs.completed fun hended => ?_⟩
      rw [hended] at hnext
      cases hnext.runs.1
  | joins runningTask hphase =>
      refine ⟨rfl, iff_of_false (fun hnone => ?_) TaskState.noConfusion,
        fun _ => hs.completed (by rw [hphase]; exact Phase.noConfusion)⟩
      cases hnone
  | readies hphase =>
      refine ⟨rfl, iff_of_false (fun hnone => ?_) TaskState.noConfusion,
        fun _ => hs.completed (by rw [hphase]; exact Phase.noConfusion)⟩
      cases hnone
  | dispatches taskId hphase =>
      have hstate : desc.state = .ready := fits_of hs.fits hphase
      refine ⟨rfl, iff_of_false (fun hnone => ?_) TaskState.noConfusion,
        fun _ => hs.completed (by rw [hphase]; exact Phase.noConfusion)⟩
      rw [hs.pending.1 hnone] at hstate
      cases hstate
  | completes hphase htask =>
      refine ⟨rfl, iff_of_false (fun hnone => ?_) TaskState.noConfusion, fun hne => absurd rfl hne⟩
      cases (Option.or_eq_none_iff.1 hnone).2

/-- **A step that takes the task out of `Pending` notes the time.** -/
theorem Moved.leftPending (h : Moved now desc op desc') (hs : desc.Stamped) :
    desc'.leftPending = desc.leftPending ∨
      desc.leftPending = none ∧ desc'.leftPending = some now := by
  cases h with
  | stays | proceeds | dispatches => exact Or.inl rfl
  | joins runningTask hphase => exact Or.inr ⟨hs.pending.2 (fits_of hs.fits hphase), rfl⟩
  | readies hphase => exact Or.inr ⟨hs.pending.2 (fits_of hs.fits hphase), rfl⟩
  | @completes _ t hphase htask =>
      have hnone : desc.completedTp = none := hs.completed (by rw [hphase]; exact Phase.noConfusion)
      cases hready : desc.readyTp with
      | some time =>
          left
          show desc.readyTp.or (some now) = desc.readyTp.or desc.completedTp
          rw [hready, Option.some_or, Option.some_or]
      | none =>
          right
          refine ⟨?_, ?_⟩
          · rw [TaskDesc.leftPending, hready, hnone, Option.none_or]
          · show desc.readyTp.or (some now) = some now
            rw [hready, Option.none_or]

end TaskDesc

section Steps

variable {s : TaskDispatcher} {input : Input} {p : ℕ} {desc desc' : TaskDesc}

theorem Change.stamped (h : Change s input p desc desc') (hs : desc.Stamped) : desc'.Stamped := by
  cases h with
  | inserted hphase =>
      have hpending : desc.state = .pending := TaskDesc.fits_of hs.fits hphase
      exact ⟨hpending, hs.pending, fun _ => hs.completed (by rw [hphase]; exact Phase.noConfusion)⟩
  | performed op => exact (desc.perform_moved s.clock op).stamped hs
  | _ => exact ⟨hs.fits, hs.pending, hs.completed⟩

/-- The time at which a task left `Pending` is that of the step that took it out, and stays. -/
theorem Change.leftPending (h : Change s input p desc desc') (hs : desc.Stamped) :
    desc'.leftPending = desc.leftPending ∨
      desc.leftPending = none ∧ desc'.leftPending = some s.clock := by
  cases h with
  | performed op => exact (desc.perform_moved s.clock op).leftPending hs
  | _ => exact Or.inl rfl

theorem stamped_run {is : List Input} (hp : (taskDispatcher.run {} is).descs[p]? = some desc) :
    desc.Stamped := by
  refine Machine.run_invariant (M := taskDispatcher) (s := {})
    (P := fun s => ∀ (p : ℕ) (desc : TaskDesc), s.descs[p]? = some desc → desc.Stamped) ?_ ?_ is
    p desc hp
  · intro s input ih p desc' hp'
    rcases next_descs_cases hp' with ⟨desc, hp, hchange⟩ | ⟨rfl, task, startDeadline, -, rfl⟩
    · exact hchange.stamped (ih p desc hp)
    · exact ⟨rfl, iff_of_true rfl rfl, fun _ => rfl⟩
  · intro p desc hp
    cases hp

/-- **The induction rule for one object**: what every change keeps, a run keeps. -/
theorem run_change {P : TaskDispatcher → TaskDesc → Prop}
    (hstep : ∀ {s input p desc desc'}, Change s input p desc desc' → P s desc →
      P (taskDispatcher.next s input) desc')
    (hp : s.descs[p]? = some desc) (h : P s desc) (is : List Input) :
    ∃ desc', (taskDispatcher.run s is).descs[p]? = some desc' ∧ P (taskDispatcher.run s is) desc' := by
  induction is generalizing s desc with
  | nil => exact ⟨desc, hp, h⟩
  | cons input is ih =>
      obtain ⟨desc', hp', hchange⟩ := next_descs_change hp input
      exact ih hp' (hstep hchange h)

/-- Once in time, for ever in time. -/
theorem inTime_run (hp : s.descs[p]? = some desc) (hs : desc.Stamped) (hin : desc.InTime)
    (is : List Input) :
    ∃ desc', (taskDispatcher.run s is).descs[p]? = some desc' ∧ desc'.InTime := by
  have hstep : ∀ {s input p desc desc'}, Change s input p desc desc' → desc.Stamped ∧ desc.InTime →
      desc'.Stamped ∧ desc'.InTime := by
    rintro s input p desc desc' hchange ⟨hs, time, htime, hle⟩
    refine ⟨hchange.stamped hs, time, ?_, by rwa [hchange.startDeadline]⟩
    rcases hchange.leftPending hs with hsame | ⟨hnone, -⟩
    · rw [hsame, htime]
    · rw [hnone] at htime
      cases htime
  obtain ⟨desc', hp', -, hin'⟩ :=
    run_change (P := fun _ desc => desc.Stamped ∧ desc.InTime) hstep hp ⟨hs, hin⟩ is
  exact ⟨desc', hp', hin'⟩

/-- A task that is not in time when its deadline has passed is never in time. -/
theorem not_inTime_run (hp : s.descs[p]? = some desc) (hs : desc.Stamped)
    (hpast : desc.startDeadline < s.clock) (hlate : ¬ desc.InTime) (is : List Input) :
    ∃ desc', (taskDispatcher.run s is).descs[p]? = some desc' ∧ ¬ desc'.InTime := by
  have hstep : ∀ {s input p desc desc'}, Change s input p desc desc' →
      desc.Stamped ∧ desc.startDeadline < s.clock ∧ ¬ desc.InTime →
      desc'.Stamped ∧ desc'.startDeadline < (taskDispatcher.next s input).clock ∧ ¬ desc'.InTime := by
    rintro s input p desc desc' hchange ⟨hs, hpast, hlate⟩
    refine ⟨hchange.stamped hs, ?_, ?_⟩
    · rw [hchange.startDeadline]
      exact hpast.trans_le (next_frame s input).2.1
    · rintro ⟨time, htime, hle⟩
      rw [hchange.startDeadline] at hle
      rcases hchange.leftPending hs with hsame | ⟨-, hnow⟩
      · exact hlate ⟨time, by rw [← hsame, htime], hle⟩
      · -- it leaves `Pending` now, which is too late
        rw [hnow] at htime
        obtain rfl := Option.some_inj.1 htime
        exact absurd hpast (not_lt.2 hle)
  obtain ⟨desc', hp', -, -, hlate'⟩ := run_change
    (P := fun s desc => desc.Stamped ∧ desc.startDeadline < s.clock ∧ ¬ desc.InTime) hstep hp
    ⟨hs, hpast, hlate⟩ is
  exact ⟨desc', hp', hlate'⟩

end Steps

/-! ### Who aborts a task -/

/-- The step marks the task at a place as aborted. -/
def Aborts (s : TaskDispatcher) (input : Input) (p : ℕ) : Prop :=
  ∃ desc desc', s.descs[p]? = some desc ∧ (taskDispatcher.next s input).descs[p]? = some desc' ∧
    desc.aborted = false ∧ desc'.aborted = true

/-- The step is one of `OnTimerTimeoutAbort`. -/
def Input.timesOut : Input → Bool
  | .onTimerTimeoutAbort _ => true
  | _ => false

/-- **`OnTimerTimeoutAbort` spares tasks that started in time**: those that it marks in the run did
not leave `Pending` in time, neither before nor later. -/
def SparesStarted (is : List Input) : Prop :=
  ∀ js input ks p, is = js ++ input :: ks → input.timesOut = true →
    Aborts (taskDispatcher.run {} js) input p →
    ∀ desc, (taskDispatcher.run {} is).descs[p]? = some desc → ¬ desc.InTime

/-- Whenever `OnTimerTimeoutAbort` goes over the table, it finds no task past its deadline that
started in time, except those that are aborted already. -/
def FindsNoneStarted (s : TaskDispatcher) : Input → Prop
  | .onTimerTimeoutAbort now => ∀ taskId p desc, s.tasks.lookup taskId = some p →
      s.descs[p]? = some desc → desc.startDeadline < min now s.clock →
      desc.aborted = true ∨ ¬ desc.InTime
  | _ => True

/-- The step is one of the timers that mark tasks. -/
def Input.aborts : Input → Bool
  | .onTimerTimeoutAbort _ => true
  | .onTimerKeepAlive _ => true
  | .onTimerKilledAbort _ => true
  | _ => false

section Steps

variable {s : TaskDispatcher} {input : Input} {p : ℕ} {desc desc' : TaskDesc}

/-- The change that marks a task. -/
theorem Aborts.change (h : Aborts s input p) :
    ∃ desc desc', s.descs[p]? = some desc ∧ Change s input p desc desc' ∧ desc.aborted = false ∧
      desc'.aborted = true := by
  obtain ⟨desc, desc', hp, hp', hfalse, htrue⟩ := h
  obtain ⟨desc'', hp'', hchange⟩ := next_descs_change hp input
  obtain rfl := Option.some_inj.1 (hp'.symm.trans hp'')
  exact ⟨desc, desc', hp, hchange, hfalse, htrue⟩

/-- Only timers mark tasks. -/
theorem Aborts.aborts (h : Aborts s input p) : input.aborts = true := by
  obtain ⟨desc, desc', -, hchange, hfalse, htrue⟩ := h.change
  cases hchange with
  | timedOut | stale | killed => rfl
  | performed op =>
      rw [(desc.perform_moved s.clock op).frame.2.2.1, hfalse] at htrue
      cases htrue
  | _ =>
      rw [hfalse] at htrue
      cases htrue

theorem next_onTimerTimeoutAbort {now : TimePoint} (hp : s.descs[p]? = some desc)
    (hlisted : s.listed p = true) (hpast : desc.startDeadline < min now s.clock) :
    (taskDispatcher.next s (.onTimerTimeoutAbort now)).descs[p]? =
      some { desc with aborted := true } := by
  show (s.onTimerTimeoutAbort (min now s.clock)).descs[p]? = _
  rw [TaskDispatcher.onTimerTimeoutAbort, TaskDispatcher.getElem?_modifyWhere, hp, Option.map_some,
    if_pos hlisted, if_pos hpast]

/-- What `OnTimerTimeoutAbort` marks is in the table and past its deadline. -/
theorem Aborts.past {now : TimePoint} (h : Aborts s (.onTimerTimeoutAbort now) p)
    (hp : s.descs[p]? = some desc) :
    desc.aborted = false ∧ s.listed p = true ∧ desc.startDeadline < min now s.clock := by
  obtain ⟨desc₀, desc', hp₀, hchange, hfalse, htrue⟩ := h.change
  obtain rfl := Option.some_inj.1 (hp.symm.trans hp₀)
  cases hchange with
  | unchanged =>
      rw [hfalse] at htrue
      cases htrue
  | timedOut hlisted hpast => exact ⟨hfalse, hlisted, hpast⟩

theorem sparesStarted_of_along {is : List Input}
    (h : taskDispatcher.Along FindsNoneStarted {} is) : SparesStarted is := by
  rintro js input ks p rfl htimer haborts desc hp
  cases input with
  | onTimerTimeoutAbort now =>
      obtain ⟨desc₀, -, hp₀, -⟩ := id haborts
      obtain ⟨hfalse, hlisted, hpast⟩ := haborts.past hp₀
      obtain ⟨taskId, hlook⟩ := TaskDispatcher.listed_iff.1 hlisted
      have hlate : ¬ desc₀.InTime := by
        rcases Machine.along_iff.1 h js _ ks rfl taskId p desc₀ hlook hp₀ hpast with htrue | hlate
        · rw [hfalse] at htrue
          cases htrue
        · exact hlate
      obtain ⟨desc', hp', hlate'⟩ := not_inTime_run hp₀ (stamped_run hp₀)
        (hpast.trans_le (min_le_right _ _)) hlate (.onTimerTimeoutAbort now :: ks)
      rw [Machine.run_append, hp'] at hp
      rwa [← Option.some_inj.1 hp]
  | _ => cases htimer

theorem along_of_sparesStarted {is : List Input} (h : SparesStarted is) :
    taskDispatcher.Along FindsNoneStarted {} is := by
  refine Machine.along_iff.2 ?_
  rintro js input ks rfl
  cases input with
  | onTimerTimeoutAbort now =>
      intro taskId p desc hlook hp hpast
      by_contra hboth
      rw [not_or, not_not, Bool.not_eq_true] at hboth
      have hlisted := TaskDispatcher.listed_iff.2 ⟨taskId, hlook⟩
      have haborts : Aborts (taskDispatcher.run {} js) (.onTimerTimeoutAbort now) p :=
        ⟨desc, _, hp, next_onTimerTimeoutAbort hp hlisted hpast, hboth.1, rfl⟩
      obtain ⟨desc', hp', hin⟩ := inTime_run hp (stamped_run hp) hboth.2
        (.onTimerTimeoutAbort now :: ks)
      rw [← Machine.run_append] at hp'
      exact h js _ ks p rfl rfl haborts desc' hp' hin
  | _ => trivial

end Steps

/-! ### Results stay -/

/-- A call of `WaitForTask` has had the event of the task. -/
def TaskDispatcher.Taken (s : TaskDispatcher) (taskId : UInt64) : Prop :=
  ∃ (k : ℕ) (call : WaitCall), s.calls[k]? = some call ∧ call.taskId = taskId ∧
    call.phase.took = true

/-- A call of `WaitForTask` would return the task. -/
def TaskDispatcher.Retrievable (s : TaskDispatcher) (taskId : UInt64) : Prop :=
  ∃ t, (taskDispatcher.run s
    [.waitFind taskId, .waitEvent s.calls.length, .waitErase s.calls.length,
      .waitMove s.calls.length]).calls[s.calls.length]? = some ⟨taskId, .returned .ok (some t)⟩

/-- The result of a task is where a call finds it, or a call has it. -/
structure TaskDispatcher.Keeps (s : TaskDispatcher) (p : ℕ) (desc : TaskDesc) : Prop where
  event : desc.phase = .ended → desc.completionEvent = true ∨ s.Taken desc.taskId
  entry : desc.phase ≠ .created → desc.aborted = false → s.clock ≤ desc.startDeadline + minute →
    s.tasks.lookup desc.taskId = some p ∨ s.Taken desc.taskId

section Steps

variable {s : TaskDispatcher} {input : Input} {p : ℕ} {desc desc' : TaskDesc}

theorem CallChange.took {k : ℕ} {call call' : WaitCall} (h : CallChange s input k call call')
    (htook : call.phase.took = true) : call'.phase.took = true := by
  cases h with
  | unchanged => exact htook
  | timedOut | woken => cases htook
  | erased | moved => rfl

theorem TaskDispatcher.Taken.next {taskId : UInt64} (h : s.Taken taskId) :
    (taskDispatcher.next s input).Taken taskId := by
  obtain ⟨k, call, hk, hid, htook⟩ := h
  obtain ⟨call', hk', hchange⟩ := next_calls_change hk input
  exact ⟨k, call', hk', hchange.taskId.trans hid, hchange.took htook⟩

/-- A task that is not aborted after the step was not aborted before. -/
theorem Change.aborted (h : Change s input p desc desc') (hfalse : desc'.aborted = false) :
    desc.aborted = false := by
  cases h with
  | performed op => rwa [(desc.perform_moved s.clock op).frame.2.2.1] at hfalse
  | timedOut | stale | killed => cases hfalse
  | _ => exact hfalse

/-- Only `QueueTask` brings an object into the table. -/
theorem Change.inserted_of_created (h : Change s input p desc desc') (hcreated : desc.phase = .created)
    (hne : desc'.phase ≠ .created) : input = .insertTask p := by
  cases h with
  | inserted => rfl
  | performed op =>
      rw [(desc.perform_moved s.clock op).eq_of_not_runs (by rw [hcreated]; rfl)] at hne
      exact absurd hcreated hne
  | _ => exact absurd hcreated hne

/-- The event is set at the end, and stays so until a call has it. -/
theorem Change.event_cases (h : Change s input p desc desc') (hended : desc'.phase = .ended) :
    desc'.completionEvent = true ∨ (desc.phase = .ended ∧ desc.completionEvent = false) ∨
      ∃ k taskId, input = .waitEvent k ∧ s.calls[k]? = some ⟨taskId, .found p⟩ ∧
        desc.completionEvent = true := by
  have hkeep : desc.phase = .ended → desc'.completionEvent = desc.completionEvent →
      desc'.completionEvent = true ∨ (desc.phase = .ended ∧ desc.completionEvent = false) := by
    intro hphase hsame
    cases hset : desc.completionEvent with
    | true => exact Or.inl (hsame.trans hset)
    | false => exact Or.inr ⟨hphase, rfl⟩
  cases h with
  | inserted hphase => cases hended
  | performed op =>
      have hmoved := desc.perform_moved s.clock op
      by_cases hphase : desc.phase = .ended
      · rw [hmoved.eq_of_not_runs (by rw [hphase]; rfl)] at hkeep ⊢
        exact (hkeep hphase rfl).imp_right Or.inl
      · left
        revert hended
        generalize desc.perform s.clock op = desc' at hmoved
        intro hended
        cases hmoved with
        | stays => exact absurd hended hphase
        | proceeds output hnext =>
            subst hended
            cases hnext.runs.2
        | joins | readies | dispatches => cases hended
        | completes => rfl
  | taken hcall hevent => exact Or.inr (Or.inr ⟨_, _, rfl, hcall, hevent⟩)
  | _ => exact (hkeep hended rfl).imp_right Or.inl

theorem TaskDispatcher.Keeps.event_next (h : s.Keeps p desc) (hsound : Sound s)
    (hp : s.descs[p]? = some desc) (hchange : Change s input p desc desc')
    (hended : desc'.phase = .ended) :
    desc'.completionEvent = true ∨ (taskDispatcher.next s input).Taken desc'.taskId := by
  rcases hchange.event_cases hended with hset | ⟨hphase, hreset⟩ | ⟨k, taskId, rfl, hk, hset⟩
  · exact Or.inl hset
  · rw [hchange.taskId]
    rcases h.event hphase with hset | htaken
    · rw [hreset] at hset
      cases hset
    · exact Or.inr htaken.next
  · obtain ⟨other, hp', hid⟩ := hsound.call k _ hk
    obtain rfl := Option.some_inj.1 (hp.symm.trans hp')
    refine Or.inr ⟨k, ⟨taskId, .awake p⟩, ?_, (hchange.taskId.trans hid).symm, rfl⟩
    rw [next_waitEvent hk hp hset, List.getElem?_set_self (List.getElem?_eq_some_iff.1 hk).1]

theorem TaskDispatcher.Keeps.entry_next (h : s.Keeps p desc) (hsound : Sound s)
    (hlen : s.descs.length ≤ 2 ^ 64) (hp : s.descs[p]? = some desc)
    (hchange : Change s input p desc desc') (hne : desc'.phase ≠ .created)
    (haborted : desc'.aborted = false)
    (hclock : (taskDispatcher.next s input).clock ≤ desc'.startDeadline + minute) :
    (taskDispatcher.next s input).tasks.lookup desc'.taskId = some p ∨
      (taskDispatcher.next s input).Taken desc'.taskId := by
  have hfalse := hchange.aborted haborted
  have hearly : s.clock ≤ desc.startDeadline + minute := by
    rw [hchange.startDeadline] at hclock
    exact (next_frame s input).2.1.trans hclock
  rw [hchange.taskId]
  by_cases hcreated : desc.phase = .created
  · obtain rfl := hchange.inserted_of_created hcreated hne
    exact Or.inl (lookup_insertTask hp hcreated)
  · rcases h.entry hcreated hfalse hearly with hlook | htaken
    swap
    · exact Or.inr htaken.next
    rcases next_lookup s input desc.taskId with hsame | ⟨q, other, rfl, hq, -, hid, hlook'⟩ |
      ⟨k, q, rfl, hk, -⟩ | ⟨now, q, other, -, hlook', hq, hclear, -⟩
    · exact Or.inl (hsame.trans hlook)
    · obtain rfl : p = q := hsound.place_unique hlen hp hq hid.symm
      exact Or.inl hlook'
    · exact Or.inr (TaskDispatcher.Taken.next ⟨k, _, hk, rfl, rfl⟩)
    · -- the timer drops what is aborted, and what has been waiting for too long
      obtain rfl := Option.some_inj.1 (hlook.symm.trans hlook')
      obtain rfl := Option.some_inj.1 (hp.symm.trans hq)
      rw [TaskDesc.clearable, hfalse, Bool.false_or, Bool.and_eq_true, decide_eq_true_eq] at hclear
      have hpast := hclear.2.trans_le (min_le_right now s.clock)
      exact absurd hearly (not_le.2 hpast)

theorem keeps_run {is : List Input} (hcount : is.countP Input.queues ≤ 2 ^ 64)
    (hp : (taskDispatcher.run {} is).descs[p]? = some desc) :
    (taskDispatcher.run {} is).Keeps p desc := by
  induction is using List.reverseRecOn generalizing p desc with
  | nil => cases hp
  | append_singleton is input ih =>
      have hcount' : is.countP Input.queues ≤ 2 ^ 64 := by
        rw [List.countP_append] at hcount
        omega
      have hlen : (taskDispatcher.run {} is).descs.length ≤ 2 ^ 64 := by
        rw [length_run]
        simpa using hcount'
      rw [Machine.run_concat] at hp ⊢
      rcases next_descs_cases hp with ⟨desc₀, hp₀, hchange⟩ | ⟨-, task, startDeadline, -, rfl⟩
      · have hkeeps := ih hcount' hp₀
        exact ⟨hkeeps.event_next (sound_run hcount') hp₀ hchange,
          hkeeps.entry_next (sound_run hcount') hlen hp₀ hchange⟩
      · exact ⟨Phase.noConfusion, fun hne => absurd rfl hne⟩

/-- A task that is aborted has been marked in some step. -/
theorem exists_aborts {is : List Input} (hp : (taskDispatcher.run {} is).descs[p]? = some desc)
    (haborted : desc.aborted = true) :
    ∃ js input ks, is = js ++ input :: ks ∧ Aborts (taskDispatcher.run {} js) input p := by
  induction is using List.reverseRecOn generalizing desc with
  | nil => cases hp
  | append_singleton is input ih =>
      rw [Machine.run_concat] at hp
      rcases next_descs_cases hp with ⟨desc₀, hp₀, -⟩ | ⟨-, task, startDeadline, -, rfl⟩
      · cases hflag : desc₀.aborted with
        | true =>
            obtain ⟨js, other, ks, rfl, haborts⟩ := ih hp₀ hflag
            exact ⟨js, other, ks ++ [input], by rw [List.append_assoc, List.cons_append], haborts⟩
        | false => exact ⟨is, input, [], rfl, desc₀, desc, hp₀, hp, hflag, haborted⟩
      · cases haborted

/-- A call that has found a task whose event is set returns it. -/
theorem run_wait {k : ℕ} {taskId : UInt64} (hk : s.calls[k]? = some ⟨taskId, .found p⟩)
    (hp : s.descs[p]? = some desc) (hevent : desc.completionEvent = true) :
    (taskDispatcher.run s [.waitEvent k, .waitErase k, .waitMove k]).calls[k]? =
      some ⟨taskId, .returned .ok desc.task⟩ := by
  have hlt : ∀ {s : TaskDispatcher} {call : WaitCall}, s.calls[k]? = some call →
      ∀ call', (s.calls.set k call')[k]? = some call' :=
    fun hcall _ => List.getElem?_set_self (List.getElem?_eq_some_iff.1 hcall).1
  have hk₁ : (taskDispatcher.next s (.waitEvent k)).calls[k]? = some ⟨taskId, .awake p⟩ := by
    rw [next_waitEvent hk hp hevent]
    exact hlt hk _
  have hp₁ : (taskDispatcher.next s (.waitEvent k)).descs[p]? =
      some { desc with completionEvent := false } := by
    rw [next_waitEvent hk hp hevent, TaskDispatcher.getElem?_modifyWhere, hp, Option.map_some,
      if_pos (beq_self_eq_true p)]
  rw [Machine.run_cons]
  generalize taskDispatcher.next s (.waitEvent k) = s₁ at hk₁ hp₁ ⊢
  have hk₂ : (taskDispatcher.next s₁ (.waitErase k)).calls[k]? = some ⟨taskId, .erased p⟩ := by
    rw [next_waitErase hk₁]
    exact hlt hk₁ _
  have hp₂ : (taskDispatcher.next s₁ (.waitErase k)).descs[p]? =
      some { desc with completionEvent := false } := by
    rw [next_waitErase hk₁, hp₁]
  rw [Machine.run_cons]
  generalize taskDispatcher.next s₁ (.waitErase k) = s₂ at hk₂ hp₂ ⊢
  rw [Machine.run_cons, Machine.run_nil, next_waitMove hk₂]
  refine (hlt hk₂ _).trans ?_
  rw [hp₂, Option.bind_some]

/-- A call that is made now gets what is there. -/
theorem retrievable_of_lookup {taskId : UInt64} {t : DistTask}
    (hlook : s.tasks.lookup taskId = some p) (hp : s.descs[p]? = some desc)
    (hevent : desc.completionEvent = true) (htask : desc.task = some t) : s.Retrievable taskId := by
  have hfind : taskDispatcher.next s (.waitFind taskId) =
      { s with calls := s.calls ++ [⟨taskId, .found p⟩] } := by
    show s.waitFind taskId = _
    simp only [TaskDispatcher.waitFind, hlook]
  refine ⟨t, ?_⟩
  rw [Machine.run_cons, hfind, ← htask]
  exact run_wait (s := { s with calls := s.calls ++ [⟨taskId, .found p⟩] })
    List.getElem?_concat_length hp hevent

end Steps

/-- **Results stay**: a task that is `Done`, that started in time and that no other timer has
aborted is there for its client until a minute after its deadline, or its client has it. -/
def KeepsResults (is : List Input) : Prop :=
  ∀ (p : ℕ) (desc : TaskDesc), (taskDispatcher.run {} is).descs[p]? = some desc →
    desc.state = .done → desc.InTime →
    (∀ js input ks, is = js ++ input :: ks → input.timesOut = false →
      ¬ Aborts (taskDispatcher.run {} js) input p) →
    (taskDispatcher.run {} is).clock ≤ desc.startDeadline + minute →
    (taskDispatcher.run {} is).Taken desc.taskId ∨ (taskDispatcher.run {} is).Retrievable desc.taskId

theorem TaskDesc.Sound.ended_of_done {desc : TaskDesc} (h : desc.Sound) (hdone : desc.state = .done) :
    desc.phase = .ended := by
  have hfits := h.fits
  cases hphase : desc.phase with
  | ended => rfl
  | finishing taskGrant =>
      rw [hphase] at hfits
      exact absurd hdone hfits
  | _ =>
      rw [hphase, hdone] at hfits
      cases hfits

theorem keepsResults_of_sparesStarted {is : List Input} (hspares : SparesStarted is)
    (hcount : is.countP Input.queues ≤ 2 ^ 64) : KeepsResults is := by
  intro p desc hp hdone hin hother hclock
  have hsound := (sound_run hcount).desc p desc hp
  have hended := hsound.ended_of_done hdone
  have haborted : desc.aborted = false := by
    by_contra hne
    obtain ⟨js, input, ks, his, haborts⟩ := exists_aborts hp (Bool.not_eq_false _ ▸ hne)
    cases htimer : input.timesOut with
    | true => exact hspares js input ks p his htimer haborts desc hp hin
    | false => exact hother js input ks his htimer haborts
  have hkeeps := keeps_run hcount hp
  rcases hkeeps.event hended with hset | htaken
  swap
  · exact Or.inl htaken
  rcases hkeeps.entry (by rw [hended]; exact Phase.noConfusion) haborted hclock with hlook | htaken
  · obtain ⟨t, htask⟩ := Option.isSome_iff_exists.1 (hsound.keeps hset)
    exact Or.inr (retrievable_of_lookup hlook hp hset htask)
  · exact Or.inl htaken

/-- **When tasks that started in time are spared**: exactly if `OnTimerTimeoutAbort` finds none of
them past its deadline.  In such a run results stay, as long as there are ids. -/
theorem sparesStarted_iff (is : List Input) :
    (SparesStarted is ↔ taskDispatcher.Along FindsNoneStarted {} is) ∧
    (taskDispatcher.Along FindsNoneStarted {} is → is.countP Input.queues ≤ 2 ^ 64 →
      KeepsResults is) := by
  refine ⟨⟨along_of_sparesStarted, sparesStarted_of_along⟩, fun h hcount => ?_⟩
  exact keepsResults_of_sparesStarted (sparesStarted_of_along h) hcount

/-- A task that a servant has compiled at once and that is not fetched for some time, with the two
timers after it. -/
def unfetched (time : ℕ) : List Input :=
  samplePerformed ++ [.tick time, .onTimerTimeoutAbort time, .onTimerClear time]

/-- At the deadline the timer does nothing yet. -/
theorem sparesStarted_iff_unfetched :
    taskDispatcher.Along FindsNoneStarted {} (unfetched (5 * minute)) ∧
      SparesStarted (unfetched (5 * minute)) ∧ KeepsResults (unfetched (5 * minute)) := by
  have halong : taskDispatcher.Along FindsNoneStarted {} (unfetched (5 * minute)) := by
    refine ⟨trivial, trivial, trivial, trivial, trivial, trivial, trivial, trivial, trivial, trivial,
      trivial, trivial, trivial, ?_, trivial, trivial⟩
    intro taskId p desc _ hp hpast
    cases p with
    | zero =>
        obtain rfl := Option.some_inj.1 hp
        exact absurd hpast (lt_irrefl _)
    | succ p => cases hp
  obtain ⟨hiff, hkeeps⟩ := sparesStarted_iff (unfetched (5 * minute))
  exact ⟨halong, hiff.2 halong, hkeeps halong (by decide)⟩

/-- A moment later the result is lost that was there in time. -/
theorem startDeadline_missed :
    ¬ SparesStarted (unfetched (5 * minute + 1)) ∧ ¬ KeepsResults (unfetched (5 * minute + 1)) := by
  have hin : ∃ desc, (taskDispatcher.run {} (unfetched (5 * minute + 1))).descs[0]? = some desc ∧
      desc.InTime ∧ desc.state = .done ∧ desc.taskId = 1 ∧ desc.startDeadline = 5 * minute :=
    ⟨_, rfl, ⟨0, rfl, Nat.zero_le _⟩, rfl, rfl, rfl⟩
  obtain ⟨desc, hp, hin, hdone, hid, hdeadline⟩ := hin
  constructor
  · intro hspares
    refine hspares ((unfetched (5 * minute + 1)).take 13) (.onTimerTimeoutAbort (5 * minute + 1))
      [.onTimerClear (5 * minute + 1)] 0 rfl rfl ⟨_, _, rfl, rfl, rfl, ?_⟩ desc hp hin
    rfl
  · intro hkeeps
    have hother : ∀ js input ks, unfetched (5 * minute + 1) = js ++ input :: ks →
        input.timesOut = false → ¬ Aborts (taskDispatcher.run {} js) input 0 := by
      intro js input ks his htimer haborts
      have hall : ((unfetched (5 * minute + 1)).all fun input => !input.aborts || input.timesOut) =
          true := rfl
      have hmem : input ∈ unfetched (5 * minute + 1) := by
        rw [his]
        exact List.mem_append_right _ List.mem_cons_self
      have hor := List.all_eq_true.1 hall input hmem
      rw [haborts.aborts, htimer] at hor
      cases hor
    have hclock : (taskDispatcher.run {} (unfetched (5 * minute + 1))).clock ≤
        desc.startDeadline + minute := by
      rw [hdeadline]
      decide
    rcases hkeeps 0 desc hp hdone hin hother hclock with ⟨k, call, hk, -⟩ | ⟨t, hreturned⟩
    · cases hk
    · rw [hid] at hreturned
      cases hreturned

end Local
