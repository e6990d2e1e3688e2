/-
**The life of a task in the local dispatcher.**

A task is queued, performed and taken by the client that waits for it, and the table of the
dispatcher is gone over by four timers in the meantime.  Results are moved out of the objects and
not copied, the timers use the task of every entry, and the event that wakes a client is reset by
the thread that it wakes.  That nothing is used after it has been moved is an invariant of all these
threads together.

The invariant says for every object which states go with the phase of its thread, how often its task
has been completed, and that the event is only set at the end; for every entry that its task is
there; and for every call how far the object has come that it holds.  It rests on the ids being
different, and so it holds for as many tasks as there are ids.

Main definitions:

* `Local.Phase.Next`, `Local.TaskDesc.Moved` — what one step of `PerformTask` can do;
* `Local.TaskDesc.Sound`, `Local.WaitCall.Sound`, `Local.Sound` — **the invariant**;
* `Local.LivesInOrder` — what a task and those who wait for it can rely on.

Main results:

* `Local.TaskDesc.perform_moved` — the steps of `PerformTask`, by what they do;
* `Local.Sound.next`, `Local.sound_run` — **the invariant holds in every run** that queues at most
  as many tasks as there are ids;
* `Local.livesInOrder_run` — in such a run tasks live in order;
* `Local.not_livesInOrder` — one task more, and an entry of a pending task can be lost.
-/

import Distribuild.LocalDispatcher

set_option relaxedAutoImplicit false
set_option autoImplicit false

namespace Local

open Cloud (TimePoint minute)

/-! ### The steps of `PerformTask` -/

/-- The steps of the thread that leave the state of its task. -/
inductive Phase.Next : PerformOp → Phase → Phase → Prop
  | starts : Next .start .queued .started
  | raises {fault : Fault} : Next (.tryReadCache (.error fault)) .started (.finishing none)
  | misses : Next (.tryReadCache (.ok none)) .started .cacheMissed
  | hits {output : DistOutput} : Next (.tryReadCache (.ok (some output))) .started (.finishing none)
  | findsNothing : Next (.tryGetExistedResult none) .cacheMissed .wanting
  | givesUp : Next .check .wanting (.finishing none)
  | asks : Next .check .wanting .asking
  | getsNothing : Next (.getGrant none) .asking .wanting
  | gets {grant : GrantDesc} : Next (.getGrant (some grant)) .asking (.holding grant)
  | isRefused {grant : GrantDesc} :
      Next (.startTask none) (.submitting grant) (.finishing (some grant))
  | stops {retries : ℕ} {taskGrant : Option GrantDesc} :
      Next .check (.waiting retries taskGrant) (.finishing taskGrant)
  | polls {retries : ℕ} {taskGrant : Option GrantDesc} :
      Next .check (.waiting retries taskGrant) (.polling (retries - 1) taskGrant)
  | retries {reply : WaitReply} {retries : ℕ} {taskGrant : Option GrantDesc} :
      Next (.poll reply) (.polling retries taskGrant) (.waiting retries taskGrant)
  | isAnswered {reply : WaitReply} {retries : ℕ} {taskGrant : Option GrantDesc} :
      Next (.poll reply) (.polling retries taskGrant) (.finishing taskGrant)

/-- The grant is written into the task. -/
def TaskDesc.setReady (desc : TaskDesc) (now : TimePoint) (grant : GrantDesc) : TaskDesc :=
  { desc with
    lastKeepAliveTp := now
    readyTp := some now
    taskGrantId := grant.grantId
    servantLocation := grant.servantLocation
    state := .ready
    phase := .submitting grant }

/-- The task has been submitted. -/
def TaskDesc.setDispatched (desc : TaskDesc) (grant : GrantDesc) (taskId : UInt64) : TaskDesc :=
  { desc with
    state := .dispatched
    servantTaskId := taskId
    phase := .waiting kRetries (some grant) }

/-- What a step of `PerformTask` can do to a task. -/
inductive TaskDesc.Moved (now : TimePoint) (desc : TaskDesc) : PerformOp → TaskDesc → Prop
  | stays {op : PerformOp} : Moved now desc op desc
  | proceeds {op : PerformOp} {phase : Phase} (output : DistOutput) : desc.phase.Next op phase →
      Moved now desc op { desc with output := output, phase := phase }
  | joins (runningTask : RunningTaskDesc) : desc.phase = .cacheMissed →
      Moved now desc (.tryGetExistedResult (some runningTask)) (desc.join now runningTask)
  | readies {grant : GrantDesc} : desc.phase = .holding grant →
      Moved now desc .setReady (desc.setReady now grant)
  | dispatches {grant : GrantDesc} (taskId : UInt64) : desc.phase = .submitting grant →
      Moved now desc (.startTask (some taskId)) (desc.setDispatched grant taskId)
  | completes {taskGrant : Option GrantDesc} {t : DistTask} : desc.phase = .finishing taskGrant →
      desc.task = some t → Moved now desc .complete (desc.complete now t)

namespace TaskDesc

/-- A step that changes at most the output and the phase. -/
theorem Moved.of_next {now : TimePoint} {desc desc' : TaskDesc} {op : PerformOp}
    (h : desc.phase.Next op desc'.phase)
    (hsame : desc' = { desc with output := desc'.output, phase := desc'.phase }) :
    Moved now desc op desc' := by
  rw [hsame]
  exact .proceeds _ h

theorem poll_moved (desc : TaskDesc) (now : TimePoint) {retries : ℕ} {taskGrant : Option GrantDesc}
    (hphase : desc.phase = .polling retries taskGrant) (reply : WaitReply) :
    Moved now desc (.poll reply) (desc.poll retries taskGrant reply) := by
  rw [poll]
  split
  · exact .of_next (by rw [hphase]; exact .isAnswered) rfl
  · exact .of_next (by rw [hphase]; exact .isAnswered) rfl
  · exact .of_next (by rw [hphase]; exact .retries) rfl
  · exact .of_next (by rw [hphase]; exact .isAnswered) rfl
  · exact .stays

/-- **The steps of `PerformTask`, by what they do.** -/
theorem perform_moved (desc : TaskDesc) (now : TimePoint) (op : PerformOp) :
    Moved now desc op (desc.perform now op) := by
  cases op with
  | start =>
      unfold perform
      dsimp only
      split
      · next hphase => exact .of_next (by rw [hphase]; exact .starts) rfl
      · exact .stays
  | tryReadCache outcome =>
      unfold perform
      dsimp only
      split
      · next hphase => exact .of_next (by rw [hphase]; exact .raises) rfl
      · next hphase => exact .of_next (by rw [hphase]; exact .misses) rfl
      · next hphase => exact .of_next (by rw [hphase]; exact .hits) rfl
      · exact .stays
  | tryGetExistedResult runningTask =>
      unfold perform
      dsimp only
      split
      · next hphase => exact .of_next (by rw [hphase]; exact .findsNothing) rfl
      · next hphase => exact .joins _ hphase
      · exact .stays
  | check =>
      unfold perform
      dsimp only
      split
      · next hphase =>
          refine .of_next ?_ rfl
          rw [hphase]
          by_cases haborted : desc.aborted = true
          · simp only [haborted, if_true]
            exact .givesUp
          · simp only [haborted]
            exact .asks
      · next retries taskGrant hphase =>
          refine .of_next ?_ rfl
          rw [hphase]
          by_cases hstop : retries = 0 ∨ desc.aborted = true
          · simp only [hstop, if_true]
            exact .stops
          · simp only [hstop, if_false]
            exact .polls
      · exact .stays
  | getGrant taskGrant =>
      unfold perform
      dsimp only
      split
      · next hphase => exact .of_next (by rw [hphase]; exact .getsNothing) rfl
      · next hphase => exact .of_next (by rw [hphase]; exact .gets) rfl
      · exact .stays
  | setReady =>
      unfold perform
      dsimp only
      split
      · next hphase => exact .readies hphase
      · exact .stays
  | startTask taskId =>
      unfold perform
      dsimp only
      split
      · next hphase => exact .of_next (by rw [hphase]; exact .isRefused) rfl
      · next hphase => exact .dispatches _ hphase
      · exact .stays
  | poll reply =>
      unfold perform
      dsimp only
      split
      · next hphase => exact desc.poll_moved now hphase reply
      · exact .stays
  | complete =>
      unfold perform
      dsimp only
      split
      · next hphase htask => exact .completes hphase htask
      · exact .stays

end TaskDesc

/-! ### The invariant of a task -/

/-- The states that go with a phase. -/
def Phase.Fits : Phase → TaskState → Prop
  | .submitting _, state => state = .ready
  | .waiting _ _, state => state = .dispatched
  | .polling _ _, state => state = .dispatched
  | .finishing _, state => state ≠ .done
  | .ended, state => state = .done
  | _, state => state = .pending

/-- The thread neither waits for `QueueTask` nor has come to its end. -/
def Phase.runs : Phase → Bool
  | .created => false
  | .ended => false
  | _ => true

theorem Phase.ne_ended {phase : Phase} (h : phase.runs = true) : phase ≠ .ended := by
  rintro rfl
  cases h

theorem Phase.Next.fits {op : PerformOp} {phase phase' : Phase} (h : phase.Next op phase')
    {state : TaskState} (hfits : phase.Fits state) : phase'.Fits state := by
  cases h with
  | raises | hits | givesUp | isRefused | stops | isAnswered =>
      rw [show state = _ from hfits]
      exact TaskState.noConfusion
  | _ => exact hfits

theorem Phase.Next.runs {op : PerformOp} {phase phase' : Phase} (h : phase.Next op phase') :
    phase.runs = true ∧ phase'.runs = true := by
  cases h <;> exact ⟨rfl, rfl⟩

namespace TaskDesc

/-- The invariant of a task: until its thread has come to its end it has not been completed, and
nobody has been woken. -/
structure Sound (desc : TaskDesc) : Prop where
  fits : desc.phase.Fits desc.state
  event : desc.phase ≠ .ended → desc.completionEvent = false
  task : desc.phase ≠ .ended → ∃ t, desc.task = some t ∧ t.completions = []
  completed : desc.phase = .ended → ∀ t, desc.task = some t → t.completions.length = 1
  keeps : desc.completionEvent = true → desc.task.isSome

/-- The end has come, and the event has been had. -/
structure Had (desc : TaskDesc) (taskId : UInt64) : Prop where
  taskId : desc.taskId = taskId
  ended : desc.phase = .ended
  event : desc.completionEvent = false

variable {now : TimePoint} {desc desc' : TaskDesc} {op : PerformOp}

theorem fits_of (hfits : desc.phase.Fits desc.state) {phase : Phase} (hphase : desc.phase = phase) :
    phase.Fits desc.state := hphase ▸ hfits

theorem Sound.of_phase_runs (hruns : desc.phase.runs = true) (hfits : desc.phase.Fits desc.state)
    (hevent : desc.completionEvent = false)
    (htask : ∃ t, desc.task = some t ∧ t.completions = []) : desc.Sound where
  fits := hfits
  event := fun _ => hevent
  task := fun _ => htask
  completed := fun hended => by rw [hended] at hruns; cases hruns
  keeps := fun hset => by rw [hevent] at hset; cases hset

theorem Moved.sound (h : Moved now desc op desc') (hsound : desc.Sound) : desc'.Sound := by
  have hopen : ∀ {phase : Phase}, desc.phase = phase → phase.runs = true → desc.phase ≠ .ended := by
    rintro phase rfl hruns
    exact Phase.ne_ended hruns
  cases h with
  | stays => exact hsound
  | proceeds output hnext =>
      have hne := hopen rfl hnext.runs.1
      exact .of_phase_runs hnext.runs.2 (hnext.fits hsound.fits) (hsound.event hne) (hsound.task hne)
  | joins runningTask hphase =>
      have hne := hopen hphase rfl
      exact .of_phase_runs rfl rfl (hsound.event hne) (hsound.task hne)
  | readies hphase =>
      have hne := hopen hphase rfl
      exact .of_phase_runs rfl rfl (hsound.event hne) (hsound.task hne)
  | dispatches taskId hphase =>
      have hne := hopen hphase rfl
      exact .of_phase_runs rfl rfl (hsound.event hne) (hsound.task hne)
  | completes hphase htask =>
      obtain ⟨t, ht, hnone⟩ := hsound.task (hopen hphase rfl)
      obtain rfl := Option.some_inj.1 (htask.symm.trans ht)
      refine ⟨rfl, fun hne => absurd rfl hne, fun hne => absurd rfl hne, fun _ t' ht' => ?_,
        fun _ => rfl⟩
      obtain rfl := Option.some_inj.1 ht'
      simp [DistTask.onCompleted, hnone]

/-- The states are gone through in their order. -/
theorem Moved.rank_le (h : Moved now desc op desc') (hsound : desc.Sound) :
    desc.state.rank ≤ desc'.state.rank := by
  cases h with
  | stays | proceeds => exact le_rfl
  | joins runningTask hphase =>
      have hstate : desc.state = .pending := fits_of hsound.fits hphase
      rw [hstate]
      exact Nat.zero_le _
  | readies hphase =>
      have hstate : desc.state = .pending := fits_of hsound.fits hphase
      rw [hstate]
      exact Nat.zero_le _
  | dispatches taskId hphase =>
      have hstate : desc.state = .ready := fits_of hsound.fits hphase
      rw [hstate]
      exact Nat.le_succ 1
  | completes hphase htask => cases desc.state <;> exact Nat.le_of_ble_eq_true rfl

/-- A step of the thread is none of an object that it does not perform yet, or no more. -/
theorem Moved.eq_of_not_runs (h : Moved now desc op desc') (hruns : desc.phase.runs = false) :
    desc' = desc := by
  cases h with
  | stays => rfl
  | proceeds output hnext => rw [hnext.runs.1] at hruns; cases hruns
  | joins runningTask hphase => rw [hphase] at hruns; cases hruns
  | readies hphase => rw [hphase] at hruns; cases hruns
  | dispatches taskId hphase => rw [hphase] at hruns; cases hruns
  | completes hphase htask => rw [hphase] at hruns; cases hruns

/-- What a step of the thread leaves. -/
theorem Moved.frame (h : Moved now desc op desc') :
    desc'.taskId = desc.taskId ∧ desc'.startDeadline = desc.startDeadline ∧
      desc'.aborted = desc.aborted ∧ (desc.task.isSome → desc'.task.isSome) ∧
      (desc'.phase = .created → desc.phase = .created) := by
  cases h with
  | stays => exact ⟨rfl, rfl, rfl, id, id⟩
  | proceeds output hnext =>
      refine ⟨rfl, rfl, rfl, id, fun hphase => ?_⟩
      subst hphase
      cases hnext.runs.2
  | joins | readies | dispatches => exact ⟨rfl, rfl, rfl, id, Phase.noConfusion⟩
  | completes => exact ⟨rfl, rfl, rfl, fun _ => rfl, Phase.noConfusion⟩

end TaskDesc

/-! ### The invariant of the dispatcher -/

/-- The call has had the event of its task. -/
def WaitPhase.took : WaitPhase → Bool
  | .awake _ => true
  | .erased _ => true
  | .returned .ok _ => true
  | _ => false

/-- The object holds the task that has been completed for a call. -/
def TaskDispatcher.Holds (s : TaskDispatcher) (taskId : UInt64) (p : ℕ) : Prop :=
  ∃ desc : TaskDesc, s.descs[p]? = some desc ∧ desc.Had taskId ∧ desc.task.isSome

/-- The invariant of a call, by how far it has come. -/
def WaitCall.Sound (s : TaskDispatcher) : WaitCall → Prop
  | ⟨taskId, .found p⟩ => ∃ desc, s.descs[p]? = some desc ∧ desc.taskId = taskId
  | ⟨taskId, .awake p⟩ => s.Holds taskId p
  | ⟨taskId, .erased p⟩ => s.Holds taskId p ∧ s.tasks.lookup taskId = none
  | ⟨taskId, .returned .ok task⟩ =>
      (∃ (p : ℕ) (desc : TaskDesc), s.descs[p]? = some desc ∧ desc.Had taskId) ∧
        ∃ t, task = some t ∧ t.completions.length = 1
  | _ => True

/-- **The invariant.** -/
structure Sound (s : TaskDispatcher) : Prop where
  nextId : s.nextId = UInt64.ofNat s.descs.length
  taskId : ∀ (p : ℕ) (desc : TaskDesc), s.descs[p]? = some desc → desc.taskId = UInt64.ofNat (p + 1)
  desc : ∀ (p : ℕ) (desc : TaskDesc), s.descs[p]? = some desc → desc.Sound
  entry : ∀ (taskId : UInt64) (p : ℕ), s.tasks.lookup taskId = some p →
    ∃ desc, s.descs[p]? = some desc ∧ desc.taskId = taskId ∧ desc.phase ≠ .created ∧ desc.task.isSome
  call : ∀ (k : ℕ) (call : WaitCall), s.calls[k]? = some call → call.Sound s
  once : ∀ (j k : ℕ) (a b : WaitCall), s.calls[j]? = some a → s.calls[k]? = some b → a.taskId = b.taskId →
    a.phase.took = true → b.phase.took = true → j = k

section Steps

variable {s : TaskDispatcher} {input : Input} {p : ℕ} {desc desc' : TaskDesc}

/-- As many tasks as there are ids have different ids. -/
theorem Sound.place_unique (h : Sound s) (hlen : s.descs.length ≤ 2 ^ 64) {q : ℕ}
    (hp : s.descs[p]? = some desc) (hq : s.descs[q]? = some desc')
    (hid : desc.taskId = desc'.taskId) : p = q := by
  have hplt := (List.getElem?_eq_some_iff.1 hp).1
  have hqlt := (List.getElem?_eq_some_iff.1 hq).1
  rw [h.taskId p desc hp, h.taskId q desc' hq, ← UInt64.toNat_inj, UInt64.toNat_ofNat',
    UInt64.toNat_ofNat'] at hid
  omega

/-- A call that has had the event holds an object that has come to its end. -/
theorem WaitCall.Sound.had {call : WaitCall} (h : call.Sound s) (htook : call.phase.took = true) :
    ∃ (p : ℕ) (desc : TaskDesc), s.descs[p]? = some desc ∧ desc.Had call.taskId := by
  obtain ⟨taskId, phase⟩ := call
  cases phase with
  | found p => cases htook
  | awake p =>
      obtain ⟨desc, hp, hhad, -⟩ := h
      exact ⟨p, desc, hp, hhad⟩
  | erased p =>
      obtain ⟨⟨desc, hp, hhad, -⟩, -⟩ := h
      exact ⟨p, desc, hp, hhad⟩
  | returned status task =>
      cases status with
      | ok => exact h.1
      | timeout => cases htook
      | notFound => cases htook

theorem Change.taskId (h : Change s input p desc desc') : desc'.taskId = desc.taskId := by
  cases h with
  | performed op => exact (desc.perform_moved s.clock op).frame.1
  | _ => rfl

theorem Change.startDeadline (h : Change s input p desc desc') :
    desc'.startDeadline = desc.startDeadline := by
  cases h with
  | performed op => exact (desc.perform_moved s.clock op).frame.2.1
  | _ => rfl

/-- An object that is in the table has been put there. -/
theorem Change.created (h : Change s input p desc desc') (hcreated : desc'.phase = .created) :
    desc.phase = .created := by
  cases h with
  | inserted hphase => exact hphase
  | performed op => exact (desc.perform_moved s.clock op).frame.2.2.2.2 hcreated
  | _ => exact hcreated

/-- Only `WaitForTask` moves a task away. -/
theorem Change.task_cases (h : Change s input p desc desc') (htask : desc.task.isSome) :
    desc'.task.isSome ∨
      ∃ k taskId, input = .waitMove k ∧ s.calls[k]? = some ⟨taskId, .erased p⟩ := by
  cases h with
  | performed op => exact Or.inl ((desc.perform_moved s.clock op).frame.2.2.2.1 htask)
  | moved hcall => exact Or.inr ⟨_, _, rfl, hcall⟩
  | _ => exact Or.inl htask

/-- At its end an object stays, and so does its event once it has been had. -/
theorem Change.had (h : Change s input p desc desc') {taskId : UInt64} (hhad : desc.Had taskId) :
    desc'.Had taskId := by
  cases h with
  | inserted hphase => rw [hhad.ended] at hphase; cases hphase
  | performed op =>
      rw [(desc.perform_moved s.clock op).eq_of_not_runs (by rw [hhad.ended]; rfl)]
      exact hhad
  | taken hcall hevent => exact ⟨hhad.taskId, hhad.ended, rfl⟩
  | _ => exact ⟨hhad.taskId, hhad.ended, hhad.event⟩

theorem Change.sound (h : Change s input p desc desc') (hs : Sound s)
    (hp : s.descs[p]? = some desc) : desc'.Sound := by
  have hsound := hs.desc p desc hp
  cases h with
  | inserted hphase =>
      have hne : desc.phase ≠ .ended := by rw [hphase]; exact Phase.noConfusion
      have hpending : desc.state = .pending := TaskDesc.fits_of hsound.fits hphase
      exact .of_phase_runs rfl hpending (hsound.event hne) (hsound.task hne)
  | performed op => exact (desc.perform_moved s.clock op).sound hsound
  | taken hcall hevent =>
      exact ⟨hsound.fits, fun _ => rfl, hsound.task, hsound.completed, fun hset => by cases hset⟩
  | moved hcall =>
      obtain ⟨⟨desc', hp', hhad, -⟩, -⟩ := hs.call _ _ hcall
      obtain rfl := Option.some_inj.1 (hp.symm.trans hp')
      refine ⟨hsound.fits, hsound.event, fun hne => absurd hhad.ended hne,
        fun _ t ht => (by cases ht), fun hset => ?_⟩
      have hfalse : false = true := hhad.event.symm.trans hset
      cases hfalse
  | _ => exact ⟨hsound.fits, hsound.event, hsound.task, hsound.completed, hsound.keeps⟩

theorem Change.rank_le (h : Change s input p desc desc') (hsound : desc.Sound) :
    desc.state.rank ≤ desc'.state.rank := by
  cases h with
  | performed op => exact (desc.perform_moved s.clock op).rank_le hsound
  | _ => exact le_rfl

/-- An object that is put into the table is queued. -/
theorem next_insertTask (hp : s.descs[p]? = some desc) (hphase : desc.phase = .created) :
    (taskDispatcher.next s (.insertTask p)).descs[p]? = some { desc with phase := .queued } := by
  show (s.insertTask p).descs[p]? = _
  simp only [TaskDispatcher.insertTask, hp, hphase, if_true]
  rw [TaskDispatcher.getElem?_modifyWhere, hp, Option.map_some, if_pos (beq_self_eq_true p)]

theorem lookup_insertTask (hp : s.descs[p]? = some desc) (hphase : desc.phase = .created) :
    (taskDispatcher.next s (.insertTask p)).tasks.lookup desc.taskId = some p := by
  show (s.insertTask p).tasks.lookup desc.taskId = some p
  simp only [TaskDispatcher.insertTask, hp, hphase, if_true, AList.lookup_insert]

/-- The event is had once. -/
theorem next_waitEvent {k : ℕ} {taskId : UInt64} (hcall : s.calls[k]? = some ⟨taskId, .found p⟩)
    (hp : s.descs[p]? = some desc) (hevent : desc.completionEvent = true) :
    taskDispatcher.next s (.waitEvent k) =
      { s.modifyWhere (· == p) fun desc => { desc with completionEvent := false } with
        calls := s.calls.set k ⟨taskId, .awake p⟩ } := by
  show s.waitEvent k = _
  simp only [TaskDispatcher.waitEvent, hcall, hp, Option.any_some, hevent, if_true]

theorem next_waitErase {k : ℕ} {taskId : UInt64} (hcall : s.calls[k]? = some ⟨taskId, .awake p⟩) :
    taskDispatcher.next s (.waitErase k) =
      { s with tasks := s.tasks.erase taskId, calls := s.calls.set k ⟨taskId, .erased p⟩ } := by
  show s.waitErase k = _
  simp only [TaskDispatcher.waitErase, hcall]

theorem next_waitMove {k : ℕ} {taskId : UInt64} (hcall : s.calls[k]? = some ⟨taskId, .erased p⟩) :
    taskDispatcher.next s (.waitMove k) =
      { s.modifyWhere (· == p) fun desc => { desc with task := none } with
        calls := s.calls.set k ⟨taskId, .returned .ok ((s.descs[p]?).bind TaskDesc.task)⟩ } := by
  show s.waitMove k = _
  simp only [TaskDispatcher.waitMove, hcall]

/-- Calls that have had the event had it before the step, except the one that has it now. -/
theorem CallChange.took_cases {k : ℕ} {call call' : WaitCall} (h : CallChange s input k call call')
    (htook : call'.phase.took = true) :
    call.phase.took = true ∨
      ∃ (p : ℕ) (desc : TaskDesc), input = .waitEvent k ∧ call.phase = .found p ∧
        s.descs[p]? = some desc ∧ desc.completionEvent = true := by
  cases h with
  | unchanged => exact Or.inl htook
  | timedOut => cases htook
  | woken hp hevent => exact Or.inr ⟨_, _, rfl, rfl, hp, hevent⟩
  | erased => exact Or.inl rfl
  | moved => exact Or.inl rfl

theorem CallChange.taskId {k : ℕ} {call call' : WaitCall} (h : CallChange s input k call call') :
    call'.taskId = call.taskId := by
  cases h <;> rfl

theorem not_took_of_mem_called {call : WaitCall} (h : call ∈ s.called input) :
    call.phase.took = false := by
  cases input with
  | waitFind taskId =>
      rw [TaskDispatcher.called] at h
      cases hlook : s.tasks.lookup taskId with
      | none =>
          simp only [hlook, List.mem_singleton] at h
          rw [h]
          rfl
      | some p =>
          simp only [hlook, List.mem_singleton] at h
          rw [h]
          rfl
  | _ => cases h

/-! ### A step keeps it -/

/-- The call that has the event in this step is the only one that has it. -/
theorem Sound.not_took_of_event (h : Sound s) (hlen : s.descs.length ≤ 2 ^ 64) {k : ℕ}
    {call : WaitCall} (hk : s.calls[k]? = some call) (hp : s.descs[p]? = some desc)
    (hevent : desc.completionEvent = true) (hid : desc.taskId = call.taskId) :
    call.phase.took ≠ true := by
  intro htook
  obtain ⟨q, other, hq, hhad⟩ := (h.call k call hk).had htook
  have hpq : p = q := h.place_unique hlen hp hq (hid.trans hhad.taskId.symm)
  subst hpq
  obtain rfl := Option.some_inj.1 (hp.symm.trans hq)
  rw [hhad.event] at hevent
  cases hevent

theorem Sound.once_next (h : Sound s) (hlen : s.descs.length ≤ 2 ^ 64) {j k : ℕ} {a b : WaitCall}
    (hj : (taskDispatcher.next s input).calls[j]? = some a)
    (hk : (taskDispatcher.next s input).calls[k]? = some b) (hid : a.taskId = b.taskId)
    (ha : a.phase.took = true) (hb : b.phase.took = true) : j = k := by
  rcases next_calls_cases hj with ⟨a₀, hj₀, hchangeA⟩ | hnew
  swap
  · rw [not_took_of_mem_called hnew] at ha
    cases ha
  rcases next_calls_cases hk with ⟨b₀, hk₀, hchangeB⟩ | hnew
  swap
  · rw [not_took_of_mem_called hnew] at hb
    cases hb
  rw [hchangeA.taskId, hchangeB.taskId] at hid
  -- the call that is woken holds an object whose event is still set
  have hfound : ∀ {k : ℕ} {call : WaitCall} {p : ℕ} {desc : TaskDesc}, s.calls[k]? = some call →
      call.phase = .found p → s.descs[p]? = some desc → desc.taskId = call.taskId := by
    rintro k ⟨taskId, phase⟩ p desc hcall rfl hp
    obtain ⟨desc', hp', hid⟩ := h.call k _ hcall
    obtain rfl := Option.some_inj.1 (hp.symm.trans hp')
    exact hid
  rcases hchangeA.took_cases ha with ha₀ | ⟨p, desc, rfl, hphase, hp, hevent⟩
  · rcases hchangeB.took_cases hb with hb₀ | ⟨p, desc, rfl, hphase, hp, hevent⟩
    · exact h.once j k a₀ b₀ hj₀ hk₀ hid ha₀ hb₀
    · exact absurd ha₀ (h.not_took_of_event hlen hj₀ hp hevent ((hfound hk₀ hphase hp).trans hid.symm))
  · rcases hchangeB.took_cases hb with hb₀ | ⟨q, desc', hinput, -, -, -⟩
    · exact absurd hb₀ (h.not_took_of_event hlen hk₀ hp hevent ((hfound hj₀ hphase hp).trans hid))
    · injection hinput

/-- An entry keeps its task: the call that moves it away has erased the entry before. -/
theorem Sound.entry_next (h : Sound s) {taskId : UInt64}
    (hlook : (taskDispatcher.next s input).tasks.lookup taskId = some p) :
    ∃ desc, (taskDispatcher.next s input).descs[p]? = some desc ∧ desc.taskId = taskId ∧
      desc.phase ≠ .created ∧ desc.task.isSome := by
  rcases next_lookup s input taskId with hsame | ⟨q, desc, rfl, hq, hphase, hid, hlook'⟩ |
    ⟨k, q, -, -, hnone⟩ | ⟨now, q, desc, -, -, -, -, hnone⟩
  · rw [hsame] at hlook
    obtain ⟨desc, hp, hid, hcreated, htask⟩ := h.entry taskId p hlook
    obtain ⟨desc', hp', hchange⟩ := next_descs_change hp input
    refine ⟨desc', hp', hchange.taskId.trans hid, fun hc => hcreated (hchange.created hc), ?_⟩
    rcases hchange.task_cases htask with hsome | ⟨k, id, -, hcall⟩
    · exact hsome
    · obtain ⟨⟨other, hp'', hhad, -⟩, hnone⟩ := h.call k _ hcall
      obtain rfl := Option.some_inj.1 (hp.symm.trans hp'')
      rw [← hhad.taskId, hid, hlook] at hnone
      cases hnone
  · obtain rfl := Option.some_inj.1 (hlook.symm.trans hlook')
    have hne : desc.phase ≠ .ended := by rw [hphase]; exact Phase.noConfusion
    obtain ⟨t, htask, -⟩ := (h.desc p desc hq).task hne
    exact ⟨_, next_insertTask hq hphase, hid, Phase.noConfusion, by rw [htask]; rfl⟩
  · rw [hnone] at hlook
    cases hlook
  · rw [hnone] at hlook
    cases hlook

/-- A task that has been completed for a call is there until that call moves it away. -/
theorem Sound.holds_next (h : Sound s) (input : Input) {k : ℕ} {call : WaitCall}
    (hk : s.calls[k]? = some call) (htook : call.phase.took = true)
    (hholds : s.Holds call.taskId p) :
    (taskDispatcher.next s input).Holds call.taskId p ∨
      input = .waitMove k ∧ call.phase = .erased p := by
  obtain ⟨desc, hp, hhad, htask⟩ := hholds
  obtain ⟨desc', hp', hchange⟩ := next_descs_change hp input
  rcases hchange.task_cases htask with hsome | ⟨j, taskId, rfl, hj⟩
  · exact Or.inl ⟨desc', hp', hchange.had hhad, hsome⟩
  · right
    obtain ⟨⟨other, hp'', hhad', -⟩, -⟩ := h.call j _ hj
    obtain rfl := Option.some_inj.1 (hp.symm.trans hp'')
    have hid : taskId = call.taskId := hhad'.taskId.symm.trans hhad.taskId
    obtain rfl := h.once j k _ call hj hk hid rfl htook
    obtain rfl := Option.some_inj.1 (hj.symm.trans hk)
    exact ⟨rfl, rfl⟩

/-- An entry that `WaitForTask` has erased does not come back. -/
theorem Sound.lookup_next_of_holds (h : Sound s) (hlen : s.descs.length ≤ 2 ^ 64) {taskId : UInt64}
    (hholds : s.Holds taskId p) (hnone : s.tasks.lookup taskId = none) :
    (taskDispatcher.next s input).tasks.lookup taskId = none := by
  rcases next_lookup s input taskId with hsame | ⟨q, other, rfl, hq, hphase, hid, -⟩ |
    ⟨k, q, -, -, hgone⟩ | ⟨now, q, desc, -, -, -, -, hgone⟩
  · rw [hsame, hnone]
  · obtain ⟨desc, hp, hhad, -⟩ := hholds
    obtain rfl : p = q := h.place_unique hlen hp hq (hhad.taskId.trans hid.symm)
    obtain rfl := Option.some_inj.1 (hp.symm.trans hq)
    rw [hhad.ended] at hphase
    cases hphase
  · exact hgone
  · exact hgone

/-- A call that the step leaves as it is. -/
theorem Sound.call_unchanged (h : Sound s) (hlen : s.descs.length ≤ 2 ^ 64) {k : ℕ} {call : WaitCall}
    (hk : s.calls[k]? = some call)
    (hk' : (taskDispatcher.next s input).calls[k]? = some call) :
    call.Sound (taskDispatcher.next s input) := by
  have hsound := h.call k call hk
  obtain ⟨taskId, phase⟩ := call
  cases phase with
  | found p =>
      obtain ⟨desc, hp, hid⟩ := hsound
      obtain ⟨desc', hp', hchange⟩ := next_descs_change hp input
      exact ⟨desc', hp', hchange.taskId.trans hid⟩
  | awake p =>
      rcases h.holds_next input hk rfl hsound with hholds | ⟨-, hphase⟩
      · exact hholds
      · cases hphase
  | erased p =>
      obtain ⟨hholds, hnone⟩ := hsound
      refine ⟨?_, h.lookup_next_of_holds hlen hholds hnone⟩
      rcases h.holds_next input hk rfl hholds with hholds' | ⟨rfl, -⟩
      · exact hholds'
      · have hlt := (List.getElem?_eq_some_iff.1 hk).1
        rw [next_waitMove hk, List.getElem?_set_self hlt] at hk'
        cases hk'
  | returned status task =>
      cases status with
      | ok =>
          obtain ⟨⟨p, desc, hp, hhad⟩, htask⟩ := hsound
          obtain ⟨desc', hp', hchange⟩ := next_descs_change hp input
          exact ⟨⟨p, desc', hp', hchange.had hhad⟩, htask⟩
      | timeout => trivial
      | notFound => trivial

theorem Sound.call_next (h : Sound s) (hlen : s.descs.length ≤ 2 ^ 64) {k : ℕ} {call' : WaitCall}
    (hk' : (taskDispatcher.next s input).calls[k]? = some call') :
    call'.Sound (taskDispatcher.next s input) := by
  rcases next_calls_cases hk' with ⟨call, hk, hchange⟩ | hnew
  · have hsound := h.call k call hk
    cases hchange with
    | unchanged => exact h.call_unchanged hlen hk hk'
    | timedOut => trivial
    | woken hp hevent =>
        obtain ⟨desc, hp', hid⟩ := hsound
        obtain rfl := Option.some_inj.1 (hp'.symm.trans hp)
        have hended : desc.phase = .ended := by
          by_contra hne
          rw [(h.desc _ desc hp).event hne] at hevent
          cases hevent
        refine ⟨{ desc with completionEvent := false }, ?_, ⟨hid, hended, rfl⟩,
          (h.desc _ desc hp).keeps hevent⟩
        rw [next_waitEvent hk hp hevent, TaskDispatcher.getElem?_modifyWhere, hp, Option.map_some,
          if_pos (beq_self_eq_true _)]
    | erased =>
        rw [next_waitErase hk]
        exact ⟨hsound, AList.lookup_erase _ _⟩
    | moved =>
        obtain ⟨⟨desc, hp, hhad, htask⟩, -⟩ := hsound
        obtain ⟨desc', hp', hchange⟩ := next_descs_change hp (.waitMove k)
        obtain ⟨t, ht⟩ := Option.isSome_iff_exists.1 htask
        refine ⟨⟨_, desc', hp', hchange.had hhad⟩, t, ?_, ?_⟩
        · rw [hp, Option.bind_some, ht]
        · exact (h.desc _ desc hp).completed hhad.ended t ht
  · cases input with
    | waitFind taskId =>
        rw [TaskDispatcher.called] at hnew
        cases hlook : s.tasks.lookup taskId with
        | none =>
            simp only [hlook, List.mem_singleton] at hnew
            rw [hnew]
            trivial
        | some p =>
            simp only [hlook, List.mem_singleton] at hnew
            obtain ⟨desc, hp, hid, -, -⟩ := h.entry taskId p hlook
            obtain ⟨desc', hp', hchange⟩ := next_descs_change hp (.waitFind taskId)
            rw [hnew]
            exact ⟨desc', hp', hchange.taskId.trans hid⟩
    | _ => cases hnew

/-- **One step keeps the invariant.** -/
theorem Sound.next (h : Sound s) (hlen : s.descs.length ≤ 2 ^ 64) (input : Input) :
    Sound (taskDispatcher.next s input) where
  nextId := by
    rw [(next_frame s input).1, length_next, h.nextId, UInt64.ofNat_add]
  taskId := by
    intro p desc' hp'
    rcases next_descs_cases hp' with ⟨desc, hp, hchange⟩ | ⟨rfl, task, startDeadline, -, rfl⟩
    · rw [hchange.taskId]
      exact h.taskId p desc hp
    · rw [h.nextId]
      exact UInt64.ofNat_add_one _
  desc := by
    intro p desc' hp'
    rcases next_descs_cases hp' with ⟨desc, hp, hchange⟩ | ⟨rfl, task, startDeadline, -, rfl⟩
    · exact hchange.sound h hp
    · exact ⟨rfl, fun _ => rfl, fun _ => ⟨_, rfl, rfl⟩, Phase.noConfusion, fun hset => by cases hset⟩
  entry := fun _ _ hlook => h.entry_next hlook
  call := fun _ _ hk => h.call_next hlen hk
  once := fun _ _ _ _ hj hk hid ha hb => h.once_next hlen hj hk hid ha hb

end Steps

/-! ### Whole runs -/

/-- `QueueTask` takes an id. -/
def Input.queues : Input → Bool
  | .newTask _ _ => true
  | _ => false

theorem length_run (is : List Input) (s : TaskDispatcher) :
    (taskDispatcher.run s is).descs.length = s.descs.length + is.countP Input.queues := by
  induction is generalizing s with
  | nil => rfl
  | cons input is ih =>
      rw [Machine.run_cons, ih, length_next, List.countP_cons]
      cases input <;> simp only [TaskDispatcher.made, Input.queues, List.length_singleton,
        List.length_nil, if_true, Bool.false_eq_true, if_false] <;> omega

theorem sound_init : Sound {} where
  nextId := rfl
  taskId := fun _ _ h => by cases h
  desc := fun _ _ h => by cases h
  entry := fun _ _ h => by cases h
  call := fun _ _ h => by cases h
  once := fun _ _ _ _ h => by cases h

/-- **The invariant holds in every run** that queues at most as many tasks as there are ids. -/
theorem sound_run {is : List Input} (hcount : is.countP Input.queues ≤ 2 ^ 64) :
    Sound (taskDispatcher.run {} is) := by
  have hinv : (taskDispatcher.run {} is).descs.length ≤ 2 ^ 64 → Sound (taskDispatcher.run {} is) := by
    refine Machine.run_invariant (P := fun s => s.descs.length ≤ 2 ^ 64 → Sound s) ?_ ?_ is
    · intro s input ih hlen
      rw [length_next] at hlen
      exact (ih (by omega)).next (by omega) input
    · exact fun _ => sound_init
  refine hinv ?_
  rw [length_run]
  simpa using hcount

/-- **What a task and those who wait for it can rely on**, in a state and in every step from it. -/
structure LivesInOrder (s : TaskDispatcher) : Prop where
  /-- The task of an entry is there. -/
  entry : ∀ taskId p, s.tasks.lookup taskId = some p →
    ∃ desc, s.descs[p]? = some desc ∧ desc.task ≠ none
  /-- The states are gone through in their order. -/
  forward : ∀ (input : Input) (p : ℕ) (desc : TaskDesc), s.descs[p]? = some desc →
    ∃ desc', (taskDispatcher.next s input).descs[p]? = some desc' ∧
      desc.state.rank ≤ desc'.state.rank
  /-- An entry goes after its task is `Done`. -/
  removed : ∀ (input : Input) (taskId : UInt64) (p : ℕ), s.tasks.lookup taskId = some p →
    (taskDispatcher.next s input).tasks.lookup taskId ≠ some p →
    ∃ desc, s.descs[p]? = some desc ∧ desc.state = .done
  /-- At most one call returns `OK`. -/
  returnedOnce : ∀ (j k : ℕ) (taskId : UInt64) (a b : Option DistTask),
    s.calls[j]? = some ⟨taskId, .returned .ok a⟩ → s.calls[k]? = some ⟨taskId, .returned .ok b⟩ → j = k
  /-- It returns a task that has been completed once. -/
  returned : ∀ (k : ℕ) (taskId : UInt64) (task : Option DistTask),
    s.calls[k]? = some ⟨taskId, .returned .ok task⟩ →
    ∃ t, task = some t ∧ t.completions.length = 1

/-- An entry that a step removes or replaces is that of a task that is `Done`. -/
theorem Sound.done_of_removed {s : TaskDispatcher} (h : Sound s) (hlen : s.descs.length ≤ 2 ^ 64)
    {input : Input} {taskId : UInt64} {p : ℕ} (hlook : s.tasks.lookup taskId = some p)
    (hgone : (taskDispatcher.next s input).tasks.lookup taskId ≠ some p) :
    ∃ desc, s.descs[p]? = some desc ∧ desc.state = .done := by
  obtain ⟨desc, hp, hid, -, -⟩ := h.entry taskId p hlook
  refine ⟨desc, hp, ?_⟩
  rcases next_lookup s input taskId with hsame | ⟨q, other, -, hq, -, hid', hlook'⟩ |
    ⟨k, q, -, hcall, -⟩ | ⟨now, q, other, -, hlook', hq, hclear, -⟩
  · exact absurd (hsame.trans hlook) hgone
  · obtain rfl : p = q := h.place_unique hlen hp hq (hid.trans hid'.symm)
    exact absurd hlook' hgone
  · obtain ⟨other, hq, hhad, -⟩ := h.call k _ hcall
    obtain rfl : p = q := h.place_unique hlen hp hq (hid.trans hhad.taskId.symm)
    obtain rfl := Option.some_inj.1 (hp.symm.trans hq)
    exact TaskDesc.fits_of (h.desc p desc hp).fits hhad.ended
  · obtain rfl := Option.some_inj.1 (hlook.symm.trans hlook')
    obtain rfl := Option.some_inj.1 (hp.symm.trans hq)
    rw [TaskDesc.clearable, Bool.and_eq_true] at hclear
    exact eq_of_beq hclear.1

/-- **Tasks live in order**, in every run that queues at most as many tasks as there are ids. -/
theorem livesInOrder_run (is : List Input) (hcount : is.countP Input.queues ≤ 2 ^ 64) :
    LivesInOrder (taskDispatcher.run {} is) := by
  have hsound := sound_run hcount
  have hlen : (taskDispatcher.run {} is).descs.length ≤ 2 ^ 64 := by
    rw [length_run]
    simpa using hcount
  constructor
  case entry =>
    intro taskId p hlook
    obtain ⟨desc, hp, -, -, htask⟩ := hsound.entry taskId p hlook
    exact ⟨desc, hp, Option.isSome_iff_ne_none.1 htask⟩
  case forward =>
    intro input p desc hp
    obtain ⟨desc', hp', hchange⟩ := next_descs_change hp input
    exact ⟨desc', hp', hchange.rank_le (hsound.desc p desc hp)⟩
  case removed => exact fun input taskId p hlook hgone => hsound.done_of_removed hlen hlook hgone
  case returnedOnce => exact fun j k taskId a b hj hk => hsound.once j k _ _ hj hk rfl rfl rfl
  case returned => exact fun k taskId task hk => (hsound.call k _ hk).2

/-- A task of the process `7`. -/
def sampleTask : CxxDistTask where
  cacheControl := true
  requesterPid := 7
  envDesc := { compilerDigest := "c1" }
  sourcePath := Bytes.ofString "d1"
  sourceDigest := Bytes.ofString "d1"
  args := Bytes.ofString "-O2"
  source := [40, 181, 47, 253]

/-- The answer of the servant on which the compile has failed. -/
def sampleReply : WaitReply where
  chunks := [{ response := some { taskStatus := .done, exitCode := 1, err := Bytes.ofString "e" } }]
  status := .OK

/-- A task that is queued, gets a grant and is compiled by a servant, which has failed. -/
def samplePerformed : List Input :=
  [.newTask sampleTask (5 * Cloud.minute), .insertTask 0, .perform 0 .start,
    .perform 0 (.tryReadCache (.ok none)), .perform 0 (.tryGetExistedResult none),
    .perform 0 .check,
    .perform 0 (.getGrant (some { grantId := 5, servantLocation := "10.0.0.1:8335" })),
    .perform 0 .setReady, .perform 0 (.startTask (some 3)), .perform 0 .check,
    .perform 0 (.poll sampleReply), .perform 0 .complete]

/-- A task that is queued, performed and taken. -/
theorem livesInOrder_taken :
    (taskDispatcher.run {}
      (samplePerformed ++ [.waitFind 1, .waitEvent 0, .waitErase 0, .waitMove 0])).calls =
      [⟨1, .returned .ok
        (some ⟨sampleTask, [{ exitCode := 1, stdErr := Bytes.ofString "e" }]⟩)⟩] ∧
    LivesInOrder (taskDispatcher.run {}
      (samplePerformed ++ [.waitFind 1, .waitEvent 0, .waitErase 0, .waitMove 0])) :=
  ⟨rfl, livesInOrder_run _ (by decide)⟩

/-! ### Beyond the wrap-around -/

/-- What `QueueTask` takes when it is called again and again before any entry is made. -/
theorem run_replicate_newTask (task : CxxDistTask) (startDeadline : TimePoint) (n : ℕ)
    (s : TaskDispatcher) :
    ∃ descs, taskDispatcher.run s (List.replicate n (.newTask task startDeadline)) =
      { s with nextId := s.nextId + UInt64.ofNat n, descs := s.descs ++ descs } ∧
      descs.length = n := by
  induction n generalizing s with
  | zero =>
      refine ⟨[], ?_, rfl⟩
      rw [List.append_nil]
      show s = { s with nextId := s.nextId + 0, descs := s.descs }
      rw [UInt64.add_zero]
  | succ n ih =>
      obtain ⟨descs, hrun, hlen⟩ := ih (s.newTask task startDeadline)
      refine ⟨s.made (.newTask task startDeadline) ++ descs, ?_, ?_⟩
      · rw [List.replicate_succ, Machine.run_cons]
        refine hrun.trans ?_
        rw [TaskDispatcher.newTask, List.append_assoc, UInt64.add_assoc, UInt64.add_comm 1,
          UInt64.ofNat_add_one, TaskDispatcher.made]
      · rw [List.length_append, hlen, Nat.add_comm]
        rfl

/-- With one task more than there are ids, the entry of a pending task is replaced. -/
theorem not_livesInOrder : ¬ ∀ is, LivesInOrder (taskDispatcher.run {} is) := by
  intro h
  obtain ⟨n, hwrap⟩ : ∃ n, 1 + UInt64.ofNat n = 0 := ⟨2 ^ 64 - 1, by decide⟩
  obtain ⟨descs, hrun, hlen⟩ := run_replicate_newTask sampleTask 10 n
    (taskDispatcher.run {} [.newTask sampleTask 10, .insertTask 0])
  have hlives := h ([.newTask sampleTask 10, .insertTask 0] ++
    List.replicate n (.newTask sampleTask 10) ++ [.newTask sampleTask 10])
  rw [Machine.run_concat, Machine.run_append, hrun] at hlives
  -- the last task has the id of the first one
  have hlast : ∀ (s : TaskDispatcher), s.descs.length = n + 1 → s.nextId = 0 →
      (taskDispatcher.next (taskDispatcher.next s (.newTask sampleTask 10))
        (.insertTask (n + 1))).tasks.lookup 1 ≠ some 0 := by
    intro s hlength hnext hfirst
    have hp : (taskDispatcher.next s (.newTask sampleTask 10)).descs[n + 1]? =
        some { taskId := s.nextId + 1, task := some { task := sampleTask }, startDeadline := 10 } := by
      rw [← hlength]
      exact List.getElem?_concat_length
    have hlook := lookup_insertTask hp rfl
    rw [hnext] at hlook
    cases hlook.symm.trans hfirst
  have hlength : ((taskDispatcher.run {} [.newTask sampleTask 10, .insertTask 0]).descs ++
      descs).length = n + 1 := by
    rw [List.length_append, hlen, Nat.add_comm]
    rfl
  obtain ⟨desc, hdesc, hdone⟩ :=
    hlives.removed (.insertTask (n + 1)) 1 0 rfl (hlast _ hlength hwrap)
  obtain rfl := Option.some_inj.1 hdesc
  cases hdone

end Local
