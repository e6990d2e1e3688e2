/-
**The reaper and its children.**

`WaiterProc` takes a permit of `waitpid_semaphore_` before it calls `wait`, and `TryQueueTask`
releases one for every child it starts.  The permit does not belong to that child: `wait` returns
whichever child ends first, and this may be one whose permit has not been released yet.  So
`TryQueueTask` is cut here between `fork` and `release`, and what is kept is a balance: the permits
that were released, the children that were made and the children that were reaped.

The balance needs that a permit stands for a child, that is, that no `fork` fails; what happens if
one does is in `Distribuild/CloudForkFailure.lean`.

Main definitions:

* `Cloud.Balanced` — the balance of permits and children;
* `Cloud.Reaper`, `Cloud.reaper` — the host with `TryQueueTask` in two steps;
* `Cloud.ForkWorks` — the step is no `fork` that fails.

Main results:

* `Cloud.Balanced.step` — what one step does to the balance;
* `Cloud.host_simulates_reaper` — `TryQueueTask` may be taken as one step;
* `Cloud.reaper_balanced` — **the permits are those released less the children reaped**, and `wait`
  has a child to return.
-/

import Distribuild.CloudConcurrency
import Distribuild.CloudSignals

set_option relaxedAutoImplicit false
set_option autoImplicit false

namespace Cloud

variable {τ : Type}

/-! ### What `TryQueueTask` refuses -/

/-- `TryStartingNewTaskUnsafe` refuses: the executor is about to exit, or there is no room, or no
memory. -/
def Executor.Refuses (e : Executor τ) (availMemory : UInt64) : Prop :=
  e.exiting = true ∨ e.runningTasks + 1 > e.maxConcurrency ∨ availMemory < e.minMemory

instance (e : Executor τ) (availMemory : UInt64) : Decidable (e.Refuses availMemory) :=
  inferInstanceAs (Decidable (e.exiting = true ∨ e.runningTasks + 1 > e.maxConcurrency ∨
    availMemory < e.minMemory))

/-- A refusal costs at most an id. -/
theorem tryQueueTask_refused {e : Executor τ} {availMemory : UInt64} (h : e.Refuses availMemory)
    (grantId : UInt64) (userTask : τ) (pid : Pid) (now : TimePoint) :
    ∃ n, tryQueueTask e grantId userTask availMemory pid now =
      ({ e with nextTaskId := n }, none) := by
  unfold tryQueueTask
  simp only [tryStartingNewTaskUnsafe]
  by_cases hexit : e.exiting = true
  · rw [if_pos hexit]
    exact ⟨e.nextTaskId, rfl⟩
  · rw [if_neg hexit]
    by_cases hfull : e.runningTasks + 1 > e.maxConcurrency
    · rw [if_pos hfull]
      exact ⟨e.nextTaskId + 1, rfl⟩
    · have hmem : availMemory < e.minMemory := (h.resolve_left hexit).resolve_left hfull
      rw [if_neg hfull, if_pos hmem]
      exact ⟨e.nextTaskId + 1, rfl⟩

/-- Otherwise a new object is filed, whatever `fork` returns. -/
theorem tryQueueTask_accepted {e : Executor τ} {availMemory : UInt64} (h : ¬e.Refuses availMemory)
    (grantId : UInt64) (userTask : τ) (pid : Pid) (now : TimePoint) :
    tryQueueTask e grantId userTask availMemory pid now =
      (e.started (newDesc grantId userTask pid now), some e.nextTaskId) := by
  obtain ⟨hexit, hfull, hmem⟩ : ¬e.exiting = true ∧ ¬e.runningTasks + 1 > e.maxConcurrency ∧
      ¬availMemory < e.minMemory := by
    simpa only [Executor.Refuses, not_or] using h
  unfold tryQueueTask
  simp only [tryStartingNewTaskUnsafe]
  rw [if_neg hexit, if_neg hfull, if_neg hmem]
  rfl

/-- The step is no `fork` that fails. -/
def ForkWorks (h : Host τ) : HostEvent τ → Prop
  | .tryQueueTask _ _ availMemory pid _ => pid = -1 → h.executor.Refuses availMemory
  | _ => True

instance (h : Host τ) : ∀ event, Decidable (ForkWorks h event)
  | .tryQueueTask _ _ availMemory pid _ =>
      inferInstanceAs (Decidable (pid = -1 → h.executor.Refuses availMemory))
  | .tryAddTaskRef _ => .isTrue trivial
  | .freeTask _ => .isTrue trivial
  | .killTask _ => .isTrue trivial
  | .waitForTask _ => .isTrue trivial
  | .tryWait _ => .isTrue trivial
  | .killExpiredTasks _ => .isTrue trivial
  | .onTimerClean _ => .isTrue trivial
  | .stop => .isTrue trivial
  | .rehash _ => .isTrue trivial
  | .waiterProc => .isTrue trivial
  | .reap _ => .isTrue trivial
  | .waitFails => .isTrue trivial
  | .onExitCallback _ _ => .isTrue trivial
  | .reportCompletion _ => .isTrue trivial

/-! ### The balance of permits and children -/

/-- `TryQueueTask` returns an id. -/
def HostOutput.queuedSome : HostOutput τ → Bool
  | .queued (some _) => true
  | _ => false

/-- `wait` returns a child. -/
def HostEvent.reaps : HostEvent τ → HostOutput τ → Bool
  | .reap _, .done => true
  | _, _ => false

/-- **The balance of permits and children**: so many permits were released by `TryQueueTask`, so
many children made and so many reaped. -/
structure Balanced (released forked reaped : ℕ) (h : Host τ) : Prop where
  permits : h.executor.exiting = false → h.executor.permits = released
  children : h.children.length + reaped = forked
  /-- The waiter has reaped a child for every permit it took, but for the one it holds. -/
  acquired : h.waiter ≠ .exited → h.acquired = reaped + h.waiter.held
  le : h.acquired ≤ h.executor.permits
  alive : h.executor.exiting = false → h.waiter ≠ .exited

theorem balanced_init (flags : ExecutorFlags) (numCpuCores : UInt64) :
    Balanced 0 0 0 (Host.init τ flags numCpuCores) where
  permits := fun _ => rfl
  children := rfl
  acquired := fun _ => rfl
  le := Nat.le_refl 0
  alive := fun _ hexited => by cases hexited

/-- **`wait` has a child to return** if the permit it is called for was released by
`TryQueueTask`. -/
theorem Balanced.children_ne_nil {released forked reaped : ℕ} {h : Host τ}
    (hb : Balanced released forked reaped h) (hforked : released ≤ forked)
    (hw : h.waiter = .waiting) (hpermit : h.acquired ≤ released) : h.children ≠ [] := by
  intro hnil
  have hchildren := hb.children
  have hacquired := hb.acquired fun hexited => by cases hw.symm.trans hexited
  rw [hnil, List.length_nil] at hchildren
  rw [hw, WaiterState.held] at hacquired
  omega

/-- Before `Stop` it always has. -/
theorem Balanced.children_ne_nil_of_not_exiting {released forked reaped : ℕ} {h : Host τ}
    (hb : Balanced released forked reaped h) (hforked : released ≤ forked)
    (hw : h.waiter = .waiting) (hexit : h.executor.exiting = false) : h.children ≠ [] :=
  hb.children_ne_nil hforked hw (hb.permits hexit ▸ hb.le)

/-- The parts of the host that the balance is about. -/
def Host.balance (h : Host τ) : Bool × ℕ × ℕ × List Child × WaiterState :=
  (h.executor.exiting, h.executor.permits, h.acquired, h.children, h.waiter)

/-- Some permits are released, or some children made. -/
theorem Balanced.add {released forked reaped : ℕ} {h h' : Host τ}
    (hb : Balanced released forked reaped h) (permits children : ℕ)
    (hexit : h'.executor.exiting = h.executor.exiting)
    (hpermits : h'.executor.permits = h.executor.permits + permits)
    (hchildren : h'.children.length = h.children.length + children)
    (hacquired : h'.acquired = h.acquired) (hwaiter : h'.waiter = h.waiter) :
    Balanced (released + permits) (forked + children) reaped h' := by
  constructor
  · intro hexit'
    rw [hpermits, hb.permits (hexit ▸ hexit')]
  · rw [hchildren, ← hb.children]
    exact Nat.add_right_comm ..
  · rw [hwaiter, hacquired]
    exact hb.acquired
  · rw [hacquired, hpermits]
    exact Nat.le_add_right_of_le hb.le
  · rw [hexit, hwaiter]
    exact hb.alive

theorem Balanced.congr {released forked reaped : ℕ} {h h' : Host τ}
    (hb : Balanced released forked reaped h) (heq : h'.balance = h.balance) :
    Balanced released forked reaped h' := by
  obtain ⟨hexit, hpermits, hacquired, hchildren, hwaiter⟩ :
      h'.executor.exiting = h.executor.exiting ∧ h'.executor.permits = h.executor.permits ∧
      h'.acquired = h.acquired ∧ h'.children = h.children ∧ h'.waiter = h.waiter := by
    simpa [Host.balance] using heq
  exact hb.add 0 0 hexit hpermits (congrArg List.length hchildren) hacquired hwaiter

/-- The step is about the permits, the children or the waiter. -/
def HostEvent.moves : HostEvent τ → Bool
  | .tryQueueTask .. => true
  | .stop => true
  | .waiterProc => true
  | .reap _ => true
  | .waitFails => true
  | _ => false

/-- The other steps leave the balance alone. -/
theorem balance_hostStep (h : Host τ) {event : HostEvent τ} (hmoves : event.moves = false) :
    (hostStep h event).1.balance = h.balance := by
  have hcounters {h' : Host τ} (heq : h'.executor.counters = h.executor.counters)
      (hrest : (h'.acquired, h'.children, h'.waiter) = (h.acquired, h.children, h.waiter)) :
      h'.balance = h.balance := by
    simp only [Executor.counters, Prod.mk.injEq] at heq hrest
    simp [Host.balance, heq, hrest]
  cases event with
  | tryQueueTask grantId userTask availMemory pid now => cases hmoves
  | stop => cases hmoves
  | waiterProc => cases hmoves
  | reap i => cases hmoves
  | waitFails => cases hmoves
  | tryAddTaskRef taskId => exact hcounters (counters_tryAddTaskRef ..) rfl
  | freeTask taskId => exact hcounters (counters_freeTask ..) rfl
  | tryWait i =>
      simp only [hostStep]
      split
      · exact hcounters (counters_tryWait ..) rfl
      · rfl
  | killTask i =>
      simp only [hostStep]
      split
      · rfl
      · rfl
  | onExitCallback i now =>
      simp only [hostStep]
      split
      next exit _ =>
        have heq := counters_onExitCallback h.executor exit.pid now
        simp only [Executor.counters, Prod.mk.injEq] at heq
        simp [Host.balance, heq]
      next => rfl
  | reportCompletion i =>
      simp only [hostStep]
      split
      · rfl
      · rfl
  | _ => rfl

/-- Only `TryQueueTask` returns an id. -/
theorem queuedSome_hostStep (h : Host τ) {event : HostEvent τ} (hqueues : event.queues = false) :
    (hostStep h event).2.queuedSome = false := by
  have hanswer := answeredBy_hostStep h event
  revert hanswer
  cases (hostStep h event).2 with
  | queued taskId =>
      intro hanswer
      cases event with
      | tryQueueTask grantId userTask availMemory pid now => cases hqueues
      | _ => cases hanswer
  | _ => exact fun _ => rfl

/-- What `TryQueueTask` does to the balance: nothing, or there is one more child and one more
permit. -/
theorem Host.tryQueueTask_balance {h : Host τ} {availMemory : UInt64} {pid : Pid}
    (hworks : pid = -1 → h.executor.Refuses availMemory) (grantId : UInt64) (userTask : τ)
    (now : TimePoint) :
    let r := h.tryQueueTask grantId userTask availMemory pid now
    (r.2 = .queued none ∧ r.1.balance = h.balance) ∨
    (r.2 = .queued (some h.executor.nextTaskId) ∧
      r.1.balance = (h.executor.exiting, h.executor.permits + 1, h.acquired,
        h.children ++ [⟨pid, h.executor.heapTop⟩], h.waiter)) := by
  by_cases hrefuses : h.executor.Refuses availMemory
  · obtain ⟨n, heq⟩ := tryQueueTask_refused hrefuses grantId userTask pid now
    refine Or.inl ?_
    simp [Host.tryQueueTask, heq, Host.balance]
  · have heq := tryQueueTask_accepted hrefuses grantId userTask pid now
    have hpid : pid ≠ -1 := fun hfail => hrefuses (hworks hfail)
    refine Or.inr ?_
    simp [Host.tryQueueTask, heq, Host.balance, hpid, Executor.started]

theorem Balanced.waiterProc {released forked reaped : ℕ} {h : Host τ}
    (hb : Balanced released forked reaped h) : Balanced released forked reaped h.waiterProc.1 := by
  have hwork : h.executor.exiting = false → hasWork h.executor = true := hasWork_of_not_exiting
  cases hw : h.waiter with
  | checking =>
      have hacquired := hb.acquired fun hexited => by cases hw.symm.trans hexited
      simp only [Host.waiterProc, hw]
      refine ⟨hb.permits, hb.children, fun _ => ?_, hb.le, fun hexit => ?_⟩
      · rw [hacquired, hw]
        simp only
        split
        · rfl
        · rfl
      · simp only [hwork hexit, if_true]
        exact fun hexited => by cases hexited
  | acquiring =>
      have hacquired := hb.acquired fun hexited => by cases hw.symm.trans hexited
      simp only [Host.waiterProc, hw]
      by_cases hfree : h.acquired < h.executor.permits
      · rw [if_pos hfree]
        refine ⟨hb.permits, hb.children, fun _ => ?_, hfree, fun _ hexited => by cases hexited⟩
        simp only [hw, WaiterState.held] at hacquired ⊢
        omega
      · rw [if_neg hfree]
        exact hb
  | rechecking =>
      have hacquired := hb.acquired fun hexited => by cases hw.symm.trans hexited
      simp only [Host.waiterProc, hw]
      refine ⟨hb.permits, hb.children, fun hne => ?_, hb.le, fun hexit => ?_⟩
      · -- the waiter exits with the permit it holds, or it waits
        simp only at hne ⊢
        split at hne
        next hhas =>
          rw [if_pos hhas, hacquired, hw]
          rfl
        next => exact absurd rfl hne
      · simp only [hwork hexit, if_true]
        exact fun hexited => by cases hexited
  | waiting =>
      simp only [Host.waiterProc, hw]
      exact hb
  | exited =>
      simp only [Host.waiterProc, hw]
      exact hb

/-- A child is reaped for the permit that the waiter holds. -/
theorem Balanced.reap {released forked reaped : ℕ} {h : Host τ}
    (hb : Balanced released forked reaped h) (i : ℕ) :
    Balanced released forked (reaped + (HostEvent.reaps (.reap i) (h.reap i).2).toNat)
      (h.reap i).1 := by
  unfold Host.reap
  split
  next child hw hchild =>
    have hlen := List.length_eraseIdx_add_one (List.getElem?_eq_some_iff.1 hchild).1
    have hchildren := hb.children
    have hacquired := hb.acquired fun hexited => by cases hw.symm.trans hexited
    rw [hw] at hacquired
    refine ⟨hb.permits, ?_, fun _ => hacquired, hb.le, fun _ hexited => by cases hexited⟩
    simp only [HostEvent.reaps, Bool.toNat_true]
    omega
  next => exact hb

/-- `wait` fails only after `Stop`. -/
theorem Balanced.waitFails {released forked reaped : ℕ} {h : Host τ}
    (hb : Balanced released forked reaped h) (hforked : released ≤ forked) :
    Balanced released forked reaped h.waitFails.1 := by
  unfold Host.waitFails
  split
  next hw hnone =>
    split
    next hexit =>
      refine ⟨hb.permits, hb.children, fun hne => absurd rfl hne, hb.le, fun hexit' => ?_⟩
      cases hexit.symm.trans hexit'
    next hexit =>
      exact absurd hnone
        (hb.children_ne_nil_of_not_exiting hforked hw (by simpa using hexit))
  next => exact hb

/-- **What one step does to the balance.** -/
theorem Balanced.step {released forked reaped : ℕ} {h : Host τ} {event : HostEvent τ}
    (hb : Balanced released forked reaped h) (hforked : released ≤ forked)
    (hworks : ForkWorks h event) :
    Balanced (released + (hostStep h event).2.queuedSome.toNat)
      (forked + (hostStep h event).2.queuedSome.toNat)
      (reaped + (event.reaps (hostStep h event).2).toNat) (hostStep h event).1 := by
  cases event with
  | tryQueueTask grantId userTask availMemory pid now =>
      simp only [hostStep]
      split
      · rcases Host.tryQueueTask_balance hworks grantId userTask now with ⟨hout, heq⟩ | ⟨hout, heq⟩
        · rw [hout]
          exact hb.congr heq
        · rw [hout]
          simp only [Host.balance, Prod.mk.injEq] at heq
          obtain ⟨hexit, hpermits, hacquired, hchildren, hwaiter⟩ := heq
          refine hb.add 1 1 hexit hpermits ?_ hacquired hwaiter
          rw [hchildren, List.length_append, List.length_singleton]
      · exact hb
  | stop =>
      exact ⟨(fun h => by cases h), hb.children, hb.acquired, Nat.le_succ_of_le hb.le,
        fun h => by cases h⟩
  | waiterProc =>
      rw [queuedSome_hostStep h rfl]
      exact hb.waiterProc
  | reap i =>
      rw [queuedSome_hostStep h rfl]
      exact hb.reap i
  | waitFails =>
      rw [queuedSome_hostStep h rfl]
      exact hb.waitFails hforked
  | _ =>
      rw [queuedSome_hostStep h rfl]
      exact hb.congr (balance_hostStep h rfl)

/-! ### `TryQueueTask` in two steps -/

/-- The host, with a `TryQueueTask` that may be on its way from `fork` to `release`. -/
structure Reaper (τ : Type) where
  host : Host τ
  /-- The id that this `TryQueueTask` is going to return.  It has made its child and holds
  `task_mutex_`. -/
  releasing : Option UInt64 := none

/-- The steps.  Of `TryQueueTask`, a step of the host is what comes before `release`. -/
inductive ReaperEvent (τ : Type)
  | host (event : HostEvent τ)
  /-- `TryQueueTask` releases the permit and returns. -/
  | release

/-- The step takes `task_mutex_`.  (`Stop` sets `exiting_` before it does, which makes no difference
before `Stop`.) -/
def HostEvent.locks : HostEvent τ → Bool
  | .killTask _ => false
  | .tryWait _ => false
  | .waiterProc => false
  | .reap _ => false
  | .waitFails => false
  | .reportCompletion _ => false
  | _ => true

/-- The host with another number of permits. -/
def Host.withPermits (h : Host τ) (permits : ℕ) : Host τ :=
  { h with executor := { h.executor with permits := permits } }

/-- One step. -/
def reaperStep (r : Reaper τ) : ReaperEvent τ → Reaper τ × HostOutput τ
  | .host event =>
      if r.releasing.isSome && event.locks then (r, .disabled)
      else
        match hostStep r.host event with
        -- the child is there, and the permit is still to be released
        | (h, .queued (some taskId)) =>
            ({ host := h.withPermits r.host.executor.permits, releasing := some taskId }, .done)
        | (h, out) => ({ r with host := h }, out)
  | .release =>
      match r.releasing with
      | some taskId =>
          ({ host := r.host.withPermits (r.host.executor.permits + 1) }, .queued (some taskId))
      | none => (r, .disabled)

/-- **The host with `TryQueueTask` in two steps, as a machine.** -/
def reaper (τ : Type) : Machine (Reaper τ) (ReaperEvent τ) (HostOutput τ) := ⟨reaperStep⟩

@[simp] theorem reaper_next (r : Reaper τ) (event : ReaperEvent τ) :
    (reaper τ).next r event = (reaperStep r event).1 := rfl

@[simp] theorem reaper_out (r : Reaper τ) (event : ReaperEvent τ) :
    (reaper τ).out r event = (reaperStep r event).2 := rfl

def Reaper.init (τ : Type) (flags : ExecutorFlags) (numCpuCores : UInt64) : Reaper τ where
  host := .init τ flags numCpuCores

/-- **What a step of the host becomes**: it waits for the lock, or it is the first half of a
`TryQueueTask`, or it is as before. -/
theorem reaperStep_host (r : Reaper τ) (event : HostEvent τ) :
    (r.releasing.isSome = true ∧ event.locks = true ∧
      reaperStep r (.host event) = (r, .disabled)) ∨
    (r.releasing = none ∧ ∃ taskId, (hostStep r.host event).2 = .queued (some taskId) ∧
      reaperStep r (.host event) =
        (⟨(hostStep r.host event).1.withPermits r.host.executor.permits, some taskId⟩, .done)) ∨
    ((r.releasing = none ∨ event.locks = false) ∧ (hostStep r.host event).2.queuedSome = false ∧
      reaperStep r (.host event) =
        (⟨(hostStep r.host event).1, r.releasing⟩, (hostStep r.host event).2)) := by
  simp only [reaperStep]
  by_cases hlocked : (r.releasing.isSome && event.locks) = true
  · rw [if_pos hlocked]
    exact Or.inl ⟨(Bool.and_eq_true_iff.1 hlocked).1, (Bool.and_eq_true_iff.1 hlocked).2, rfl⟩
  · rw [if_neg hlocked]
    have hfree : r.releasing = none ∨ event.locks = false := by
      cases hr : r.releasing with
      | none => exact Or.inl rfl
      | some taskId => exact Or.inr (by simpa [hr] using hlocked)
    refine Or.inr ?_
    split
    next h taskId heq =>
      rw [heq]
      refine Or.inl ⟨hfree.resolve_right fun hlocks => ?_, taskId, rfl, rfl⟩
      -- `TryQueueTask` takes the lock
      have hqueues : event.queues = false := by
        cases event with
        | tryQueueTask => cases hlocks
        | _ => rfl
      cases (congrArg (fun q => q.2.queuedSome) heq).symm.trans (queuedSome_hostStep r.host hqueues)
    next h out hout heq =>
      rw [heq]
      refine Or.inr ⟨hfree, ?_, rfl⟩
      cases out with
      | queued taskId =>
          cases taskId with
          | none => rfl
          | some taskId => exact absurd rfl (hout taskId)
      | _ => rfl

/-- The host as it is once the permit has been released. -/
def Reaper.view (r : Reaper τ) : Host τ :=
  r.host.withPermits (r.host.executor.permits + r.releasing.isSome.toNat)

@[simp] theorem withPermits_self (h : Host τ) : h.withPermits h.executor.permits = h := rfl

@[simp] theorem withPermits_waiter (h : Host τ) (n : ℕ) : (h.withPermits n).waiter = h.waiter := rfl

@[simp] theorem withPermits_children (h : Host τ) (n : ℕ) :
    (h.withPermits n).children = h.children := rfl

/-- A step without the lock looks at the permits only to see whether it can take one. -/
theorem hostStep_withPermits (h : Host τ) {n : ℕ} (hn : h.executor.permits ≤ n)
    {event : HostEvent τ} (hlocks : event.locks = false) :
    (hostStep h event).1.withPermits n = (hostStep (h.withPermits n) event).1 ∨
      (hostStep h event).1 = h := by
  cases event with
  | killTask i =>
      simp only [hostStep, Host.withPermits]
      cases h.killing[i]? with
      | none => exact Or.inl rfl
      | some p => exact Or.inl rfl
  | tryWait i =>
      simp only [hostStep, Host.withPermits]
      cases h.callers[i]? with
      | none => exact Or.inl rfl
      | some p =>
          simp only [tryWait]
          cases h.executor.heap p with
          | none => exact Or.inl rfl
          | some desc =>
              simp only
              split
              · exact Or.inl rfl
              · exact Or.inl rfl
  | waiterProc =>
      cases hw : h.waiter with
      | acquiring =>
          have hw' : (h.withPermits n).waiter = .acquiring := hw
          by_cases hfree : h.acquired < h.executor.permits
          · have hfree' : (h.withPermits n).acquired < (h.withPermits n).executor.permits :=
              Nat.lt_of_lt_of_le hfree hn
            refine Or.inl ?_
            simp only [hostStep, Host.waiterProc, hw, hw', if_pos hfree, if_pos hfree']
            rfl
          · refine Or.inr ?_
            simp only [hostStep, Host.waiterProc, hw, if_neg hfree]
      | checking =>
          simp only [hostStep, Host.waiterProc, Host.withPermits, hw]
          exact Or.inl rfl
      | rechecking =>
          simp only [hostStep, Host.waiterProc, Host.withPermits, hw]
          exact Or.inl rfl
      | waiting => exact Or.inr (by simp only [hostStep, Host.waiterProc, hw])
      | exited => exact Or.inr (by simp only [hostStep, Host.waiterProc, hw])
  | reap i =>
      simp only [hostStep, Host.reap, Host.withPermits]
      split
      · exact Or.inl rfl
      · exact Or.inl rfl
  | waitFails =>
      refine Or.inl ?_
      simp only [hostStep, Host.waitFails, withPermits_waiter, withPermits_children]
      split
      · by_cases hexit : h.executor.exiting = true
        · have hexit' : (h.withPermits n).executor.exiting = true := hexit
          rw [if_pos hexit, if_pos hexit']
          rfl
        · have hexit' : ¬(h.withPermits n).executor.exiting = true := hexit
          rw [if_neg hexit, if_neg hexit']
          rfl
      · rfl
  | reportCompletion i =>
      simp only [hostStep, Host.withPermits]
      cases h.completing[i]? with
      | none => exact Or.inl rfl
      | some p => exact Or.inl rfl
  | _ => cases hlocks

/-- A step without the lock releases no permit. -/
theorem permits_hostStep (h : Host τ) {event : HostEvent τ} (hlocks : event.locks = false) :
    (hostStep h event).1.executor.permits = h.executor.permits := by
  have hbalance (hmoves : event.moves = false) :
      (hostStep h event).1.executor.permits = h.executor.permits :=
    congrArg (fun balance => balance.2.1) (balance_hostStep h hmoves)
  cases event with
  | killTask i => exact hbalance rfl
  | tryWait i => exact hbalance rfl
  | reportCompletion i => exact hbalance rfl
  | waiterProc => exact congrArg Executor.permits (executor_hostStep h .waiterProc)
  | reap i => exact congrArg Executor.permits (executor_hostStep h (.reap i))
  | waitFails => exact congrArg Executor.permits (executor_hostStep h .waitFails)
  | _ => cases hlocks

/-- A `TryQueueTask` that returns an id releases one. -/
theorem permits_of_queued {h : Host τ} {event : HostEvent τ} {taskId : UInt64}
    (hout : (hostStep h event).2 = .queued (some taskId)) :
    (hostStep h event).1.executor.permits = h.executor.permits + 1 := by
  cases event with
  | tryQueueTask grantId userTask availMemory pid now =>
      simp only [hostStep] at hout ⊢
      split at hout
      next hcan =>
        rw [if_pos hcan]
        simp only [Host.tryQueueTask] at hout ⊢
        rcases tryQueueTask_cases h.executor grantId userTask availMemory pid now with
          ⟨n, -, heq⟩ | ⟨-, -, heq⟩
        · rw [heq] at hout
          cases hout
        · rw [heq]
          rfl
      next => cases hout
  | _ =>
      cases (congrArg HostOutput.queuedSome hout).symm.trans (queuedSome_hostStep h rfl)

/-- The child and the permit come together if one looks when the permit has been released. -/
theorem view_reaperStep (r : Reaper τ) (event : ReaperEvent τ) :
    (reaperStep r event).1.view = r.view ∨
      ∃ e, event = .host e ∧ (reaperStep r event).1.view = (hostStep r.view e).1 := by
  cases event with
  | release =>
      simp only [reaperStep]
      cases hr : r.releasing with
      | none => exact Or.inl rfl
      | some taskId =>
          refine Or.inl ?_
          simp only [Reaper.view, hr]
          rfl
  | host e =>
      rcases reaperStep_host r e with ⟨-, -, heq⟩ | ⟨hnone, taskId, hout, heq⟩ | ⟨hfree, -, heq⟩
      · exact Or.inl (by rw [heq])
      · refine Or.inr ⟨e, rfl, ?_⟩
        have hview : r.view = r.host := by simp [Reaper.view, hnone]
        rw [heq, hview]
        -- the permit that is held back is the one `TryQueueTask` adds
        change (hostStep r.host e).1.withPermits (r.host.executor.permits + 1) = _
        rw [← permits_of_queued hout, withPermits_self]
      · rcases hfree with hnone | hlocks
        · refine Or.inr ⟨e, rfl, ?_⟩
          have hview : r.view = r.host := by simp [Reaper.view, hnone]
          rw [heq, hview]
          simp [Reaper.view, hnone]
        · rw [heq]
          simp only [Reaper.view]
          rw [permits_hostStep r.host hlocks]
          rcases hostStep_withPermits r.host
            (Nat.le_add_right r.host.executor.permits r.releasing.isSome.toNat) hlocks with
            hsame | hidle
          · exact Or.inr ⟨e, rfl, hsame⟩
          · exact Or.inl (by rw [hidle])

/-- **`TryQueueTask` may be taken as one step**: what the other threads do between its `fork` and
its `release`, they may also do after it. -/
theorem host_simulates_reaper (τ : Type) : (host τ).Simulates (reaper τ) Reaper.view := by
  intro r event
  rcases view_reaperStep r event with heq | ⟨e, -, heq⟩
  · rw [reaper_next, heq]
    exact Machine.Reachable.refl _
  · rw [reaper_next, heq]
    exact ⟨[e], rfl⟩

/-! ### The permits are those of the children -/

/-- The step is no `fork` that fails. -/
def ReaperForkWorks (r : Reaper τ) : ReaperEvent τ → Prop
  | .host event => ForkWorks r.host event
  | .release => True

instance (r : Reaper τ) : ∀ event, Decidable (ReaperForkWorks r event)
  | .host event => inferInstanceAs (Decidable (ForkWorks r.host event))
  | .release => .isTrue trivial

/-- `wait` returns a child. -/
def ReaperEvent.reaps : ReaperEvent τ → HostOutput τ → Bool
  | .host event, out => event.reaps out
  | .release, _ => false

/-- How many calls of `TryQueueTask` have released their permit. -/
def releasedIn (history : List (ReaperEvent τ × HostOutput τ)) : ℕ :=
  history.countP fun step => step.2.queuedSome

/-- How many children have been reaped. -/
def reapedIn (history : List (ReaperEvent τ × HostOutput τ)) : ℕ :=
  history.countP fun step => step.1.reaps step.2

/-- The permits of `waitpid_semaphore_` that can be acquired. -/
def Host.available (h : Host τ) : ℕ := h.executor.permits - h.acquired

/-- The first half of `TryQueueTask` adds a child only. -/
theorem Balanced.fork {released forked reaped : ℕ} {h : Host τ} {event : HostEvent τ}
    (hb : Balanced released forked reaped h) (hworks : ForkWorks h event) {taskId : UInt64}
    (hout : (hostStep h event).2 = .queued (some taskId)) :
    Balanced released (forked + 1) reaped
      ((hostStep h event).1.withPermits h.executor.permits) := by
  cases event with
  | tryQueueTask grantId userTask availMemory pid now =>
      simp only [hostStep] at hout ⊢
      split at hout
      next hcan =>
        rw [if_pos hcan]
        rcases Host.tryQueueTask_balance hworks grantId userTask now with ⟨hnone, -⟩ | ⟨-, heq⟩
        · cases hnone.symm.trans hout
        · simp only [Host.balance, Prod.mk.injEq] at heq
          obtain ⟨hexit, -, hacquired, hchildren, hwaiter⟩ := heq
          refine hb.add 0 1 hexit rfl ?_ hacquired hwaiter
          rw [withPermits_children, hchildren, List.length_append, List.length_singleton]
      next => cases hout
  | _ => cases (congrArg HostOutput.queuedSome hout).symm.trans (queuedSome_hostStep h rfl)

/-- What one step does to the balance, where a child may be there before its permit. -/
theorem Balanced.reaperStep {released reaped : ℕ} {r : Reaper τ} {event : ReaperEvent τ}
    (hb : Balanced released (released + r.releasing.isSome.toNat) reaped r.host)
    (hworks : ReaperForkWorks r event) :
    let out := (Cloud.reaperStep r event).2
    let r' := (Cloud.reaperStep r event).1
    Balanced (released + out.queuedSome.toNat)
      (released + out.queuedSome.toNat + r'.releasing.isSome.toNat)
      (reaped + (event.reaps out).toNat) r'.host := by
  cases event with
  | release =>
      simp only [Cloud.reaperStep]
      cases hr : r.releasing with
      | none =>
          rw [hr] at hb
          rw [hr]
          exact hb
      | some taskId =>
          rw [hr] at hb
          exact hb.add 1 0 rfl rfl rfl rfl rfl
  | host e =>
      rcases reaperStep_host r e with ⟨-, -, heq⟩ | ⟨hnone, taskId, hout, heq⟩ | ⟨-, hout, heq⟩
      · simp only [heq]
        cases e with
        | _ => exact hb
      · simp only [heq]
        rw [hnone] at hb
        have hfork := hb.fork hworks hout
        cases e with
        | tryQueueTask => exact hfork
        | _ => cases (congrArg HostOutput.queuedSome hout).symm.trans (queuedSome_hostStep _ rfl)
      · simp only [heq]
        have hstep := hb.step (Nat.le_add_right released _) hworks
        rw [hout] at hstep ⊢
        exact hstep

theorem countP_concat {α : Type*} (p : α → Bool) (l : List α) (a : α) :
    (l ++ [a]).countP p = l.countP p + (p a).toNat := by
  rw [List.countP_append, List.countP_singleton]
  cases p a with
  | false => rfl
  | true => rfl

theorem balanced_run (flags : ExecutorFlags) (numCpuCores : UInt64) {events : List (ReaperEvent τ)}
    (hworks : (reaper τ).Along ReaperForkWorks (.init τ flags numCpuCores) events) :
    let r := (reaper τ).run (.init τ flags numCpuCores) events
    let history := (reaper τ).trace (.init τ flags numCpuCores) events
    Balanced (releasedIn history) (releasedIn history + r.releasing.isSome.toNat)
      (reapedIn history) r.host := by
  refine Machine.trace_invariant_along (M := reaper τ) (P := fun history r =>
    Balanced (releasedIn history) (releasedIn history + r.releasing.isSome.toNat)
      (reapedIn history) r.host)
    ?_ ?_ hworks
  · exact balanced_init flags numCpuCores
  · intro history r event hevent hb
    have hstep := hb.reaperStep hevent
    simp only [releasedIn, reapedIn, countP_concat]
    exact hstep

/-- **The permits are those released less the children reaped.**  In every state before `Stop` that
a run without a failed `fork` reaches, the permits of the semaphore, and the one the waiter has
taken if it is between `acquire` and the return of `wait`, are the calls of `TryQueueTask` that have
released theirs less the children that were reaped.  So `wait` is called only if a child is left,
and does not fail; and once no call is on its way to its `release`, every child that is left has its
permit, or the waiter has it. -/
theorem reaper_balanced (flags : ExecutorFlags) (numCpuCores : UInt64)
    (events : List (ReaperEvent τ))
    (hworks : (reaper τ).Along ReaperForkWorks (.init τ flags numCpuCores) events) :
    let r := (reaper τ).run (.init τ flags numCpuCores) events
    let history := (reaper τ).trace (.init τ flags numCpuCores) events
    r.host.executor.exiting = false →
      r.host.available + r.host.waiter.held + reapedIn history = releasedIn history ∧
      (r.host.waiter = .waiting → r.host.children ≠ []) ∧
      (reaper τ).out r (.host .waitFails) = .disabled ∧
      (r.releasing = none →
        r.host.children.length = r.host.available + r.host.waiter.held) := by
  intro r history hexit
  have hb : Balanced (releasedIn history) (releasedIn history + r.releasing.isSome.toNat)
      (reapedIn history) r.host := balanced_run flags numCpuCores hworks
  have hpermits := hb.permits hexit
  have hacquired := hb.acquired (hb.alive hexit)
  have hle := hb.le
  have hchildren := hb.children
  have hwait : r.host.waiter = .waiting → r.host.children ≠ [] := fun hw =>
    hb.children_ne_nil_of_not_exiting (Nat.le_add_right ..) hw hexit
  refine ⟨?_, hwait, ?_, fun hnone => ?_⟩
  · unfold Host.available
    omega
  · have hdisabled : r.host.waitFails = (r.host, .disabled) := by
      unfold Host.waitFails
      split
      next hw hnil => exact absurd hnil (hwait hw)
      next => rfl
    simp only [reaper_out, reaperStep, HostEvent.locks, hostStep, hdisabled, Bool.and_false]
    rfl
  · rw [hnone] at hchildren
    simp only [Option.isSome_none, Bool.toNat_false] at hchildren
    unfold Host.available
    omega

/-- The waiter takes the permit of the first child and reaps the second, whose permit has not been
released. -/
def earlyReap : List (ReaperEvent Unit) :=
  [.host (.tryQueueTask 7 () 10 100 0), .release, .host .waiterProc, .host .waiterProc,
    .host .waiterProc, .host (.tryQueueTask 8 () 10 101 0), .host (.reap 1)]

/-- The balance is kept nevertheless. -/
theorem reaper_balanced_early_reap :
    let r := (reaper Unit).run (.init Unit (sampleFlags 2) 8) earlyReap
    let history := (reaper Unit).trace (.init Unit (sampleFlags 2) 8) earlyReap
    r.releasing = some 2 ∧ r.host.children = [⟨100, 0⟩] ∧
      r.host.available + r.host.waiter.held + reapedIn history = releasedIn history :=
  ⟨by decide, by decide, (reaper_balanced (sampleFlags 2) 8 earlyReap (by decide) (by decide)).1⟩

end Cloud
