/-
**Monitors: operations under one mutex, and callers that sleep on a condition variable.**

Many classes of a concurrent program have the same shape.  Their state is behind a mutex; some of
their operations end with `notify_all`; and one operation is a loop

    while (true) { …try to serve the request…; if (cv.wait_until(lock, deadline) == timeout) return; }

whose caller sleeps while its request cannot be served.  This module makes a machine of such a
class: besides the operations there are calls of the loop, and a sleeping caller whose wait ends,
because it was notified or because its deadline has passed.

A timed wait is a subtle thing.  A caller is notified while it sleeps but takes the mutex only
later, and if its deadline passes in between, `wait_until` still says `timeout`.  So `notify_all`
only marks the callers here, and the end of a wait is a step of its own.

A lost wake-up is a caller that gives up although its request can be served.  The rule proved here
is the usual discipline: if every step that makes a request servable notifies, then a caller that
gives up without having been notified of anything it could use gives up for a reason.

Main definitions:

* `Monitor` — the class, and `Monitor.machine` — its machine;
* `Monitor.Attentive` — an operation that cannot go unheard;
* `Monitor.Settled` — a sleeping caller has nothing to gain;
* `Monitor.waitFor` — a timed wait with a predicate, which is another matter: it asks the predicate
  once more before it says that it has timed out.

Main results:

* `Monitor.settled_next` — one step keeps the sleeping callers settled;
* `Monitor.not_ready_of_timeout` — **no lost wake-up**.
-/

import Distribuild.Machine
import Mathlib.Logic.Function.Basic

set_option relaxedAutoImplicit false
set_option autoImplicit false

universe u₁ u₂ u₃ u₄ u₅ u₆

/-- A class whose state `σ` is behind a mutex, with requests of type `ρ`, answers of type `α`, and
other operations `ι` with results `ο`. -/
structure Monitor (σ : Type u₁) (ρ : Type u₂) (α : Type u₃) (ι : Type u₄) (ο : Type u₅) where
  /-- One pass of the waiting loop at a clock reading; without an answer the caller goes to
  sleep. -/
  attempt : σ → ρ → ℕ → σ × Option α
  /-- Another operation. -/
  exec : σ → ι → σ × ο
  /-- Whether the operation reaches `notify_all`. -/
  notifies : σ → ι → Bool
  /-- The request can be served. -/
  ready : σ → ρ → Bool

namespace Monitor

variable {σ : Type u₁} {ρ : Type u₂} {α : Type u₃} {ι : Type u₄} {ο : Type u₅} {κ : Type u₆}

/-! ### The machine -/

/-- A caller asleep in `wait_until`. -/
structure Waiter (ρ : Type u₂) where
  request : ρ
  deadline : ℕ
  /-- `notify_all` was called since it fell asleep. -/
  notified : Bool
  /-- History: at one of these notifications its request could be served. -/
  offered : Bool
deriving DecidableEq, Repr

/-- The state behind the mutex, and the callers that sleep. -/
structure State (σ : Type u₁) (ρ : Type u₂) (κ : Type u₆) where
  shared : σ
  waiting : κ → Option (Waiter ρ)

/-- What can happen next. -/
inductive Event (ρ : Type u₂) (ι : Type u₄) (κ : Type u₆)
  /-- `caller` enters the loop. -/
  | call (caller : κ) (request : ρ) (deadline now : ℕ)
  /-- The wait of `caller` ends, with `cv_status::timeout` or without. -/
  | wake (caller : κ) (timedOut : Bool) (now : ℕ)
  /-- Another operation is executed. -/
  | op (i : ι)

/-- What comes of it. -/
inductive Reply (α : Type u₃) (ο : Type u₅)
  /-- The loop is left with an answer. -/
  | answered (answer : α)
  /-- The caller goes to sleep. -/
  | asleep
  /-- The loop is left because the wait has timed out. -/
  | timeout
  /-- The result of another operation. -/
  | done (result : ο)
  /-- The event cannot happen in this state, and nothing does. -/
  | disabled
deriving DecidableEq, Repr

/-- The caller whose step an event is, if it is one of a caller. -/
def Event.caller? : Event ρ ι κ → Option κ
  | .call caller .. => some caller
  | .wake caller .. => some caller
  | .op _ => none

variable (M : Monitor σ ρ α ι ο)

/-- `notify_all`, in the state the operation has left behind. -/
def notifyAll (shared : σ) (waiting : κ → Option (Waiter ρ)) : κ → Option (Waiter ρ) :=
  fun caller => (waiting caller).map fun w =>
    { w with notified := true, offered := w.offered || M.ready shared w.request }

variable [DecidableEq κ]

/-- `caller` goes through the body of the loop once. -/
def look (s : State σ ρ κ) (caller : κ) (request : ρ) (deadline now : ℕ) :
    State σ ρ κ × Reply α ο :=
  match M.attempt s.shared request now with
  | (shared, some answer) =>
      ({ shared := shared, waiting := Function.update s.waiting caller none }, .answered answer)
  | (shared, none) =>
      ({ shared := shared
         waiting := Function.update s.waiting caller (some
           { request := request, deadline := deadline, notified := false, offered := false }) },
        .asleep)

/-- One event. -/
def step (s : State σ ρ κ) : Event ρ ι κ → State σ ρ κ × Reply α ο
  | .call caller request deadline now =>
      match s.waiting caller with
      | none => M.look s caller request deadline now
      | some _ => (s, .disabled)
  | .wake caller timedOut now =>
      match s.waiting caller with
      | none => (s, .disabled)
      | some w =>
          if timedOut then
            if w.deadline ≤ now then
              ({ s with waiting := Function.update s.waiting caller none }, .timeout)
            else (s, .disabled)
          else if w.notified then M.look s caller w.request w.deadline now
          else (s, .disabled)
  | .op i =>
      let r := M.exec s.shared i
      ({ shared := r.1
         waiting := if M.notifies s.shared i then M.notifyAll r.1 s.waiting else s.waiting },
        .done r.2)

variable (κ) in
/-- The machine of a monitor, with callers `κ`. -/
def machine : Machine (State σ ρ κ) (Event ρ ι κ) (Reply α ο) := ⟨M.step⟩

/-! ### What one event does -/

variable {M}

/-- **Every event** leaves the loop by a timeout, takes a pass through the loop for some caller, or
executes another operation; or it is disabled. -/
theorem next_cases (s : State σ ρ κ) (e : Event ρ ι κ) :
    ((M.machine κ).next s e = s ∧ (M.machine κ).out s e = .disabled) ∨
    (∃ caller w now, e = .wake caller true now ∧ s.waiting caller = some w ∧ w.deadline ≤ now ∧
      (M.machine κ).next s e = { s with waiting := Function.update s.waiting caller none } ∧
      (M.machine κ).out s e = .timeout) ∨
    (∃ caller request deadline now,
      (M.machine κ).next s e = (M.look s caller request deadline now).1 ∧
      (M.machine κ).out s e = (M.look s caller request deadline now).2) ∨
    (∃ i, e = .op i ∧ (M.machine κ).next s e =
      { shared := (M.exec s.shared i).1
        waiting := if M.notifies s.shared i then M.notifyAll (M.exec s.shared i).1 s.waiting
          else s.waiting } ∧
      (M.machine κ).out s e = .done (M.exec s.shared i).2) := by
  cases e with
  | call caller request deadline now =>
      cases hw : s.waiting caller with
      | none =>
          refine Or.inr (Or.inr (Or.inl ⟨caller, request, deadline, now, ?_⟩))
          simp only [Machine.next, Machine.out, machine, step, hw, and_self]
      | some w =>
          refine Or.inl ?_
          simp only [Machine.next, Machine.out, machine, step, hw, and_self]
  | wake caller timedOut now =>
      cases hw : s.waiting caller with
      | none =>
          refine Or.inl ?_
          simp only [Machine.next, Machine.out, machine, step, hw, and_self]
      | some w =>
          cases timedOut with
          | true =>
              by_cases hlate : w.deadline ≤ now
              · refine Or.inr (Or.inl ⟨caller, w, now, rfl, hw, hlate, ?_⟩)
                simp only [Machine.next, Machine.out, machine, step, hw, if_true, if_pos hlate,
                  and_self]
              · refine Or.inl ?_
                simp only [Machine.next, Machine.out, machine, step, hw, if_true, if_neg hlate,
                  and_self]
          | false =>
              cases hn : w.notified with
              | true =>
                  refine Or.inr (Or.inr (Or.inl ⟨caller, w.request, w.deadline, now, ?_⟩))
                  simp only [Machine.next, Machine.out, machine, step, hw, hn, Bool.false_eq_true,
                    if_false, if_true, and_self]
              | false =>
                  refine Or.inl ?_
                  simp only [Machine.next, Machine.out, machine, step, hw, hn, Bool.false_eq_true,
                    if_false, and_self]
  | op i => exact Or.inr (Or.inr (Or.inr ⟨i, rfl, rfl, rfl⟩))

/-- Only a wait that has timed out leaves the loop by a timeout. -/
theorem out_eq_timeout {s : State σ ρ κ} {e : Event ρ ι κ}
    (h : (M.machine κ).out s e = .timeout) :
    ∃ caller w now, e = .wake caller true now ∧ s.waiting caller = some w ∧ w.deadline ≤ now := by
  rcases next_cases (M := M) s e with ⟨-, hout⟩ | ⟨caller, w, now, he, hw, hlate, -⟩ |
    ⟨caller, request, deadline, now, -, hout⟩ | ⟨i, -, -, hout⟩
  · rw [hout] at h
    cases h
  · exact ⟨caller, w, now, he, hw, hlate⟩
  · rw [hout, look] at h
    split at h <;> cases h
  · rw [hout] at h
    cases h

/-- A pass through the loop, seen from the state behind the mutex. -/
theorem look_shared (s : State σ ρ κ) (caller : κ) (request : ρ) (deadline now : ℕ) :
    (M.look s caller request deadline now).1.shared = (M.attempt s.shared request now).1 := by
  unfold look
  split <;> simp only [*]

/-- A pass through the loop, seen from the sleeping callers: the others sleep on, and the one who
looked sleeps only if it got no answer. -/
theorem look_waiting {s : State σ ρ κ} {caller : κ} {request : ρ} {deadline now : ℕ}
    {other : κ} {w : Waiter ρ}
    (h : (M.look s caller request deadline now).1.waiting other = some w) :
    s.waiting other = some w ∨
      (other = caller ∧ w.request = request ∧ (M.attempt s.shared request now).2 = none) := by
  unfold look at h
  by_cases hother : other = caller
  · subst hother
    split at h
    next shared answer heq =>
      simp only [Function.update_self] at h
      cases h
    next shared heq =>
      simp only [Function.update_self, Option.some.injEq] at h
      exact Or.inr ⟨rfl, by rw [← h], by rw [heq]⟩
  · split at h
    · exact Or.inl (by simpa only [Function.update_of_ne hother] using h)
    · exact Or.inl (by simpa only [Function.update_of_ne hother] using h)

/-- **An answer is what a pass through the loop has found**, for the request of the caller, at its
call or when it has been woken. -/
theorem out_eq_answered {s : State σ ρ κ} {e : Event ρ ι κ} {answer : α}
    (h : (M.machine κ).out s e = .answered answer) :
    ∃ caller request now, e.caller? = some caller ∧
      ((∃ deadline, e = .call caller request deadline now) ∨
        e = .wake caller false now ∧ ∃ w, s.waiting caller = some w ∧ w.request = request) ∧
      (M.attempt s.shared request now).2 = some answer := by
  have hlook {caller : κ} {request : ρ} {deadline now : ℕ}
      (hout : (M.look s caller request deadline now).2 = .answered answer) :
      (M.attempt s.shared request now).2 = some answer := by
    unfold look at hout
    split at hout
    next shared answer' heq =>
      cases hout
      rw [heq]
    next => cases hout
  cases e with
  | call caller request deadline now =>
      cases hw : s.waiting caller with
      | none =>
          simp only [Machine.out, machine, step, hw] at h
          exact ⟨caller, request, now, rfl, Or.inl ⟨deadline, rfl⟩, hlook h⟩
      | some w =>
          simp only [Machine.out, machine, step, hw] at h
          cases h
  | wake caller timedOut now =>
      cases hw : s.waiting caller with
      | none =>
          simp only [Machine.out, machine, step, hw] at h
          cases h
      | some w =>
          simp only [Machine.out, machine, step, hw] at h
          cases timedOut with
          | true =>
              rw [if_pos rfl] at h
              split at h
              · cases h
              · cases h
          | false =>
              rw [if_neg Bool.false_ne_true] at h
              split at h
              · exact ⟨caller, w.request, now, rfl, Or.inr ⟨rfl, w, hw, rfl⟩, hlook h⟩
              · cases h
  | op i => cases h

/-- A caller sleeps with the request it called with. -/
theorem waiting_next {s : State σ ρ κ} {e : Event ρ ι κ} {k : κ} {w : Waiter ρ}
    (h : ((M.machine κ).next s e).waiting k = some w) :
    (∃ w₀, s.waiting k = some w₀ ∧ w₀.request = w.request) ∨
      ∃ deadline now, e = .call k w.request deadline now := by
  cases e with
  | call caller request deadline now =>
      change (M.step s (.call caller request deadline now)).1.waiting k = some w at h
      simp only [step] at h
      split at h
      · rcases look_waiting h with hold | ⟨rfl, hreq, -⟩
        · exact Or.inl ⟨w, hold, rfl⟩
        · exact Or.inr ⟨deadline, now, by rw [hreq]⟩
      · exact Or.inl ⟨w, h, rfl⟩
  | wake caller timedOut now =>
      refine Or.inl ?_
      change (M.step s (.wake caller timedOut now)).1.waiting k = some w at h
      simp only [step] at h
      split at h
      · exact ⟨w, h, rfl⟩
      next w₀ hw₀ =>
        split at h
        · split at h
          · by_cases hk : k = caller
            · rw [hk] at h
              simp only [Function.update_self] at h
              cases h
            · simp only [Function.update_of_ne hk] at h
              exact ⟨w, h, rfl⟩
          · exact ⟨w, h, rfl⟩
        · split at h
          · rcases look_waiting h with hold | ⟨rfl, hreq, -⟩
            · exact ⟨w, hold, rfl⟩
            · exact ⟨w₀, hw₀, hreq.symm⟩
          · exact ⟨w, h, rfl⟩
  | op i =>
      refine Or.inl ?_
      change (if M.notifies s.shared i then M.notifyAll (M.exec s.shared i).1 s.waiting
        else s.waiting) k = some w at h
      split at h
      · obtain ⟨w₀, hw₀, rfl⟩ := Option.map_eq_some_iff.1 h
        exact ⟨w₀, hw₀, rfl⟩
      · exact ⟨w, h, rfl⟩

/-! ### Lost wake-ups -/

variable (M) in
/-- The waiting loop is fair to the others: a caller goes to sleep only if its request cannot be
served, and a pass through the loop makes no request servable. -/
structure FairLoop : Prop where
  asleep : ∀ s request now, (M.attempt s request now).2 = none →
    M.ready (M.attempt s request now).1 request = false
  others : ∀ s request now request', M.ready s request' = false →
    M.ready (M.attempt s request now).1 request' = false

/-- A sleeping caller that has been offered nothing has nothing to gain. -/
def Settled (M : Monitor σ ρ α ι ο) (s : State σ ρ κ) : Prop :=
  ∀ caller w, s.waiting caller = some w → w.offered = false → M.ready s.shared w.request = false

/-- An operation that cannot go unheard: it notifies, or it makes no request of a sleeping caller
servable. -/
def Attentive (M : Monitor σ ρ α ι ο) (s : State σ ρ κ) (i : ι) : Prop :=
  M.notifies s.shared i = true ∨
    ∀ caller w, s.waiting caller = some w → w.offered = false →
      M.ready s.shared w.request = false → M.ready (M.exec s.shared i).1 w.request = false

/-- **One step keeps the sleeping callers settled**, if no operation goes unheard. -/
theorem settled_next (hloop : M.FairLoop) {s : State σ ρ κ} {e : Event ρ ι κ}
    (hop : ∀ i, e = .op i → M.Attentive s i) (h : M.Settled s) :
    M.Settled ((M.machine κ).next s e) := by
  rcases next_cases (M := M) s e with ⟨hnext, -⟩ | ⟨caller, w, now, -, -, -, hnext, -⟩ |
    ⟨caller, request, deadline, now, hnext, -⟩ | ⟨i, rfl, hnext, -⟩
  · rw [hnext]
    exact h
  · rw [hnext]
    intro other w' hw' hoff
    by_cases hother : other = caller
    · rw [hother] at hw'
      simp only [Function.update_self] at hw'
      cases hw'
    · simp only [Function.update_of_ne hother] at hw'
      exact h other w' hw' hoff
  · rw [hnext]
    intro other w' hw' hoff
    rw [look_shared]
    rcases look_waiting hw' with hold | ⟨-, hreq, hnone⟩
    · exact hloop.others _ _ _ _ (h other w' hold hoff)
    · rw [hreq]
      exact hloop.asleep _ _ _ hnone
  · rw [hnext]
    intro other w' hw' hoff
    change M.ready (M.exec s.shared i).1 w'.request = false
    change (if M.notifies s.shared i then M.notifyAll (M.exec s.shared i).1 s.waiting
      else s.waiting) other = some w' at hw'
    split at hw'
    next hnot =>
      -- the caller was notified, and `offered` says that there was nothing for it
      obtain ⟨w, -, rfl⟩ := Option.map_eq_some_iff.1 hw'
      exact (Bool.or_eq_false_iff.1 hoff).2
    next hnot =>
      rcases hop i rfl with hyes | hkeep
      · exact absurd hyes hnot
      · exact hkeep other w' hw' hoff (h other w' hw' hoff)

/-- **No lost wake-up.**  In a run in which no operation goes unheard, a wait that times out without
an offer leaves a request that cannot be served. -/
theorem not_ready_of_timeout (hloop : M.FairLoop) {C : State σ ρ κ → Event ρ ι κ → Prop}
    (hop : ∀ s i, C s (.op i) → M.Attentive s i)
    (hwake : ∀ s caller now w, C s (.wake caller true now) → s.waiting caller = some w →
      w.offered = false)
    {s₀ : State σ ρ κ} (h₀ : M.Settled s₀) {pre post : List (Event ρ ι κ)} {e : Event ρ ι κ}
    (hC : (M.machine κ).Along C s₀ (pre ++ e :: post))
    (hout : (M.machine κ).out ((M.machine κ).run s₀ pre) e = .timeout) :
    ∃ caller w now, e = .wake caller true now ∧
      ((M.machine κ).run s₀ pre).waiting caller = some w ∧
      M.ready ((M.machine κ).run s₀ pre).shared w.request = false := by
  obtain ⟨hpre, he, -⟩ := Machine.along_append.1 hC
  have hsettled : M.Settled ((M.machine κ).run s₀ pre) := by
    refine Machine.run_invariant_along (C := C) (fun s e hCe hs => ?_) h₀ hpre
    exact settled_next hloop (fun i hi => hop s i (hi ▸ hCe)) hs
  obtain ⟨caller, w, now, rfl, hw, -⟩ := out_eq_timeout hout
  exact ⟨caller, w, now, rfl, hw, hsettled caller w hw (hwake _ _ _ _ he hw)⟩

/-! ### Waits with a predicate -/

/-- What a thread in `cv.wait_for(lock, timeout, predicate)` does once it has the mutex. -/
inductive WaitOutcome
  /-- The wait is over and returns `true`. -/
  | satisfied
  /-- The wait is over and returns `false`. -/
  | timedOut
  /-- The thread goes to sleep, for the first time or again. -/
  | asleep
deriving DecidableEq, Repr

/-- `cv.wait_for(lock, timeout, predicate)`, at the call and at every end of a sleep, be it after a
notification, spurious, or because the deadline has passed (`timedOut`). -/
def waitFor (predicate : Bool) (deadline now : ℕ) (timedOut : Bool) : WaitOutcome :=
  if predicate then .satisfied
  else if timedOut && decide (deadline ≤ now) then .timedOut
  else .asleep

theorem waitFor_eq_satisfied {predicate : Bool} {deadline now : ℕ} {timedOut : Bool} :
    waitFor predicate deadline now timedOut = .satisfied ↔ predicate = true := by
  cases predicate with
  | true => simp [waitFor]
  | false =>
      simp only [waitFor, Bool.false_eq_true, if_false, iff_false]
      split <;> simp

end Monitor
