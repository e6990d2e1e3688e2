/-
**The quota of a machine, from both sides.**

The daemon keeps the process ids that it has permitted to preprocess or compile, and bounds their
number.  That bounds the work on the machine only if whoever works is in the set.  A client asks
with `TryAcquireTaskQuota`, works while it holds the object it was given, and says so when that is
destroyed.  Each of these is a call over HTTP, and the client waits five seconds for the answer.  A
call that has been given up may still be carried out: the daemon lets a client in that has stopped
waiting, or takes the permission away from one that has got another since.

This module runs the clients of a machine with its daemon.  Processes start and end at any time, and
a process id may be used again.  `ms_to_wait` is `timeout / 1s`, so the daemon waits ten
milliseconds where the client means ten seconds.  `IsAliveProc` is taken to be right: that it
answers no when the status file cannot be opened, and aborts when the file has no `State` line, is
left out.

Main definitions:

* `Quota.Workstation`, `Quota.workstation` — clients, daemon and calls, as a machine;
* `Quota.Entitled` — a client that works, or is about to be told that it may;
* `Quota.Stale` — a release arrives that its client has given up on;
* `Quota.Starved` — permissions are with clients that do not know of them, and leave no room.

Main results:

* `Quota.sound_run` — every call is in one place;
* `Quota.entitled_permitted_iff` — **when whoever works is in the set**;
* `Quota.work_bounded` — **the work on a machine is bounded** if no release is given up on;
* `Quota.starved_forever` — **an answer that is lost may lock everyone out**.
-/

import Distribuild.LocalHttpService

set_option relaxedAutoImplicit false
set_option autoImplicit false

namespace Quota

open Local (Pid QuotaState QuotaEvent QuotaReply QuotaRequest HttpStatus TaskMonitor quotaMachine
  WithinLimits)
open Scheduler (TimePoint ms)

/-! ### Clients and daemon -/

/-- How far a process has come with its quota.  It asks for one at a time. -/
inductive Phase
  /-- It has none, and needs none at present. -/
  | without
  /-- In the call `/local/acquire_quota`. -/
  | acquiring (call : ℕ)
  /-- It has the object that `TryAcquireTaskQuota` returns. -/
  | holding
  /-- In the call `/local/release_quota`. -/
  | releasing (call : ℕ)
deriving DecidableEq, Repr

/-- What is on its way between a client and the daemon.  Calls are numbered. -/
inductive Message
  | acquire (call : ℕ) (requestorPid : Pid) (lightweight : Bool)
  | release (call : ℕ) (requestorPid : Pid)
  | reply (call : ℕ) (requestorPid : Pid) (status : HttpStatus)
deriving DecidableEq, Repr

def Message.call : Message → ℕ
  | .acquire call _ _ => call
  | .release call _ => call
  | .reply call _ _ => call

/-- A machine with its daemon. -/
structure Workstation where
  daemon : QuotaState
  /-- The processes there are. -/
  clients : Pid → Option Phase := fun _ => none
  inFlight : List Message := []
  /-- The calls there have been. -/
  calls : ℕ := 0

inductive Event
  /-- A process starts. -/
  | start (pid : Pid)
  /-- It ends, wherever it is. -/
  | exit (pid : Pid)
  /-- `TryAcquireTaskQuota` makes its call. -/
  | tryAcquire (pid : Pid) (lightweight : Bool)
  /-- The object is destroyed, and `ReleaseTaskQuota` makes its call. -/
  | release (pid : Pid)
  /-- `DaemonHttpCall` returns without a response. -/
  | giveUp (pid : Pid)
  /-- The `i`-th message arrives. -/
  | deliver (i : ℕ) (now : TimePoint)
  /-- The `i`-th message never arrives. -/
  | lose (i : ℕ)
  /-- A thread of the daemon that serves a call wakes up. -/
  | wake (call : ℕ) (timedOut : Bool) (now : TimePoint)
  /-- Every process is found under `/proc` exactly if it is there. -/
  | onTimerCheckAliveProc
deriving DecidableEq, Repr

namespace Workstation

def setClient (w : Workstation) (pid : Pid) (phase : Option Phase) : Workstation :=
  { w with clients := Function.update w.clients pid phase }

def send (w : Workstation) (messages : List Message) : Workstation :=
  { w with inFlight := w.inFlight ++ messages }

/-- What `AcquireQuota` answers once `WaitForNewTask` has returned. -/
def acquired (call : ℕ) : QuotaReply → List Message
  | .returned pid true => [.reply call pid .ok]
  | .returned pid false => [.reply call pid .serviceUnavailable]
  | _ => []

/-- The monitor does something for a call. -/
def onDaemon (w : Workstation) (call : ℕ) (e : QuotaEvent) : Workstation :=
  { w with daemon := quotaMachine.next w.daemon e }.send
    (acquired call (quotaMachine.out w.daemon e))

/-- What the request for a permission asks of the monitor. -/
def request (requestorPid : Pid) (lightweight : Bool) (now : TimePoint) : QuotaRequest where
  pid := requestorPid
  lightweight := lightweight
  deadline := now + ms 10

/-- The client that waits for this answer takes it. -/
def receiveReply (w : Workstation) (call : ℕ) (requestorPid : Pid) (status : HttpStatus) :
    Workstation :=
  match w.clients requestorPid with
  | some (.acquiring call') =>
      if call' = call then
        w.setClient requestorPid (some (if status = .ok then .holding else .without))
      else w
  | some (.releasing call') =>
      if call' = call then w.setClient requestorPid (some .without) else w
  | _ => w

def receive (w : Workstation) (now : TimePoint) : Message → Workstation
  | .acquire call requestorPid lightweight =>
      w.onDaemon call (.waitForNewTask call (request requestorPid lightweight now))
  | .release call requestorPid =>
      { w with daemon := quotaMachine.next w.daemon (.dropTask requestorPid) }.send
        [.reply call requestorPid .ok]
  | .reply call requestorPid status => w.receiveReply call requestorPid status

end Workstation

def step (w : Workstation) : Event → Workstation
  | .start pid =>
      match w.clients pid with
      | none => w.setClient pid (some .without)
      | some _ => w
  | .exit pid => w.setClient pid none
  | .tryAcquire pid lightweight =>
      match w.clients pid with
      | some .without =>
          ({ w with calls := w.calls + 1 }.setClient pid (some (.acquiring w.calls))).send
            [.acquire w.calls pid lightweight]
      | _ => w
  | .release pid =>
      match w.clients pid with
      | some .holding =>
          ({ w with calls := w.calls + 1 }.setClient pid (some (.releasing w.calls))).send
            [.release w.calls pid]
      | _ => w
  | .giveUp pid =>
      match w.clients pid with
      | some (.acquiring _) => w.setClient pid (some .without)
      | some (.releasing _) => w.setClient pid (some .without)
      | _ => w
  | .deliver i now =>
      match w.inFlight[i]? with
      | none => w
      | some message => { w with inFlight := w.inFlight.eraseIdx i }.receive now message
  | .lose i => { w with inFlight := w.inFlight.eraseIdx i }
  | .wake call timedOut now => w.onDaemon call (.wake call timedOut now)
  | .onTimerCheckAliveProc =>
      { w with
        daemon := quotaMachine.next w.daemon
          (.onTimerCheckAliveProc fun pid => (w.clients pid).isSome) }

/-- **Clients and daemon as a machine.** -/
def workstation : Machine Workstation Event Unit := ⟨fun w e => (step w e, ())⟩

/-- The daemon has just been started, and there are no clients. -/
def Workstation.init (maxConcurrency : Int32) (hardwareConcurrency : UInt32) : Workstation where
  daemon := .init maxConcurrency hardwareConcurrency

/-! ### Who is entitled to work -/

/-- The process works, or the answer that lets it do so is on its way. -/
def Entitled (w : Workstation) (pid : Pid) : Prop :=
  w.clients pid = some .holding ∨
    ∃ call, w.clients pid = some (.acquiring call) ∧ .reply call pid .ok ∈ w.inFlight

/-- Whoever is entitled to work has a permission. -/
def Permitted (w : Workstation) : Prop :=
  ∀ pid, Entitled w pid → pid ∈ w.daemon.monitor.permissionsGranted

/-- A release arrives, and its process is entitled to work. -/
def Stale (w : Workstation) : Event → Prop
  | .deliver i _ => ∃ call pid, w.inFlight[i]? = some (.release call pid) ∧ Entitled w pid
  | _ => False

/-! ### Every call is in one place -/

/-- Every call is in one place, a message or a thread of the daemon that sleeps, and is either for a
permission or for a release. -/
structure Sound (w : Workstation) : Prop where
  inFlight_lt : ∀ message ∈ w.inFlight, message.call < w.calls
  waiting_lt : ∀ call, w.daemon.waiting call ≠ none → call < w.calls
  nodup : (w.inFlight.map Message.call).Nodup
  waiting : ∀ call, w.daemon.waiting call ≠ none → call ∉ w.inFlight.map Message.call
  acquiring : ∀ pid call, w.clients pid = some (.acquiring call) →
    call < w.calls ∧ ∀ other, .release call other ∉ w.inFlight

/-- A thread that looks has returned, or sleeps; the others are where they were. -/
theorem look_waiting (s : QuotaState) (call : ℕ) (r : QuotaRequest) (timedOut : Bool)
    (now : TimePoint) :
    (∀ other, other ≠ call → (s.look call r timedOut now).1.waiting other = s.waiting other) ∧
      (Workstation.acquired call (s.look call r timedOut now).2 ≠ [] →
        (s.look call r timedOut now).1.waiting call = none) := by
  unfold QuotaState.look
  split
  · exact ⟨fun other hne => Function.update_of_ne hne .., fun _ => Function.update_self ..⟩
  · exact ⟨fun other hne => Function.update_of_ne hne .., fun _ => Function.update_self ..⟩
  · exact ⟨fun other hne => Function.update_of_ne hne .., fun h => absurd rfl h⟩

/-- The same for the two events in which a thread looks. -/
theorem next_waiting (s : QuotaState) (call : ℕ) {e : QuotaEvent}
    (he : (∃ r, e = .waitForNewTask call r) ∨ ∃ timedOut now, e = .wake call timedOut now) :
    (∀ other, other ≠ call → (quotaMachine.next s e).waiting other = s.waiting other) ∧
      (Workstation.acquired call (quotaMachine.out s e) ≠ [] →
        (quotaMachine.next s e).waiting call = none) := by
  rcases he with ⟨r, rfl⟩ | ⟨timedOut, now, rfl⟩
  · simp only [Machine.next, Machine.out, quotaMachine, Local.quotaStep]
    split
    · exact look_waiting ..
    · exact ⟨fun _ _ => rfl, fun h => absurd rfl h⟩
  · simp only [Machine.next, Machine.out, quotaMachine, Local.quotaStep]
    split
    · exact ⟨fun _ _ => rfl, fun h => absurd rfl h⟩
    · exact look_waiting ..

/-- No thread wakes up where none sleeps. -/
theorem Workstation.onDaemon_wake (w : Workstation) {call : ℕ} (h : w.daemon.waiting call = none)
    (timedOut : Bool) (now : TimePoint) : w.onDaemon call (.wake call timedOut now) = w := by
  have hstep : quotaMachine.step w.daemon (.wake call timedOut now) = (w.daemon, .disabled) := by
    simp only [quotaMachine, Local.quotaStep, h]
  simp only [Workstation.onDaemon, Workstation.send, Machine.next, Machine.out, hstep,
    Workstation.acquired, List.append_nil]

/-- The answers to a call are about the call. -/
theorem call_of_mem_acquired {call : ℕ} {reply : QuotaReply} {message : Message}
    (h : message ∈ Workstation.acquired call reply) :
    message.call = call ∧ (Workstation.acquired call reply) = [message] := by
  unfold Workstation.acquired at h ⊢
  split at h
  · exact ⟨by rw [List.mem_singleton.1 h]; rfl, by rw [List.mem_singleton.1 h]⟩
  · exact ⟨by rw [List.mem_singleton.1 h]; rfl, by rw [List.mem_singleton.1 h]⟩
  · cases h

theorem not_mem_acquired {call call' : ℕ} {pid : Pid} {reply : QuotaReply} :
    .release call' pid ∉ Workstation.acquired call reply := by
  unfold Workstation.acquired
  split
  · exact fun h => by cases List.mem_singleton.1 h
  · exact fun h => by cases List.mem_singleton.1 h
  · exact List.not_mem_nil

theorem Workstation.mem_of_mem_send {w : Workstation} {m message : Message}
    (h : m ∈ (w.send [message]).inFlight) (hne : m ≠ message) : m ∈ w.inFlight := by
  rcases List.mem_append.1 h with hold | hnew
  · exact hold
  · exact absurd (List.mem_singleton.1 hnew) hne

/-- An answer is taken by one process, or by none. -/
theorem Workstation.receiveReply_cases (w : Workstation) (call : ℕ) (pid : Pid)
    (status : HttpStatus) :
    w.receiveReply call pid status = w ∨
      ∃ phase, w.receiveReply call pid status = w.setClient pid (some phase) := by
  rw [Workstation.receiveReply]
  split
  · split
    · exact Or.inr ⟨_, rfl⟩
    · exact Or.inl rfl
  · split
    · exact Or.inr ⟨_, rfl⟩
    · exact Or.inl rfl
  · exact Or.inl rfl

namespace Sound

variable {w : Workstation}

/-- A process goes on to something else than asking. -/
theorem setClient (h : Sound w) (pid : Pid) {phase : Option Phase}
    (hphase : ∀ call, phase ≠ some (.acquiring call)) : Sound (w.setClient pid phase) where
  inFlight_lt := h.inFlight_lt
  waiting_lt := h.waiting_lt
  nodup := h.nodup
  waiting := h.waiting
  acquiring := by
    intro other call hother
    simp only [Workstation.setClient, Function.update_apply] at hother
    split at hother
    · exact absurd hother (hphase call)
    · exact h.acquiring other call hother

/-- A new call. -/
theorem newCall (h : Sound w) (pid : Pid) {phase : Phase} {message : Message}
    (hcall : message.call = w.calls)
    (hphase : ∀ call, phase = .acquiring call →
      call = w.calls ∧ ∀ other, message ≠ .release call other) :
    Sound (({ w with calls := w.calls + 1 }.setClient pid (some phase)).send [message]) where
  inFlight_lt := by
    intro m hm
    rcases List.mem_append.1 hm with hold | hnew
    · exact Nat.lt_succ_of_lt (h.inFlight_lt m hold)
    · rw [List.mem_singleton.1 hnew, hcall]
      exact Nat.lt_succ_self _
  waiting_lt call hwaiting := Nat.lt_succ_of_lt (h.waiting_lt call hwaiting)
  nodup := by
    simp only [Workstation.send, Workstation.setClient, List.map_append, List.map_singleton]
    refine List.nodup_append.2 ⟨h.nodup, List.nodup_singleton _, ?_⟩
    rintro a hmem b hb rfl
    rw [List.mem_singleton.1 hb, hcall] at hmem
    obtain ⟨m, hm, heq⟩ := List.mem_map.1 hmem
    exact absurd (h.inFlight_lt m hm) (by rw [heq]; exact Nat.lt_irrefl _)
  waiting := by
    intro call hwaiting hmem
    simp only [Workstation.send, Workstation.setClient, List.map_append, List.map_singleton] at hmem
    rcases List.mem_append.1 hmem with hold | hnew
    · exact h.waiting call hwaiting hold
    · have hlt := h.waiting_lt call hwaiting
      rw [List.mem_singleton.1 hnew, hcall] at hlt
      exact absurd hlt (Nat.lt_irrefl _)
  acquiring := by
    intro asker call hasker
    simp only [Workstation.send, Workstation.setClient, Function.update_apply] at hasker
    split at hasker
    · obtain ⟨rfl, hrelease⟩ := hphase call (Option.some_inj.1 hasker)
      refine ⟨Nat.lt_succ_self _, fun other hmem => ?_⟩
      rcases List.mem_append.1 hmem with hold | hnew
      · exact absurd (h.inFlight_lt _ hold) (Nat.lt_irrefl _)
      · exact hrelease other (List.mem_singleton.1 hnew).symm
    · obtain ⟨hlt, hnone⟩ := h.acquiring asker call hasker
      refine ⟨Nat.lt_succ_of_lt hlt, fun other hmem => ?_⟩
      rcases List.mem_append.1 hmem with hold | hnew
      · exact hnone other hold
      · rw [← List.mem_singleton.1 hnew] at hcall
        exact absurd hlt (by rw [← hcall]; exact Nat.lt_irrefl _)

/-- A message has been taken. -/
theorem taken (h : Sound w) (i : ℕ) : Sound { w with inFlight := w.inFlight.eraseIdx i } where
  inFlight_lt m hm := h.inFlight_lt m (List.mem_of_mem_eraseIdx hm)
  waiting_lt := h.waiting_lt
  nodup := by
    rw [← List.eraseIdx_map]
    exact h.nodup.eraseIdx i
  waiting := by
    intro call hwaiting hmem
    rw [← List.eraseIdx_map] at hmem
    exact h.waiting call hwaiting (List.mem_of_mem_eraseIdx hmem)
  acquiring := by
    intro pid call hpid
    obtain ⟨hlt, hnone⟩ := h.acquiring pid call hpid
    exact ⟨hlt, fun other hmem => hnone other (List.mem_of_mem_eraseIdx hmem)⟩

/-- The call of a message that has been taken is nowhere else. -/
theorem call_taken (h : Sound w) {i : ℕ} {message : Message}
    (hget : w.inFlight[i]? = some message) :
    message.call < w.calls ∧ message.call ∉ (w.inFlight.eraseIdx i).map Message.call ∧
      w.daemon.waiting message.call = none := by
  have hmem := List.mem_of_getElem? hget
  refine ⟨h.inFlight_lt message hmem, ?_, ?_⟩
  · obtain ⟨hlt, rfl⟩ := List.getElem?_eq_some_iff.1 hget
    have hperm := (List.getElem_cons_eraseIdx_perm hlt).map Message.call
    exact (List.nodup_cons.1 (hperm.nodup_iff.2 h.nodup)).1
  · by_contra hwaiting
    exact h.waiting message.call hwaiting (List.mem_map_of_mem hmem)

/-- The monitor does something for a call that is in no message. -/
theorem onDaemon (h : Sound w) {call : ℕ} (hcall : call < w.calls)
    (hfree : call ∉ w.inFlight.map Message.call) {e : QuotaEvent}
    (hothers : ∀ other, other ≠ call →
      (quotaMachine.next w.daemon e).waiting other = w.daemon.waiting other)
    (hanswered : Workstation.acquired call (quotaMachine.out w.daemon e) ≠ [] →
      (quotaMachine.next w.daemon e).waiting call = none) : Sound (w.onDaemon call e) where
  inFlight_lt := by
    intro m hm
    rcases List.mem_append.1 hm with hold | hnew
    · exact h.inFlight_lt m hold
    · rw [(call_of_mem_acquired hnew).1]
      exact hcall
  waiting_lt := by
    intro other hwaiting
    by_cases hother : other = call
    · rw [hother]
      exact hcall
    · refine h.waiting_lt other ?_
      rw [← hothers other hother]
      exact hwaiting
  nodup := by
    rw [Workstation.onDaemon, Workstation.send, List.map_append]
    cases hout : Workstation.acquired call (quotaMachine.out w.daemon e) with
    | nil =>
        rw [List.map_nil, List.append_nil]
        exact h.nodup
    | cons m rest =>
        obtain ⟨hm, heq⟩ := call_of_mem_acquired (hout ▸ List.mem_cons_self :
          m ∈ Workstation.acquired call (quotaMachine.out w.daemon e))
        rw [← hout, heq, List.map_singleton]
        refine List.nodup_append.2 ⟨h.nodup, List.nodup_singleton _, ?_⟩
        rintro a hmem b hb rfl
        rw [List.mem_singleton.1 hb, hm] at hmem
        exact hfree hmem
  waiting := by
    intro other hwaiting hmem
    rw [Workstation.onDaemon, Workstation.send, List.map_append] at hmem
    by_cases hother : other = call
    · subst hother
      rcases List.mem_append.1 hmem with hold | hnew
      · exact hfree hold
      · obtain ⟨m, hm, -⟩ := List.mem_map.1 hnew
        refine hwaiting (hanswered fun hnil => ?_)
        rw [hnil] at hm
        cases hm
    · rcases List.mem_append.1 hmem with hold | hnew
      · refine h.waiting other ?_ hold
        rw [← hothers other hother]
        exact hwaiting
      · obtain ⟨m, hm, rfl⟩ := List.mem_map.1 hnew
        exact hother (call_of_mem_acquired hm).1
  acquiring := by
    intro pid call' hpid
    obtain ⟨hlt, hnone⟩ := h.acquiring pid call' hpid
    refine ⟨hlt, fun other hmem => ?_⟩
    rcases List.mem_append.1 hmem with hold | hnew
    · exact hnone other hold
    · exact not_mem_acquired hnew

/-- The daemon answers a call that is in no message and has no thread. -/
theorem reply (h : Sound w) {call : ℕ} (hcall : call < w.calls)
    (hfree : call ∉ w.inFlight.map Message.call) (hwaiting : w.daemon.waiting call = none)
    (pid : Pid) (status : HttpStatus) : Sound (w.send [.reply call pid status]) where
  inFlight_lt := by
    intro m hm
    rcases List.mem_append.1 hm with hold | hnew
    · exact h.inFlight_lt m hold
    · rw [List.mem_singleton.1 hnew]
      exact hcall
  waiting_lt := h.waiting_lt
  nodup := by
    rw [Workstation.send, List.map_append, List.map_singleton]
    refine List.nodup_append.2 ⟨h.nodup, List.nodup_singleton _, ?_⟩
    rintro a hmem b hb rfl
    rw [List.mem_singleton.1 hb] at hmem
    exact hfree hmem
  waiting := by
    intro other hother hmem
    rw [Workstation.send, List.map_append, List.map_singleton] at hmem
    rcases List.mem_append.1 hmem with hold | hnew
    · exact h.waiting other hother hold
    · rw [List.mem_singleton.1 hnew] at hother
      exact hother hwaiting
  acquiring := by
    intro asker call' hasker
    obtain ⟨hlt, hnone⟩ := h.acquiring asker call' hasker
    refine ⟨hlt, fun other hmem => ?_⟩
    rcases List.mem_append.1 hmem with hold | hnew
    · exact hnone other hold
    · cases List.mem_singleton.1 hnew

/-- A process takes an answer. -/
theorem receiveReply (h : Sound w) (call : ℕ) (pid : Pid) (status : HttpStatus) :
    Sound (w.receiveReply call pid status) := by
  rw [Workstation.receiveReply]
  split
  · split
    · refine h.setClient pid fun call heq => ?_
      split at heq
      · cases heq
      · cases heq
    · exact h
  · split
    · exact h.setClient pid fun call heq => by cases heq
    · exact h
  · exact h

end Sound

/-- **One step** leaves every call in one place. -/
theorem sound_step {w : Workstation} (h : Sound w) (e : Event) : Sound (step w e) := by
  cases e with
  | start pid =>
      simp only [step]
      split
      · exact h.setClient pid fun call heq => by cases heq
      · exact h
  | exit pid => exact h.setClient pid fun call heq => by cases heq
  | tryAcquire pid lightweight =>
      simp only [step]
      split
      · refine h.newCall pid rfl fun call heq => ?_
        cases heq
        exact ⟨rfl, fun other hmessage => by cases hmessage⟩
      · exact h
  | release pid =>
      simp only [step]
      split
      · exact h.newCall pid rfl fun call heq => by cases heq
      · exact h
  | giveUp pid =>
      simp only [step]
      split
      · exact h.setClient pid fun call heq => by cases heq
      · exact h.setClient pid fun call heq => by cases heq
      · exact h
  | deliver i now =>
      simp only [step]
      split
      · exact h
      next message hget =>
        obtain ⟨hlt, hfree, hwaiting⟩ := h.call_taken hget
        cases message with
        | acquire call pid lightweight =>
            obtain ⟨hothers, hanswered⟩ := next_waiting w.daemon call
              (Or.inl ⟨Workstation.request pid lightweight now, rfl⟩)
            exact (h.taken i).onDaemon hlt hfree hothers hanswered
        | release call pid =>
            have htaken := h.taken i
            have hdropped : Sound { { w with inFlight := w.inFlight.eraseIdx i } with
                daemon := quotaMachine.next w.daemon (.dropTask pid) } :=
              ⟨htaken.inFlight_lt, htaken.waiting_lt, htaken.nodup, htaken.waiting,
                htaken.acquiring⟩
            exact hdropped.reply hlt hfree hwaiting pid .ok
        | reply call pid status => exact (h.taken i).receiveReply call pid status
  | lose i => exact h.taken i
  | wake call timedOut now =>
      cases hwaiting : w.daemon.waiting call with
      | none =>
          simp only [step, w.onDaemon_wake hwaiting]
          exact h
      | some r =>
          have hsome : w.daemon.waiting call ≠ none := by
            rw [hwaiting]
            exact Option.some_ne_none r
          obtain ⟨hothers, hanswered⟩ := next_waiting w.daemon call
            (Or.inr ⟨timedOut, now, rfl⟩)
          exact h.onDaemon (h.waiting_lt call hsome) (h.waiting call hsome) hothers hanswered
  | onTimerCheckAliveProc => exact ⟨h.inFlight_lt, h.waiting_lt, h.nodup, h.waiting, h.acquiring⟩

/-! ### When whoever works is in the set -/

/-- The permissions of the daemon. -/
abbrev Workstation.permissions (w : Workstation) : Finset Pid :=
  w.daemon.monitor.permissionsGranted

/-- A thread that looks takes no permission away, and whoever is let in has one. -/
theorem next_permissions (s : QuotaState) {call : ℕ} {e : QuotaEvent}
    (he : (∃ r, e = .waitForNewTask call r) ∨ ∃ timedOut now, e = .wake call timedOut now) :
    s.monitor.permissionsGranted ⊆ (quotaMachine.next s e).monitor.permissionsGranted ∧
      ∀ call' pid, .reply call' pid .ok ∈ Workstation.acquired call (quotaMachine.out s e) →
        pid ∈ (quotaMachine.next s e).monitor.permissionsGranted := by
  have hlook : ∀ r timedOut now,
      s.monitor.permissionsGranted ⊆ (s.look call r timedOut now).1.monitor.permissionsGranted ∧
        ∀ call' pid, .reply call' pid .ok ∈
            Workstation.acquired call (s.look call r timedOut now).2 →
          pid ∈ (s.look call r timedOut now).1.monitor.permissionsGranted := by
    intro r timedOut now
    rcases s.look_cases call r timedOut now with ⟨-, hm, hout⟩ | ⟨hm, hout | hout⟩
    · rw [hm, hout]
      refine ⟨fun pid hpid => TaskMonitor.mem_grant.2 (Or.inr hpid), fun call' pid hmem => ?_⟩
      cases List.mem_singleton.1 hmem
      exact TaskMonitor.mem_grant.2 (Or.inl rfl)
    · rw [hm, hout]
      exact ⟨Finset.Subset.refl _, fun call' pid hmem => by cases hmem⟩
    · rw [hm, hout]
      exact ⟨Finset.Subset.refl _, fun call' pid hmem => by cases List.mem_singleton.1 hmem⟩
  rcases he with ⟨r, rfl⟩ | ⟨timedOut, now, rfl⟩
  · simp only [Machine.next, Machine.out, quotaMachine, Local.quotaStep]
    split
    · exact hlook r false 0
    · exact ⟨Finset.Subset.refl _, fun call' pid hmem => by cases hmem⟩
  · simp only [Machine.next, Machine.out, quotaMachine, Local.quotaStep]
    split
    · exact ⟨Finset.Subset.refl _, fun call' pid hmem => by cases hmem⟩
    · exact hlook _ timedOut now

/-- A release takes one permission away. -/
theorem permissions_dropTask (s : QuotaState) (pid : Pid) :
    (quotaMachine.next s (.dropTask pid)).monitor.permissionsGranted =
      s.monitor.permissionsGranted.erase pid := by
  show (s.monitor.dropTask pid).1.permissionsGranted = _
  rw [TaskMonitor.dropTask]
  split
  · rfl
  next hpid => exact (Finset.erase_eq_of_notMem hpid).symm

section Entitled

variable {w : Workstation}

/-- Fewer messages entitle no one. -/
theorem Entitled.of_taken {i : ℕ} {pid : Pid}
    (h : Entitled { w with inFlight := w.inFlight.eraseIdx i } pid) : Entitled w pid := by
  rcases h with hholding | ⟨call, hasking, hmem⟩
  · exact Or.inl hholding
  · exact Or.inr ⟨call, hasking, List.mem_of_mem_eraseIdx hmem⟩

/-- A message that is no answer entitles no one. -/
theorem Entitled.taken {i : ℕ} {pid : Pid} (h : Entitled w pid)
    (hmessage : ∀ call status, w.inFlight[i]? ≠ some (.reply call pid status)) :
    Entitled { w with inFlight := w.inFlight.eraseIdx i } pid := by
  rcases h with hholding | ⟨call, hasking, hmem⟩
  · exact Or.inl hholding
  · refine Or.inr ⟨call, hasking, ?_⟩
    obtain ⟨j, hj⟩ := List.mem_iff_getElem?.1 hmem
    refine List.mem_eraseIdx_iff_getElem?.2 ⟨j, fun heq => ?_, hj⟩
    exact hmessage call .ok (heq ▸ hj)

/-- A process that goes on to something else than asking or working is not entitled, and the others
are as they were. -/
theorem Entitled.of_setClient {pid other : Pid} {phase : Option Phase}
    (hholding : phase ≠ some .holding) (hasking : ∀ call, phase ≠ some (.acquiring call))
    (h : Entitled (w.setClient pid phase) other) : Entitled w other := by
  simp only [Entitled, Workstation.setClient, Function.update_apply] at h ⊢
  split at h
  · rcases h with hphase | ⟨call, hphase, -⟩
    · exact absurd hphase hholding
    · exact absurd hphase (hasking call)
  · exact h

/-- A call of which there is no answer yet entitles no one. -/
theorem Entitled.of_newCall (hs : Sound w) {pid other : Pid} {phase : Phase}
    (hphase : phase = .acquiring w.calls ∨ phase = .releasing w.calls) {message : Message}
    (hmessage : ∀ call other status, message ≠ .reply call other status)
    (h : Entitled (({ w with calls := w.calls + 1 }.setClient pid (some phase)).send [message])
      other) : Entitled w other := by
  rcases h with hholding | ⟨call, hasking, hmem⟩
  · simp only [Workstation.send, Workstation.setClient, Function.update_apply] at hholding
    split at hholding
    · rcases hphase with rfl | rfl
      · cases hholding
      · cases hholding
    · exact Or.inl hholding
  · have hold : .reply call other .ok ∈ w.inFlight :=
      Workstation.mem_of_mem_send hmem (hmessage call other .ok).symm
    simp only [Workstation.send, Workstation.setClient, Function.update_apply] at hasking
    split at hasking
    · -- the daemon has not seen the call yet
      rcases hphase with rfl | rfl
      · cases hasking
        exact absurd (hs.inFlight_lt _ hold) (Nat.lt_irrefl _)
      · cases hasking
    · exact Or.inr ⟨call, hasking, hold⟩

/-- A release that arrives entitles no one. -/
theorem Entitled.of_released (hs : Sound w) {i call : ℕ} {pid other : Pid} {daemon : QuotaState}
    (hget : w.inFlight[i]? = some (.release call pid))
    (h : Entitled ({ { w with inFlight := w.inFlight.eraseIdx i } with daemon := daemon }.send
      [.reply call pid .ok]) other) : Entitled w other := by
  rcases h with hholding | ⟨call', hasking, hmem⟩
  · exact Or.inl hholding
  · refine Or.inr ⟨call', hasking,
      List.mem_of_mem_eraseIdx (Workstation.mem_of_mem_send hmem fun heq => ?_)⟩
    -- the answer to a release is not one to a request
    cases heq
    exact (hs.acquiring _ _ hasking).2 _ (List.mem_of_getElem? hget)

/-- Whoever an answer lets in has been entitled since the answer was sent. -/
theorem Entitled.of_receiveReply {i call : ℕ} {pid other : Pid} {status : HttpStatus}
    (hget : w.inFlight[i]? = some (.reply call pid status))
    (h : Entitled ({ w with inFlight := w.inFlight.eraseIdx i }.receiveReply call pid status)
      other) : Entitled w other := by
  rw [Workstation.receiveReply] at h
  split at h
  next call' hasking =>
    split at h
    next heq =>
      subst heq
      by_cases hsame : other = pid
      · subst hsame
        by_cases hok : status = .ok
        · subst hok
          exact Or.inr ⟨call', hasking, List.mem_of_getElem? hget⟩
        · rw [if_neg hok] at h
          exact (h.of_setClient (fun heq => by cases heq) fun _ heq => by cases heq).of_taken
      · refine Entitled.of_taken (i := i) ?_
        simpa only [Entitled, Workstation.setClient, Function.update_of_ne hsame] using h
    next => exact h.of_taken
  next =>
    split at h
    · exact (h.of_setClient (fun heq => by cases heq) fun _ heq => by cases heq).of_taken
    · exact h.of_taken
  next => exact h.of_taken

end Entitled

namespace Permitted

variable {w : Workstation}

theorem setClient (h : Permitted w) (pid : Pid) {phase : Option Phase}
    (hholding : phase ≠ some .holding) (hasking : ∀ call, phase ≠ some (.acquiring call)) :
    Permitted (w.setClient pid phase) :=
  fun other hother => h other (hother.of_setClient hholding hasking)

theorem taken (h : Permitted w) (i : ℕ) : Permitted { w with inFlight := w.inFlight.eraseIdx i } :=
  fun pid hpid => h pid hpid.of_taken

theorem newCall (h : Permitted w) (hs : Sound w) (pid : Pid) {phase : Phase}
    (hphase : phase = .acquiring w.calls ∨ phase = .releasing w.calls) {message : Message}
    (hmessage : ∀ call other status, message ≠ .reply call other status) :
    Permitted (({ w with calls := w.calls + 1 }.setClient pid (some phase)).send [message]) :=
  fun other hother => h other (hother.of_newCall hs hphase hmessage)

/-- The monitor lets in, or does not. -/
theorem onDaemon (h : Permitted w) {call : ℕ} {e : QuotaEvent}
    (he : (∃ r, e = .waitForNewTask call r) ∨ ∃ timedOut now, e = .wake call timedOut now) :
    Permitted (w.onDaemon call e) := by
  obtain ⟨hsub, hnew⟩ := next_permissions w.daemon he
  intro pid hpid
  rcases hpid with hholding | ⟨call', hasking, hmem⟩
  · exact hsub (h pid (Or.inl hholding))
  · rcases List.mem_append.1 hmem with hold | hanswer
    · exact hsub (h pid (Or.inr ⟨call', hasking, hold⟩))
    · exact hnew call' pid hanswer

/-- A process takes an answer. -/
theorem receiveReply (h : Permitted w) {i : ℕ} {call : ℕ} {pid : Pid} {status : HttpStatus}
    (hget : w.inFlight[i]? = some (.reply call pid status)) :
    Permitted ({ w with inFlight := w.inFlight.eraseIdx i }.receiveReply call pid status) := by
  intro other hother
  have hbefore := h other (hother.of_receiveReply hget)
  obtain heq | ⟨phase, heq⟩ := Workstation.receiveReply_cases
    { w with inFlight := w.inFlight.eraseIdx i } call pid status
  · rw [heq]
    exact hbefore
  · rw [heq]
    exact hbefore

end Permitted

/-- **A release that arrives** takes the permission of its process, and leaves the others. -/
theorem permitted_release_iff {w : Workstation} (hs : Sound w) (h : Permitted w) {i call : ℕ}
    {pid : Pid} (hget : w.inFlight[i]? = some (.release call pid)) (now : TimePoint) :
    Permitted (step w (.deliver i now)) ↔ ¬Entitled w pid := by
  have hstep : step w (.deliver i now) =
      { { w with inFlight := w.inFlight.eraseIdx i } with
        daemon := quotaMachine.next w.daemon (.dropTask pid) }.send [.reply call pid .ok] := by
    simp only [step, hget]
    rfl
  have hgranted : (step w (.deliver i now)).permissions = w.permissions.erase pid := by
    rw [hstep]
    exact permissions_dropTask w.daemon pid
  constructor
  · intro hafter hentitled
    refine Finset.notMem_erase pid w.permissions (hgranted ▸ hafter pid ?_)
    rw [hstep]
    have hno : ∀ call' status, w.inFlight[i]? ≠ some (.reply call' pid status) := by
      intro call' status hreply
      rw [hget] at hreply
      cases hreply
    rcases hentitled.taken hno with hholding | ⟨call', hasking, hmem⟩
    · exact Or.inl hholding
    · exact Or.inr ⟨call', hasking, List.mem_append_left _ hmem⟩
  · intro hidle other hother
    have hbefore : Entitled w other := by
      rw [hstep] at hother
      exact hother.of_released hs hget
    change other ∈ (step w (.deliver i now)).permissions
    rw [hgranted]
    exact Finset.mem_erase.2 ⟨fun heq => hidle (heq ▸ hbefore), h other hbefore⟩

/-- **A step lets someone work without a permission** exactly if it is a stale release. -/
theorem permitted_step_iff {w : Workstation} (hs : Sound w) (h : Permitted w) (e : Event) :
    Permitted (step w e) ↔ ¬Stale w e := by
  cases e with
  | start pid =>
      refine iff_of_true ?_ id
      simp only [step]
      split
      · exact h.setClient pid (fun heq => by cases heq) fun call heq => by cases heq
      · exact h
  | exit pid =>
      exact iff_of_true
        (h.setClient pid (fun heq => by cases heq) fun call heq => by cases heq) id
  | tryAcquire pid lightweight =>
      refine iff_of_true ?_ id
      simp only [step]
      split
      · exact h.newCall hs pid (Or.inl rfl) fun _ _ _ heq => by cases heq
      · exact h
  | release pid =>
      refine iff_of_true ?_ id
      simp only [step]
      split
      · exact h.newCall hs pid (Or.inr rfl) fun _ _ _ heq => by cases heq
      · exact h
  | giveUp pid =>
      refine iff_of_true ?_ id
      simp only [step]
      split
      · exact h.setClient pid (fun heq => by cases heq) fun call heq => by cases heq
      · exact h.setClient pid (fun heq => by cases heq) fun call heq => by cases heq
      · exact h
  | deliver i now =>
      cases hget : w.inFlight[i]? with
      | none =>
          simp only [step, Stale, hget]
          exact iff_of_true h fun ⟨_, _, heq, _⟩ => by cases heq
      | some message =>
          cases message with
          | acquire call pid lightweight =>
              simp only [step, Stale, hget]
              refine iff_of_true ?_ fun ⟨_, _, heq, _⟩ => by cases heq
              exact (h.taken i).onDaemon (Or.inl ⟨_, rfl⟩)
          | release call pid =>
              rw [permitted_release_iff hs h hget]
              simp only [Stale, hget]
              refine not_congr ⟨fun hentitled => ⟨call, pid, rfl, hentitled⟩, ?_⟩
              rintro ⟨call', pid', heq, hentitled⟩
              cases heq
              exact hentitled
          | reply call pid status =>
              simp only [step, Stale, hget]
              refine iff_of_true ?_ fun ⟨_, _, heq, _⟩ => by cases heq
              exact h.receiveReply hget
  | lose i => exact iff_of_true (h.taken i) id
  | wake call timedOut now => exact iff_of_true (h.onDaemon (Or.inr ⟨timedOut, now, rfl⟩)) id
  | onTimerCheckAliveProc =>
      refine iff_of_true (fun pid hpid => Finset.mem_filter.2 ⟨h pid hpid, ?_⟩) id
      -- a process that is entitled to work is one
      have halive : (w.clients pid).isSome = true := by
        rcases hpid with hholding | ⟨call, hasking, -⟩
        · exact Option.isSome_iff_exists.2 ⟨_, hholding⟩
        · exact Option.isSome_iff_exists.2 ⟨_, hasking⟩
      simpa using halive

section Runs

variable (maxConcurrency : Int32) (hardwareConcurrency : UInt32)

theorem sound_init : Sound (.init maxConcurrency hardwareConcurrency) where
  inFlight_lt := fun _ hmem => by cases hmem
  waiting_lt := fun _ hwaiting => absurd rfl hwaiting
  nodup := List.nodup_nil
  waiting := fun _ hwaiting => absurd rfl hwaiting
  acquiring := fun _ _ hasking => by cases hasking

theorem permitted_init : Permitted (.init maxConcurrency hardwareConcurrency) := by
  rintro pid (hholding | ⟨call, hasking, -⟩)
  · cases hholding
  · cases hasking

theorem sound_run (events : List Event) :
    Sound (workstation.run (.init maxConcurrency hardwareConcurrency) events) :=
  Machine.run_invariant (M := workstation) (P := Sound) (fun _ e h => sound_step h e)
    (sound_init maxConcurrency hardwareConcurrency) events

/-- **When whoever works is in the set**: all through a run every process that works, or is about to
be told that it may, has a permission, exactly if no release arrives for a process that has been
entitled to work again. -/
theorem entitled_permitted_iff (events : List Event) :
    (∀ js ks, events = js ++ ks →
        Permitted (workstation.run (.init maxConcurrency hardwareConcurrency) js)) ↔
      workstation.Along (fun w e => ¬Stale w e) (.init maxConcurrency hardwareConcurrency)
        events := by
  have hboth : (∀ js ks, events = js ++ ks →
        Sound (workstation.run (.init maxConcurrency hardwareConcurrency) js) ∧
          Permitted (workstation.run (.init maxConcurrency hardwareConcurrency) js)) ↔
      workstation.Along (fun w e => ¬Stale w e) (.init maxConcurrency hardwareConcurrency)
        events :=
    Machine.forall_prefix_iff_along (M := workstation) (C := fun w e => ¬Stale w e)
      (P := fun w => Sound w ∧ Permitted w)
      (fun w e h => (and_iff_right (sound_step h.1 e)).trans (permitted_step_iff h.1 h.2 e))
      ⟨sound_init maxConcurrency hardwareConcurrency,
        permitted_init maxConcurrency hardwareConcurrency⟩
  rw [← hboth]
  refine forall_congr' fun js => forall_congr' fun ks => imp_congr_right fun _ => ?_
  rw [and_iff_right (sound_run maxConcurrency hardwareConcurrency js)]

-- a release that has been given up arrives when the process works again
example :
    let w := workstation.run (.init 2 4)
      [.start 1, .tryAcquire 1 false, .deliver 0 0, .deliver 0 0, .release 1, .giveUp 1,
        .tryAcquire 1 false, .deliver 1 0, .deliver 1 0, .deliver 0 0]
    w.clients 1 = some .holding ∧ w.permissions = ∅ := by decide +kernel

end Runs

/-! ### The work on a machine -/

/-- A process ends, or stops waiting, and a release of it is still on its way. -/
def Abandons (w : Workstation) : Event → Prop
  | .exit pid => ∃ call, .release call pid ∈ w.inFlight
  | .giveUp pid => ∃ call, .release call pid ∈ w.inFlight
  | _ => False

/-- Whoever has sent a release that is on its way waits for the answer. -/
def Awaited (w : Workstation) : Prop :=
  ∀ call pid, .release call pid ∈ w.inFlight → w.clients pid = some (.releasing call)

/-- A release of which somebody waits for the answer is not stale. -/
theorem Awaited.not_stale {w : Workstation} (h : Awaited w) (e : Event) : ¬Stale w e := by
  cases e with
  | deliver i now =>
      rintro ⟨call, pid, hget, hentitled⟩
      have hreleasing := h call pid (List.mem_of_getElem? hget)
      rcases hentitled with hholding | ⟨call', hasking, -⟩
      · rw [hreleasing] at hholding
        cases hholding
      · rw [hreleasing] at hasking
        cases hasking
  | _ => exact id

namespace Awaited

variable {w : Workstation}

theorem taken (h : Awaited w) (i : ℕ) : Awaited { w with inFlight := w.inFlight.eraseIdx i } :=
  fun call pid hmem => h call pid (List.mem_of_mem_eraseIdx hmem)

/-- A process of which no release is on its way goes on to something else. -/
theorem setClient (h : Awaited w) {pid : Pid} (phase : Option Phase)
    (hnone : ∀ call, .release call pid ∉ w.inFlight) : Awaited (w.setClient pid phase) := by
  intro call other hmem
  have hne : other ≠ pid := by
    rintro rfl
    exact hnone call hmem
  simp only [Workstation.setClient, Function.update_of_ne hne]
  exact h call other hmem

/-- A process that does not wait for the answer to a release has none on its way. -/
theorem not_mem (h : Awaited w) {pid : Pid} {phase : Option Phase} (hpid : w.clients pid = phase)
    (hphase : ∀ call, phase ≠ some (.releasing call)) (call : ℕ) :
    .release call pid ∉ w.inFlight :=
  fun hmem => hphase call (hpid.symm.trans (h call pid hmem))

/-- Messages that are no releases. -/
theorem send (h : Awaited w) {messages : List Message}
    (hnone : ∀ call pid, .release call pid ∉ messages) : Awaited (w.send messages) := by
  intro call pid hmem
  rcases List.mem_append.1 hmem with hold | hnew
  · exact h call pid hold
  · exact absurd hnew (hnone call pid)

/-- A process takes an answer. -/
theorem receiveReply (h : Awaited w) (hs : Sound w) {i call : ℕ} {pid : Pid} {status : HttpStatus}
    (hget : w.inFlight[i]? = some (.reply call pid status)) :
    Awaited ({ w with inFlight := w.inFlight.eraseIdx i }.receiveReply call pid status) := by
  have htaken := h.taken i
  rw [Workstation.receiveReply]
  split
  next call' hasking =>
    split
    · exact htaken.setClient _ (htaken.not_mem hasking fun _ heq => by cases heq)
    · exact htaken
  next call' hreleasing =>
    split
    next heq =>
      subst heq
      refine htaken.setClient _ fun call hmem => ?_
      -- the release it waits for is the one that has been answered
      have hsame := htaken call pid hmem
      rw [hreleasing] at hsame
      cases hsame
      exact (hs.call_taken hget).2.1 (List.mem_map.2 ⟨_, hmem, rfl⟩)
    · exact htaken
  · exact htaken

end Awaited

/-- **One step**: releases are awaited as long as no one abandons them. -/
theorem awaited_step {w : Workstation} (hs : Sound w) (h : Awaited w) {e : Event}
    (he : ¬Abandons w e) : Awaited (step w e) := by
  cases e with
  | start pid =>
      simp only [step]
      split
      next hnone => exact h.setClient _ (h.not_mem hnone fun _ heq => by cases heq)
      · exact h
  | exit pid => exact h.setClient none fun call hmem => he ⟨call, hmem⟩
  | tryAcquire pid lightweight =>
      simp only [step]
      split
      next hwithout =>
        have hclient : Awaited ({ w with calls := w.calls + 1 }.setClient pid
            (some (.acquiring w.calls))) :=
          Awaited.setClient (w := { w with calls := w.calls + 1 }) h _
            (h.not_mem hwithout fun _ heq => by cases heq)
        exact hclient.send fun call other hmem => by cases List.mem_singleton.1 hmem
      · exact h
  | release pid =>
      simp only [step]
      split
      next hholding =>
        have hnone := h.not_mem hholding fun _ heq => by cases heq
        intro call other hmem
        rcases List.mem_append.1 hmem with hold | hnew
        · have hne : other ≠ pid := by
            rintro rfl
            exact hnone call hold
          simp only [Workstation.send, Workstation.setClient, Function.update_of_ne hne]
          exact h call other hold
        · cases List.mem_singleton.1 hnew
          exact Function.update_self ..
      · exact h
  | giveUp pid =>
      have hnone : ∀ call, .release call pid ∉ w.inFlight := fun call hmem => he ⟨call, hmem⟩
      simp only [step]
      split
      · exact h.setClient _ hnone
      · exact h.setClient _ hnone
      · exact h
  | deliver i now =>
      cases hget : w.inFlight[i]? with
      | none =>
          simp only [step, hget]
          exact h
      | some message =>
          cases message with
          | acquire call pid lightweight =>
              simp only [step, hget]
              exact (h.taken i).send fun call other => not_mem_acquired
          | release call pid =>
              simp only [step, hget]
              exact (h.taken i).send fun call other hmem => by cases List.mem_singleton.1 hmem
          | reply call pid status =>
              simp only [step, hget]
              exact h.receiveReply hs hget
  | lose i => exact h.taken i
  | wake call timedOut now => exact h.send fun call other => not_mem_acquired
  | onTimerCheckAliveProc => exact h

/-- The daemon goes one step of the monitor, or none. -/
theorem daemon_step (w : Workstation) (e : Event) :
    (step w e).daemon = w.daemon ∨ ∃ q, (step w e).daemon = quotaMachine.next w.daemon q := by
  cases e with
  | deliver i now =>
      simp only [step]
      split
      · exact Or.inl rfl
      next message hget =>
        cases message with
        | acquire call pid lightweight => exact Or.inr ⟨_, rfl⟩
        | release call pid => exact Or.inr ⟨_, rfl⟩
        | reply call pid status =>
            refine Or.inl ?_
            simp only [Workstation.receive, Workstation.receiveReply]
            split
            · split
              · rfl
              · rfl
            · split
              · rfl
              · rfl
            · rfl
  | wake call timedOut now => exact Or.inr ⟨_, rfl⟩
  | onTimerCheckAliveProc => exact Or.inr ⟨_, rfl⟩
  | exit pid => exact Or.inl rfl
  | lose i => exact Or.inl rfl
  | start pid | tryAcquire pid lightweight | release pid | giveUp pid =>
      refine Or.inl ?_
      simp only [step]
      split <;> rfl

section Bound

variable (maxConcurrency : Int32) (hardwareConcurrency : UInt32)

/-- The monitor keeps within its limits, whatever the clients do. -/
theorem withinLimits_run (events : List Event) :
    let m := TaskMonitor.init maxConcurrency hardwareConcurrency
    WithinLimits m.maxHeavyTasks.toNat m.maxLightTasks.toNat
      (workstation.run (.init maxConcurrency hardwareConcurrency) events).daemon.monitor := by
  intro m
  refine Machine.run_invariant (M := workstation)
    (P := fun w => WithinLimits m.maxHeavyTasks.toNat m.maxLightTasks.toNat w.daemon.monitor)
    (fun w e h => ?_) ⟨rfl, rfl, Nat.zero_le _⟩ events
  change WithinLimits _ _ (step w e).daemon.monitor
  rcases daemon_step w e with heq | ⟨q, heq⟩
  · rw [heq]
    exact h
  · rw [heq]
    exact Local.withinLimits_next
      (TaskMonitor.bounded_init maxConcurrency hardwareConcurrency) w.daemon q h

/-- **The work on a machine is bounded.**  In every run in which no process ends or gives up while a
release of it is on its way, the processes that work at the same time have permissions, and are at
most as many as the two limits of the monitor allow together.  Requests may be given up, answers may
be lost and processes may end while they work. -/
theorem work_bounded {events : List Event}
    (h : workstation.Along (fun w e => ¬Abandons w e) (.init maxConcurrency hardwareConcurrency)
      events) {working : Finset Pid}
    (hworking : ∀ pid ∈ working, (workstation.run (.init maxConcurrency hardwareConcurrency)
      events).clients pid = some .holding) :
    let w := workstation.run (.init maxConcurrency hardwareConcurrency) events
    working ⊆ w.permissions ∧
      working.card ≤
        w.daemon.monitor.maxHeavyTasks.toNat + w.daemon.monitor.maxLightTasks.toNat := by
  intro w
  have hstep : ∀ w e, ¬Abandons w e → (Sound w ∧ Awaited w) ∧ Permitted w →
      (Sound (step w e) ∧ Awaited (step w e)) ∧ Permitted (step w e) := by
    rintro w e he ⟨⟨hs, hawaited⟩, hpermitted⟩
    exact ⟨⟨sound_step hs e, awaited_step hs hawaited he⟩,
      (permitted_step_iff hs hpermitted e).2 (hawaited.not_stale e)⟩
  obtain ⟨-, hpermitted⟩ := Machine.run_invariant_along (M := workstation) hstep
    ⟨⟨sound_init maxConcurrency hardwareConcurrency, fun _ _ hmem => by cases hmem⟩,
      permitted_init maxConcurrency hardwareConcurrency⟩ h
  have hsub : working ⊆ w.permissions :=
    fun pid hpid => hpermitted pid (Or.inl (hworking pid hpid))
  have hlimits := withinLimits_run maxConcurrency hardwareConcurrency events
  refine ⟨hsub, (Finset.card_le_card hsub).trans ?_⟩
  rw [hlimits.heavy, hlimits.light]
  exact hlimits.card

/-- One process works, and another has stopped waiting. -/
theorem work_bounded_one :
    let w := workstation.run (.init 1 4)
      [.start 1, .start 2, .tryAcquire 1 false, .deliver 0 0, .deliver 0 0, .tryAcquire 2 true,
        .giveUp 2]
    {1} ⊆ w.permissions ∧ Finset.card {1} ≤
      w.daemon.monitor.maxHeavyTasks.toNat + w.daemon.monitor.maxLightTasks.toNat := by
  have hnone : ∀ call, Message.release call 2 ∉ [Message.acquire 1 2 true] :=
    fun call hmem => by cases List.mem_singleton.1 hmem
  have halong : workstation.Along (fun w e => ¬Abandons w e) (.init 1 4)
      [.start 1, .start 2, .tryAcquire 1 false, .deliver 0 0, .deliver 0 0, .tryAcquire 2 true,
        .giveUp 2] :=
    ⟨id, id, id, id, id, id, fun ⟨call, hmem⟩ => hnone call hmem, trivial⟩
  refine work_bounded 1 4 halong fun pid hpid => ?_
  rw [Finset.mem_singleton.1 hpid]
  decide +kernel

end Bound

/-! ### Permissions that nobody knows of -/

/-- Permissions are with processes that do not know of them, and that leave no room.  These are
there, neither work nor are about to be told that they may, and have sent no release that is still
on its way.  They are as many as the limit for tasks of the kinds that are asked for: for
heavyweight ones alone, or for both kinds if `lightest` is set. -/
structure Starved (lightest : Bool) (unaware : Finset Pid) (w : Workstation) : Prop where
  full : ∀ lightweight ≤ lightest, (w.daemon.monitor.limit lightweight).toNat ≤ unaware.card
  permitted : unaware ⊆ w.permissions
  alive : ∀ pid ∈ unaware, w.clients pid ≠ none
  idle : ∀ pid ∈ unaware, ¬Entitled w pid
  released : ∀ call, ∀ pid ∈ unaware, .release call pid ∉ w.inFlight
  asked : ∀ call pid lightweight, .acquire call pid lightweight ∈ w.inFlight →
    lightweight ≤ lightest
  waiting : ∀ call r, w.daemon.waiting call = some r → r.lightweight ≤ lightest

/-- None of these processes ends, and only tasks of these kinds are asked for. -/
def Ordinary (lightest : Bool) (unaware : Finset Pid) : Event → Prop
  | .exit pid => pid ∉ unaware
  | .tryAcquire _ lightweight => lightweight ≤ lightest
  | _ => True

/-- The permissions stay where they are, and no one is let in. -/
structure LocksOut (lightest : Bool) (unaware : Finset Pid) (w w' : Workstation) : Prop where
  starved : Starved lightest unaware w'
  entitled : ∀ pid, Entitled w' pid → Entitled w pid

/-- A request finds no room. -/
theorem look_starved {s : QuotaState} {r : QuotaRequest}
    (hroom : s.monitor.hasRoom r.lightweight = false) (call : ℕ) (timedOut : Bool)
    (now : TimePoint) :
    (s.look call r timedOut now).1.monitor = s.monitor ∧
      (∀ call' pid, .reply call' pid .ok ∉
        Workstation.acquired call (s.look call r timedOut now).2) ∧
      ∀ other r', (s.look call r timedOut now).1.waiting other = some r' →
        r' = r ∨ s.waiting other = some r' := by
  have hnone : Monitor.waitFor (s.monitor.hasRoom r.lightweight) r.deadline now timedOut ≠
      .satisfied := by
    rw [hroom]
    exact fun hsatisfied => by cases Monitor.waitFor_eq_satisfied.1 hsatisfied
  unfold QuotaState.look
  split
  next hwait => exact absurd hwait hnone
  next =>
    refine ⟨rfl, fun call' pid hmem => (by cases List.mem_singleton.1 hmem),
      fun other r' hother => ?_⟩
    simp only [Function.update_apply] at hother
    split at hother
    · cases hother
    · exact Or.inr hother
  next =>
    refine ⟨rfl, fun call' pid hmem => (by cases hmem), fun other r' hother => ?_⟩
    simp only [Function.update_apply] at hother
    split at hother
    · exact Or.inl (Option.some_inj.1 hother).symm
    · exact Or.inr hother

section

variable {lightest : Bool} {unaware : Finset Pid}

theorem LocksOut.refl {w : Workstation} (h : Starved lightest unaware w) :
    LocksOut lightest unaware w w :=
  ⟨h, fun _ => id⟩

theorem LocksOut.trans {w w' w'' : Workstation} (h : LocksOut lightest unaware w w')
    (h' : LocksOut lightest unaware w' w'') : LocksOut lightest unaware w w'' :=
  ⟨h'.starved, fun pid hpid => h.entitled pid (h'.entitled pid hpid)⟩

end

namespace Starved

variable {lightest : Bool} {unaware : Finset Pid} {w : Workstation}

theorem hasRoom (h : Starved lightest unaware w) {lightweight : Bool}
    (hkind : lightweight ≤ lightest) : w.daemon.monitor.hasRoom lightweight = false :=
  decide_eq_false
    (Nat.not_lt.2 ((h.full lightweight hkind).trans (Finset.card_le_card h.permitted)))

theorem taken (h : Starved lightest unaware w) (i : ℕ) :
    LocksOut lightest unaware w { w with inFlight := w.inFlight.eraseIdx i } where
  starved :=
    { full := h.full
      permitted := h.permitted
      alive := h.alive
      idle := fun pid hpid hentitled => h.idle pid hpid hentitled.of_taken
      released := fun call pid hpid hmem => h.released call pid hpid (List.mem_of_mem_eraseIdx hmem)
      asked := fun call pid lightweight hmem =>
        h.asked call pid lightweight (List.mem_of_mem_eraseIdx hmem)
      waiting := h.waiting }
  entitled _ hentitled := hentitled.of_taken

/-- A process goes on. -/
theorem setClient (h : Starved lightest unaware w) {pid : Pid} {phase : Option Phase}
    (halive : phase = none → pid ∉ unaware)
    (hidle : ∀ other ∈ unaware, ¬Entitled (w.setClient pid phase) other) :
    Starved lightest unaware (w.setClient pid phase) where
  full := h.full
  permitted := h.permitted
  alive := by
    intro other hother
    simp only [Workstation.setClient, Function.update_apply]
    split
    next heq => exact fun hnone => halive hnone (heq ▸ hother)
    next => exact h.alive other hother
  idle := hidle
  released := h.released
  asked := h.asked
  waiting := h.waiting

/-- A process goes on to something else than asking or working. -/
theorem leave (h : Starved lightest unaware w) {pid : Pid} {phase : Option Phase}
    (halive : phase = none → pid ∉ unaware) (hholding : phase ≠ some .holding)
    (hasking : ∀ call, phase ≠ some (.acquiring call)) :
    LocksOut lightest unaware w (w.setClient pid phase) where
  starved := h.setClient halive fun other hother hafter =>
    h.idle other hother (hafter.of_setClient hholding hasking)
  entitled _ hafter := hafter.of_setClient hholding hasking

/-- A process stops waiting. -/
theorem without (h : Starved lightest unaware w) (pid : Pid) :
    LocksOut lightest unaware w (w.setClient pid (some .without)) :=
  h.leave (fun heq => by cases heq) (fun heq => by cases heq) fun _ heq => by cases heq

/-- A call of which there is no answer yet. -/
theorem newCall (h : Starved lightest unaware w) (hs : Sound w) (pid : Pid) {phase : Phase}
    (hphase : phase = .acquiring w.calls ∨ phase = .releasing w.calls) {message : Message}
    (hreply : ∀ call other status, message ≠ .reply call other status)
    (hrelease : ∀ call, ∀ other ∈ unaware, message ≠ .release call other)
    (hkind : ∀ call other lightweight, message = .acquire call other lightweight →
      lightweight ≤ lightest) :
    LocksOut lightest unaware w
      (({ w with calls := w.calls + 1 }.setClient pid (some phase)).send [message]) := by
  have hentitled : ∀ other, Entitled (({ w with calls := w.calls + 1 }.setClient pid
      (some phase)).send [message]) other → Entitled w other :=
    fun other hafter => hafter.of_newCall hs hphase hreply
  refine ⟨⟨h.full, h.permitted, fun other hother => ?_, fun other hother hafter =>
    h.idle other hother (hentitled other hafter), fun call other hother hmem =>
    h.released call other hother
      (Workstation.mem_of_mem_send hmem (hrelease call other hother).symm),
    fun call other lightweight hmem => ?_, h.waiting⟩, hentitled⟩
  · simp only [Workstation.send, Workstation.setClient, Function.update_apply]
    split
    · exact Option.some_ne_none _
    · exact h.alive other hother
  · by_cases hnew : Message.acquire call other lightweight = message
    · exact hkind call other lightweight hnew.symm
    · exact h.asked call other lightweight (Workstation.mem_of_mem_send hmem hnew)

/-- The monitor looks for a request of these kinds. -/
theorem onDaemon (h : Starved lightest unaware w) {call : ℕ} {e : QuotaEvent} {r : QuotaRequest}
    (hr : r.lightweight ≤ lightest) {timedOut : Bool} {now : TimePoint}
    (he : quotaMachine.step w.daemon e = w.daemon.look call r timedOut now) :
    LocksOut lightest unaware w (w.onDaemon call e) := by
  obtain ⟨hmonitor, hanswer, hwaiting⟩ := look_starved (h.hasRoom hr) call timedOut now
  have hdaemon : (w.onDaemon call e).daemon = (w.daemon.look call r timedOut now).1 :=
    congrArg Prod.fst he
  have hflight : (w.onDaemon call e).inFlight = w.inFlight ++
      Workstation.acquired call (w.daemon.look call r timedOut now).2 := by
    rw [← congrArg Prod.snd he]
    rfl
  have hsame : (w.onDaemon call e).daemon.monitor = w.daemon.monitor := by rw [hdaemon, hmonitor]
  have hentitled : ∀ pid, Entitled (w.onDaemon call e) pid → Entitled w pid := by
    rintro pid (hholding | ⟨call', hasking, hmem⟩)
    · exact Or.inl hholding
    · rw [hflight] at hmem
      rcases List.mem_append.1 hmem with hold | hnew
      · exact Or.inr ⟨call', hasking, hold⟩
      · exact absurd hnew (hanswer call' pid)
  refine ⟨⟨?_, ?_, h.alive, fun pid hpid hafter => h.idle pid hpid (hentitled pid hafter),
    fun call' pid hpid hmem => ?_, fun call' pid lightweight hmem => ?_,
    fun call' r' hlook => ?_⟩, hentitled⟩
  · rw [hsame]
    exact h.full
  · rw [Workstation.permissions, hsame]
    exact h.permitted
  · rw [hflight] at hmem
    rcases List.mem_append.1 hmem with hold | hnew
    · exact h.released call' pid hpid hold
    · exact not_mem_acquired hnew
  · rw [hflight] at hmem
    rcases List.mem_append.1 hmem with hold | hnew
    · exact h.asked call' pid lightweight hold
    · unfold Workstation.acquired at hnew
      split at hnew
      · cases List.mem_singleton.1 hnew
      · cases List.mem_singleton.1 hnew
      · cases hnew
  · rw [hdaemon] at hlook
    rcases hwaiting call' r' hlook with rfl | hold
    · exact hr
    · exact h.waiting call' r' hold

/-- Another process has released what it had. -/
theorem dropTask (h : Starved lightest unaware w) (hs : Sound w) {i call : ℕ} {pid : Pid}
    (hget : w.inFlight[i]? = some (.release call pid)) :
    LocksOut lightest unaware w
      ({ { w with inFlight := w.inFlight.eraseIdx i } with
        daemon := quotaMachine.next w.daemon (.dropTask pid) }.send [.reply call pid .ok]) := by
  have hmem := List.mem_of_getElem? hget
  have hother : pid ∉ unaware := fun hpid => h.released call pid hpid hmem
  have hlimit : ∀ lightweight, (quotaMachine.next w.daemon (.dropTask pid)).monitor.limit
      lightweight = w.daemon.monitor.limit lightweight := by
    intro lightweight
    show (w.daemon.monitor.dropTask pid).1.limit lightweight = _
    rw [TaskMonitor.dropTask]
    split
    · rfl
    · rfl
  have hentitled : ∀ other, Entitled ({ { w with inFlight := w.inFlight.eraseIdx i } with
      daemon := quotaMachine.next w.daemon (.dropTask pid) }.send [.reply call pid .ok]) other →
        Entitled w other := fun other hafter => hafter.of_released hs hget
  have hold : ∀ {m}, m ∈ w.inFlight.eraseIdx i ++ [.reply call pid .ok] →
      m ≠ .reply call pid .ok → m ∈ w.inFlight := fun hm hne =>
    List.mem_of_mem_eraseIdx (Workstation.mem_of_mem_send
      (w := { w with inFlight := w.inFlight.eraseIdx i }) hm hne)
  refine ⟨⟨fun lightweight hkind => ?_, fun other hmem' => ?_, h.alive, fun other hmem' hafter =>
    h.idle other hmem' (hentitled other hafter), fun call' other hmem' hm =>
    h.released call' other hmem' (hold hm fun heq => by cases heq),
    fun call' other lightweight hm => h.asked call' other lightweight
      (hold hm fun heq => by cases heq), h.waiting⟩, hentitled⟩
  · exact (congrArg UInt64.toNat (hlimit lightweight)).trans_le (h.full lightweight hkind)
  · show other ∈ (quotaMachine.next w.daemon (.dropTask pid)).monitor.permissionsGranted
    rw [permissions_dropTask]
    exact Finset.mem_erase.2 ⟨fun heq => hother (heq ▸ hmem'), h.permitted hmem'⟩

/-- A process takes an answer. -/
theorem receiveReply (h : Starved lightest unaware w) {i call : ℕ} {pid : Pid}
    {status : HttpStatus} (hget : w.inFlight[i]? = some (.reply call pid status)) :
    LocksOut lightest unaware w
      ({ w with inFlight := w.inFlight.eraseIdx i }.receiveReply call pid status) := by
  have hentitled : ∀ other, Entitled ({ w with inFlight := w.inFlight.eraseIdx i }.receiveReply
      call pid status) other → Entitled w other := fun other hafter => hafter.of_receiveReply hget
  obtain heq | ⟨phase, heq⟩ := Workstation.receiveReply_cases
    { w with inFlight := w.inFlight.eraseIdx i } call pid status
  · rw [heq]
    exact h.taken i
  · refine ⟨?_, hentitled⟩
    rw [heq] at hentitled ⊢
    exact (h.taken i).starved.setClient (fun hnone => by cases hnone) fun other hother hafter =>
      h.idle other hother (hentitled other hafter)

end Starved

/-- **One step** leaves the permissions where they are, and lets no one in. -/
theorem starved_step {lightest : Bool} {unaware : Finset Pid} {w : Workstation} (hs : Sound w)
    (h : Starved lightest unaware w) {e : Event} (he : Ordinary lightest unaware e) :
    LocksOut lightest unaware w (step w e) := by
  cases e with
  | start pid =>
      simp only [step]
      split
      · exact h.without pid
      · exact .refl h
  | exit pid => exact h.leave (fun _ => he) (fun heq => by cases heq) fun _ heq => by cases heq
  | tryAcquire pid lightweight =>
      simp only [step]
      split
      · refine h.newCall hs pid (Or.inl rfl) (fun _ _ _ heq => by cases heq)
          (fun _ _ _ heq => by cases heq) fun call other lightweight' heq => ?_
        cases heq
        exact he
      · exact .refl h
  | release pid =>
      simp only [step]
      split
      next hholding =>
        refine h.newCall hs pid (Or.inr rfl) (fun _ _ _ heq => by cases heq) ?_
          fun _ _ _ heq => by cases heq
        -- whoever releases knows of what it has
        rintro call other hother heq
        cases heq
        exact h.idle pid hother (Or.inl hholding)
      next => exact .refl h
  | giveUp pid =>
      simp only [step]
      split
      · exact h.without pid
      · exact h.without pid
      · exact .refl h
  | deliver i now =>
      cases hget : w.inFlight[i]? with
      | none =>
          simp only [step, hget]
          exact .refl h
      | some message =>
          cases message with
          | acquire call pid lightweight =>
              obtain ⟨-, -, hfree⟩ := hs.call_taken hget
              have hlook : quotaMachine.step w.daemon
                  (.waitForNewTask call (Workstation.request pid lightweight now)) =
                  w.daemon.look call (Workstation.request pid lightweight now) false 0 := by
                simp only [Message.call] at hfree
                simp only [quotaMachine, Local.quotaStep, hfree]
              simp only [step, hget]
              exact (h.taken i).trans ((h.taken i).starved.onDaemon
                (h.asked call pid lightweight (List.mem_of_getElem? hget)) hlook)
          | release call pid =>
              simp only [step, hget]
              exact h.dropTask hs hget
          | reply call pid status =>
              simp only [step, hget]
              exact h.receiveReply hget
  | lose i => exact h.taken i
  | wake call timedOut now =>
      cases hwaiting : w.daemon.waiting call with
      | none =>
          simp only [step, w.onDaemon_wake hwaiting]
          exact .refl h
      | some r =>
          have hlook : quotaMachine.step w.daemon (.wake call timedOut now) =
              w.daemon.look call r timedOut now := by
            simp only [quotaMachine, Local.quotaStep, hwaiting]
          exact h.onDaemon (h.waiting call r hwaiting) hlook
  | onTimerCheckAliveProc =>
      refine ⟨⟨h.full, fun pid hpid => Finset.mem_filter.2 ⟨h.permitted hpid, ?_⟩, h.alive, h.idle,
        h.released, h.asked, h.waiting⟩, fun _ => id⟩
      -- the processes that have these permissions are there
      exact Option.isSome_iff_ne_none.2 (h.alive pid hpid)

/-- **A run** as well. -/
theorem starved_run {lightest : Bool} {unaware : Finset Pid} {w : Workstation} (hs : Sound w)
    (h : Starved lightest unaware w) {events : List Event}
    (hevents : ∀ e ∈ events, Ordinary lightest unaware e) :
    LocksOut lightest unaware w (workstation.run w events) := by
  induction events generalizing w with
  | nil => exact .refl h
  | cons e events ih =>
      have hstep := starved_step hs h (hevents e List.mem_cons_self)
      exact hstep.trans (ih (sound_step hs e) hstep.starved fun e he =>
        hevents e (List.mem_cons_of_mem _ he))

section Starvation

variable (maxConcurrency : Int32) (hardwareConcurrency : UInt32)

/-- **An answer that is lost may lock everyone out.**  Once permissions that leave no room are with
processes that do not know of them, and as long as these do not end, the daemon keeps the
permissions and lets no one in: whoever is entitled to work at the end has been all the time. -/
theorem starved_forever {before after : List Event} {lightest : Bool} {unaware : Finset Pid}
    (h : Starved lightest unaware
      (workstation.run (.init maxConcurrency hardwareConcurrency) before))
    (hafter : ∀ e ∈ after, Ordinary lightest unaware e) :
    let w := workstation.run (.init maxConcurrency hardwareConcurrency) (before ++ after)
    unaware ⊆ w.permissions ∧ (∀ pid ∈ unaware, ¬Entitled w pid) ∧
      ∀ js ks, after = js ++ ks → ∀ pid, Entitled w pid →
        Entitled (workstation.run (.init maxConcurrency hardwareConcurrency) (before ++ js))
          pid := by
  intro w
  have hs := sound_run maxConcurrency hardwareConcurrency before
  have hw : Starved lightest unaware w := by
    have hrun := starved_run hs h hafter
    rw [← Machine.run_append] at hrun
    exact hrun.starved
  refine ⟨hw.permitted, hw.idle, ?_⟩
  rintro js ks rfl pid hpid
  have hmiddle := starved_run hs h fun e he => hafter e (List.mem_append_left ks he)
  have hlast := starved_run (sound_run maxConcurrency hardwareConcurrency (before ++ js))
    (Machine.run_append .. ▸ hmiddle.starved) fun e he => hafter e (List.mem_append_right js he)
  rw [← Machine.run_append, List.append_assoc] at hlast
  exact hlast.entitled pid hpid

/-- The daemon lets the process `1` in, which has stopped waiting, and then the process `2` for a
lightweight task. -/
def lostAnswer : List Event :=
  [.start 1, .tryAcquire 1 false, .deliver 0 0, .lose 0, .giveUp 1, .start 2, .tryAcquire 2 true,
    .deliver 0 0, .deliver 0 0]

theorem starved_lostAnswer : Starved false {1} (workstation.run (.init 1 4) lostAnswer) := by
  have hflight : (workstation.run (.init 1 4) lostAnswer).inFlight = [] := by decide +kernel
  have hwaiting : (workstation.run (.init 1 4) lostAnswer).daemon.waiting =
      Function.update (Function.update (fun _ => none) 0 none) 1 none := rfl
  refine ⟨by decide +kernel, by decide +kernel, fun pid hpid => ?_, fun pid hpid => ?_,
    fun _ _ _ hmem => ?_, fun _ _ _ hmem => ?_, fun call r hr => ?_⟩
  · rw [Finset.mem_singleton.1 hpid]
    decide +kernel
  · rw [Finset.mem_singleton.1 hpid]
    rintro (hholding | ⟨call, -, hmem⟩)
    · exact absurd hholding (by decide +kernel)
    · rw [hflight] at hmem
      cases hmem
  · rw [hflight] at hmem
    cases hmem
  · rw [hflight] at hmem
    cases hmem
  · simp only [hwaiting, Function.update_apply, ite_self] at hr
    cases hr

/-- The process `2` comes to its end, and no one after it is let in. -/
theorem starved_forever_lostAnswer :
    let after := [.start 3, .tryAcquire 3 false, .deliver 0 0, .release 2, .deliver 0 0,
      .deliver 0 0, .tryAcquire 2 false, .deliver 0 0, .wake 2 true (ms 11), .wake 4 true (ms 11),
      .deliver 0 0, .deliver 0 0, .onTimerCheckAliveProc]
    let w := workstation.run (.init 1 4) (lostAnswer ++ after)
    {1} ⊆ w.permissions ∧ (∀ pid ∈ ({1} : Finset Pid), ¬Entitled w pid) ∧
      ∀ js ks, after = js ++ ks → ∀ pid, Entitled w pid →
        Entitled (workstation.run (.init 1 4) (lostAnswer ++ js)) pid :=
  starved_forever 1 4 starved_lostAnswer (by
    simp only [Ordinary, le_refl, List.forall_mem_cons, List.not_mem_nil, false_implies,
      implies_true, and_self])

end Starvation

end Quota
