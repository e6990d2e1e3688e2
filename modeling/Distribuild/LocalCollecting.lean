/-
**A client comes back for its result.**

`CompileOnCloud` hands in a compile, and then `WaitForCloudCompileResult` asks the daemon for its
result again and again: a request waits at the daemon for ten seconds, a `503` means that the client
has to ask once more, a `404` that the daemon has forgotten the task, and everything else is read as
a result.  At the daemon `HttpServiceImpl::WaitForTask` calls `TaskDispatcher::WaitForTask`, which
takes the task out of the table for good.  An answer that is lost on its way is lost with the task.

This module adds the second half to the clients and the daemon of
`Distribuild/LocalSubmission.lean`.  A client sends one request after the other, and it may give up
at any time, while the daemon goes on with what it has been sent.  Anybody else on the machine may
ask for any task.

Main definitions:

* `Local.WaitJson` — what the two sides use of their JSON libraries;
* `Local.CollectState`, `Local.CollectEvent`, `Local.collectingDesk` — the clients and the daemon,
  as a machine;
* `Local.CollectState.Goes` — what a step can do.

Main results:

* `Local.collect_goes` — **what a step does**, once for all;
* `Local.CollectState.Followed` — **the invariant**: where the result of a client can be;
* `Local.CollectState.followed_run` — it holds in every run.
-/

import Distribuild.LocalDeadline
import Distribuild.LocalHandIn

set_option relaxedAutoImplicit false
set_option autoImplicit false

namespace Local

open Client (HttpResponse CompileResult ResponseJson)
open Cloud (minute)

/-! ### The requests and the answers -/

/-- `WaitForCXXTaskRequest`. -/
structure WaitForCXXTaskRequest where
  taskId : UInt64
  msToWait : UInt32
deriving DecidableEq, Repr

/-- What the two sides use of their libraries: jsoncpp on that of the client, protobuf on that of
the daemon. -/
structure WaitJson where
  /-- `Json::writeString`, for the request. -/
  writeString : WaitForCXXTaskRequest → Bytes
  /-- `JsonStringToMessage`, for the request: what is parsed, or the text of the error. -/
  jsonStringToMessage : Bytes → Except Bytes WaitForCXXTaskRequest
  /-- The libraries for the answer. -/
  response : ResponseJson

/-- The request for a task. -/
def waitRequestFor (taskId : UInt64) : WaitForCXXTaskRequest :=
  { taskId := taskId, msToWait := 10000 }

/-- The daemon reads the requests that a client writes. -/
def WaitJson.ReadsRequests (json : WaitJson) : Prop :=
  ∀ taskId, json.jsonStringToMessage (json.writeString (waitRequestFor taskId)) =
    .ok (waitRequestFor taskId)

/-- `GetOutput`: what `OnCompleted` has stored last. -/
def DistTask.getOutput (t : DistTask) : WaitForCXXTaskResponse × List Bytes :=
  (t.completions.getLast?.map rebuildOutput).getD ({}, [])

/-- The end of `HttpServiceImpl::WaitForTask`, once `TaskDispatcher::WaitForTask` has returned. -/
def WaitPhase.response (messageToJson : WaitForCXXTaskResponse → Bytes) (msToWait : UInt32) :
    WaitPhase → Option HttpResponse
  | .returned _ (some t) => some (httpWaitForTask messageToJson (.ok msToWait) (.ok t.getOutput))
  | .returned .timeout none => some (httpWaitForTask messageToJson (.ok msToWait) .timeout)
  | .returned .notFound none => some (httpWaitForTask messageToJson (.ok msToWait) .notFound)
  -- no status is set, and nothing is sent
  | .returned .ok none => some {}
  | _ => none

/-! ### The clients and the daemon -/

/-- How far the last request of a client has come on the side of the daemon. -/
inductive WaitExchange
  | unsent
  | sent
  /-- `TaskDispatcher::WaitForTask` has been called; this is the number of the call. -/
  | served (wait : ℕ) (msToWait : UInt32)
  | answered (response : HttpResponse)
deriving DecidableEq, Repr

/-- How far `CompileOnCloud` has come, from `SubmitComileTask` on. -/
inductive CollectPhase
  | idle
  /-- It waits for the response to its last request. -/
  | waiting
  | returned (result : CompileResult)
  /-- An exception has ended the process. -/
  | crashed (fault : Fault)
deriving DecidableEq, Repr

/-- The second half of a call of `CompileOnCloud`, with what the daemon makes of its request. -/
structure CollectCall where
  phase : CollectPhase := .idle
  exchange : WaitExchange := .unsent
deriving DecidableEq, Repr

/-- The clients and the daemon. -/
structure CollectState where
  desk : SubmitState := {}
  collects : ℕ → CollectCall := fun _ => {}

def CollectState.setCollect (s : CollectState) (call : ℕ) (now : CollectCall) : CollectState :=
  { s with collects := Function.update s.collects call now }

inductive CollectEvent
  /-- Something happens that has to do with handing in, or to the dispatcher. -/
  | desk (event : SubmitEvent)
  /-- `SubmitComileTask` has returned. -/
  | ask (call : ℕ)
  /-- `HttpServiceImpl::WaitForTask` up to the first step of `TaskDispatcher::WaitForTask`. -/
  | serve (call : ℕ)
  /-- `TaskDispatcher::WaitForTask` has returned, and the response is sent. -/
  | respond (call : ℕ)
  /-- The client has the response, and `fuel` to decompress the files. -/
  | receive (call : ℕ) (fuel : ℕ)
  /-- `DaemonHttpCall` runs into its timeout, or the connection breaks. -/
  | giveUp (call : ℕ)

theorem Input.isOwn_waitFind (taskId : UInt64) : (Input.waitFind taskId).isOwn = true := rfl

/-- `TaskDispatcher::WaitForTask` is called. -/
def SubmitEvent.waitFind (taskId : UInt64) : SubmitEvent :=
  .dispatcher (.waitFind taskId) (Input.isOwn_waitFind taskId)

section Machine

variable (json : SubmitJson) (hasher : Hasher) (submissions : ℕ → Submission json)
  (waitJson : WaitJson) (z : Compressor)

/-- What the client makes of the response to its last request. -/
def CollectCall.receive (c : CollectCall) (fuel : ℕ) : CollectCall :=
  match c.phase, c.exchange with
  | .waiting, .answered response =>
      if response.status = 503 then { c with exchange := .sent }
      else
        match Client.waitForCloudCompileResult z waitJson.response fuel [some response] with
        | none => c
        | some (.ok result) => { c with phase := .returned result }
        | some (.error fault) => { c with phase := .crashed fault }
  | _, _ => c

/-- One step of the clients and the daemon.  A step that a call is not at does nothing. -/
def collectStep (s : CollectState) : CollectEvent → CollectState
  | .desk event => { s with desk := (submissionDesk json hasher submissions).next s.desk event }
  | .ask call =>
      match (s.collects call).phase with
      | .idle =>
          match (s.desk.calls call).phase with
          | .returned taskId =>
              match taskId with
              | some _ => s.setCollect call { phase := .waiting, exchange := .sent }
              | none =>
                  s.setCollect call { s.collects call with phase := .returned { exitCode := -1 } }
          | _ => s
      | _ => s
  | .serve call =>
      match (s.collects call).exchange, (s.desk.calls call).phase with
      | .sent, .returned (some taskId) =>
          match waitJson.jsonStringToMessage (waitJson.writeString (waitRequestFor taskId)) with
          | .error text =>
              s.setCollect call { s.collects call with
                exchange := .answered
                  (httpWaitForTask waitJson.response.messageToJson (.error text) .timeout) }
          | .ok req =>
              if 10000 < req.msToWait then
                s.setCollect call { s.collects call with
                  exchange := .answered
                    (httpWaitForTask waitJson.response.messageToJson (.ok req.msToWait) .timeout) }
              else
                { s.setCollect call { s.collects call with
                    exchange := .served s.desk.dispatcher.calls.length req.msToWait } with
                  desk := (submissionDesk json hasher submissions).next s.desk
                    (.waitFind req.taskId) }
      | _, _ => s
  | .respond call =>
      match (s.collects call).exchange with
      | .served wait msToWait =>
          match (s.desk.dispatcher.calls[wait]?).bind fun w =>
              w.phase.response waitJson.response.messageToJson msToWait with
          | some response =>
              s.setCollect call { s.collects call with exchange := .answered response }
          | none => s
      | _ => s
  | .receive call fuel =>
      s.setCollect call ((s.collects call).receive waitJson z fuel)
  | .giveUp call =>
      match (s.collects call).phase with
      | .waiting => s.setCollect call { s.collects call with phase := .returned { exitCode := -1 } }
      | _ => s

/-- **The clients and the daemon as a machine**: call number `n` compiles `submissions n`. -/
def collectingDesk : Machine CollectState CollectEvent Unit where
  step s event := (collectStep json hasher submissions waitJson z s event, ())

end Machine

/-! ### What a step does -/

section Steps

variable (json : SubmitJson) (hasher : Hasher) (submissions : ℕ → Submission json)
  (waitJson : WaitJson) (z : Compressor)

/-- What a step can do, with what has been tested before, where the daemon reads what the clients
write. -/
inductive CollectState.Goes (s : CollectState) : CollectEvent → CollectState → Prop
  | stays {event : CollectEvent} : Goes s event s
  | works {event : SubmitEvent} :
      Goes s (.desk event)
        { s with desk := (submissionDesk json hasher submissions).next s.desk event }
  | asks {call : ℕ} {taskId : UInt64} : (s.collects call).phase = .idle →
      (s.desk.calls call).phase = .returned (some taskId) →
      Goes s (.ask call) (s.setCollect call { phase := .waiting, exchange := .sent })
  | hasNothing {call : ℕ} : (s.collects call).phase = .idle →
      (s.desk.calls call).phase = .returned none →
      Goes s (.ask call)
        (s.setCollect call { s.collects call with phase := .returned { exitCode := -1 } })
  | serves {call : ℕ} {taskId : UInt64} : (s.collects call).exchange = .sent →
      (s.desk.calls call).phase = .returned (some taskId) →
      Goes s (.serve call)
        { s.setCollect call { s.collects call with
            exchange := .served s.desk.dispatcher.calls.length 10000 } with
          desk := (submissionDesk json hasher submissions).next s.desk (.waitFind taskId) }
  | responds {call wait : ℕ} {msToWait : UInt32} {w : WaitCall} {response : HttpResponse} :
      (s.collects call).exchange = .served wait msToWait →
      s.desk.dispatcher.calls[wait]? = some w →
      w.phase.response waitJson.response.messageToJson msToWait = some response →
      Goes s (.respond call)
        (s.setCollect call { s.collects call with exchange := .answered response })
  | asksAgain {call fuel : ℕ} {response : HttpResponse} : (s.collects call).phase = .waiting →
      (s.collects call).exchange = .answered response → response.status = 503 →
      Goes s (.receive call fuel) (s.setCollect call { s.collects call with exchange := .sent })
  | reads {call fuel : ℕ} {response : HttpResponse} {outcome : Except Fault CompileResult} :
      (s.collects call).phase = .waiting → (s.collects call).exchange = .answered response →
      Client.waitForCloudCompileResult z waitJson.response fuel [some response] = some outcome →
      Goes s (.receive call fuel)
        (s.setCollect call { s.collects call with
          phase := match outcome with
            | .ok result => .returned result
            | .error fault => .crashed fault })
  | givesUp {call : ℕ} : (s.collects call).phase = .waiting →
      Goes s (.giveUp call)
        (s.setCollect call { s.collects call with phase := .returned { exitCode := -1 } })

theorem CollectState.setCollect_self (s : CollectState) (call : ℕ) :
    s.setCollect call (s.collects call) = s := by
  rw [CollectState.setCollect, Function.update_eq_self]

variable {waitJson} in
/-- **What a step does.** -/
theorem collect_goes (hreads : waitJson.ReadsRequests) (s : CollectState) (event : CollectEvent) :
    s.Goes json hasher submissions waitJson z event
      ((collectingDesk json hasher submissions waitJson z).next s event) := by
  show s.Goes json hasher submissions waitJson z event
    (collectStep json hasher submissions waitJson z s event)
  cases event with
  | desk event => exact .works
  | ask call =>
      rw [collectStep]
      split
      · next hidle =>
          split
          · next taskId hphase =>
              cases taskId with
              | some taskId => exact .asks hidle hphase
              | none => exact .hasNothing hidle hphase
          · exact .stays
      · exact .stays
  | serve call =>
      rw [collectStep]
      split
      · next taskId hsent hphase =>
          simp only [hreads taskId]
          rw [if_neg (by show ¬ (10000 : UInt32) < 10000; decide)]
          exact .serves hsent hphase
      · exact .stays
  | respond call =>
      rw [collectStep]
      split
      · next wait msToWait hserved =>
          split
          · next response hresponse =>
              obtain ⟨w, hw, hresponse⟩ := Option.bind_eq_some_iff.1 hresponse
              exact .responds hserved hw hresponse
          · exact .stays
      · exact .stays
  | receive call fuel =>
      rw [collectStep, CollectCall.receive]
      split
      · next response hwaiting hanswered =>
          split_ifs with hstatus
          · exact .asksAgain hwaiting hanswered hstatus
          · split
            · rw [s.setCollect_self]
              exact .stays
            · next result hresult => exact .reads hwaiting hanswered hresult
            · next fault hfault => exact .reads hwaiting hanswered hfault
      · rw [s.setCollect_self]
        exact .stays
  | giveUp call =>
      rw [collectStep]
      split
      · next hwaiting => exact .givesUp hwaiting
      · exact .stays

variable {json hasher submissions}

/-- What handing in does to the dispatcher. -/
theorem SubmitState.Goes.dispatcher {s s' : SubmitState} {event : SubmitEvent}
    (h : s.Goes json hasher submissions event s') :
    s'.dispatcher = s.dispatcher ∨
      ∃ input, s'.dispatcher = taskDispatcher.next s.dispatcher input ∧
        (input.isOwn = true → ∃ hown, event = .dispatcher input hown) := by
  cases h with
  | numbers => exact Or.inr ⟨.newTask _ _, rfl, fun hown => absurd hown Bool.false_ne_true⟩
  | inserts => exact Or.inr ⟨.insertTask _, rfl, fun hown => absurd hown Bool.false_ne_true⟩
  | works => exact Or.inr ⟨_, rfl, fun hown => ⟨hown, rfl⟩⟩
  | _ => exact Or.inl rfl

end Steps

/-! ### What stays -/

section Frames

variable {json : SubmitJson} {hasher : Hasher} {submissions : ℕ → Submission json}
  {s s' : SubmitState} {event : SubmitEvent}

/-- What was told stays told, and what was queued stays queued. -/
theorem SubmitState.Traced.kept (h : s.Traced json hasher submissions)
    (hstep : s.Goes json hasher submissions event s') :
    (∀ call content status, (s.calls call).digest = .answered content status →
        (s'.calls call).digest = .answered content status) ∧
      ∀ call attempt p, ((s.calls call).exchange attempt).place = some p →
        ((s'.calls call).exchange attempt).place = some p := by
  -- what the daemon does with an open request
  have hopen : ∀ {call attempt now}, ((s.calls call).exchange attempt).place = none ∨
      ((s.calls call).exchange attempt).place = now.place → ∀ other a p,
      ((s.calls other).exchange a).place = some p →
      (((s.setCall call ((s.calls call).setExchange attempt now)).calls other).exchange a).place =
        some p := by
    intro call attempt now hplace other a p hp
    rw [SubmitState.exchange_setCall]
    split_ifs with heq
    · obtain ⟨rfl, rfl⟩ := heq
      rcases hplace with hnone | hsame
      · rw [hnone] at hp
        cases hp
      · rw [← hsame, hp]
    · exact hp
  have hdigest : ∀ {call attempt now}, ∀ other content status,
      (s.calls other).digest = .answered content status →
      ((s.setCall call ((s.calls call).setExchange attempt now)).calls other).digest =
        .answered content status := fun other content status hold =>
    (s.digest_setCall _ other _ _).trans hold
  cases hstep with
  | stays | works => exact ⟨fun _ _ _ hold => hold, fun _ _ _ hold => hold⟩
  | @moves _ mover c hmoves =>
      obtain ⟨hexchange, htold⟩ := SubmitState.Moves.frame (h.calls mover) hmoves
      refine ⟨SubmitState.forall_setCall (P := fun other c => ∀ content status,
        (s.calls other).digest = .answered content status → c.digest = .answered content status)
        (fun _ _ _ _ hold => hold) htold, SubmitState.forall_setCall (P := fun other c =>
        ∀ attempt p, ((s.calls other).exchange attempt).place = some p →
          (c.exchange attempt).place = some p) (fun _ _ _ _ hold => hold) ?_⟩
      intro attempt p hp
      rcases hexchange attempt with hsame | ⟨hunsent, -⟩
      · rw [hsame, hp]
      · rw [hunsent] at hp
        cases hp
  | refuses hsent => exact ⟨hdigest, hopen (Or.inl (by rw [hsent]; rfl))⟩
  | prepares hsent => exact ⟨hdigest, hopen (Or.inl (by rw [hsent]; rfl))⟩
  | numbers hprepared => exact ⟨hdigest, hopen (Or.inl (by rw [hprepared]; rfl))⟩
  | inserts hnumbered => exact ⟨hdigest, hopen (Or.inr (by rw [hnumbered]; rfl))⟩
  | @learns teller content told ok hsent =>
      refine ⟨SubmitState.forall_setCall (P := fun other c => ∀ content status,
        (s.calls other).digest = .answered content status → c.digest = .answered content status)
        (fun _ _ _ _ hold => hold) ?_, SubmitState.forall_setCall (P := fun other c =>
        ∀ attempt p, ((s.calls other).exchange attempt).place = some p →
          (c.exchange attempt).place = some p) (fun _ _ _ _ hold => hold) fun _ _ hold => hold⟩
      intro content' status hold
      rw [hold] at hsent
      cases hsent

/-- An id that has been returned stays. -/
theorem SubmitState.returned_next {call : ℕ} {taskId : Option UInt64}
    (h : (s.calls call).phase = .returned taskId) (event : SubmitEvent) :
    (((submissionDesk json hasher submissions).next s event).calls call).phase =
      .returned taskId := by
  have hstep := next_goes json hasher submissions s event
  generalize (submissionDesk json hasher submissions).next s event = s' at hstep ⊢
  -- nobody writes to a call that has returned but the daemon
  have hother : ∀ {caller c}, (caller = call → c.phase = .returned taskId) →
      ((s.setCall caller c).calls call).phase = .returned taskId := by
    intro caller c hc
    simp only [SubmitState.setCall, Function.update_apply]
    split_ifs with heq
    · exact hc heq.symm
    · exact h
  cases hstep with
  | stays | works => exact h
  | moves hmoves =>
      refine hother fun heq => ?_
      subst heq
      cases hmoves with
      | givesUp hphase =>
          rcases hphase with ⟨attempt, hphase⟩ | hphase
          · rw [h] at hphase
            cases hphase
          · rw [h] at hphase
            cases hphase
      | begins hphase | hashes hphase | isRefused hphase | returns hphase | crashes hphase =>
          rw [h] at hphase
          cases hphase
      | tells hphase | resubmits hphase | isNotHeard hphase =>
          rw [h] at hphase
          cases hphase
  | refuses | prepares | numbers | inserts | learns => exact hother fun heq => heq ▸ h

/-- An object that has been put into the table has been put there. -/
theorem inserted_next {d : TaskDispatcher} {p : ℕ} {desc : TaskDesc} (hp : d.descs[p]? = some desc)
    (hinserted : desc.phase ≠ .created) (input : Input) :
    ∃ desc', (taskDispatcher.next d input).descs[p]? = some desc' ∧ desc'.phase ≠ .created := by
  obtain ⟨desc', hp', hchange⟩ := next_descs_change hp input
  exact ⟨desc', hp', fun hcreated => hinserted (hchange.created hcreated)⟩

/-- `QueueTask` puts the object there. -/
theorem inserted_insertTask {d : TaskDispatcher} {p : ℕ} {desc : TaskDesc}
    (hp : d.descs[p]? = some desc) :
    ∃ desc', (taskDispatcher.next d (.insertTask p)).descs[p]? = some desc' ∧
      desc'.phase ≠ .created := by
  by_cases hcreated : desc.phase = .created
  · have hnext : (taskDispatcher.next d (.insertTask p)).descs =
        (d.modifyWhere (· == p) fun desc => { desc with phase := .queued }).descs := by
      show (d.insertTask p).descs = _
      simp only [TaskDispatcher.insertTask, hp]
      rw [if_pos hcreated]
    refine ⟨{ desc with phase := .queued }, ?_, Phase.noConfusion⟩
    rw [hnext, TaskDispatcher.getElem?_modifyWhere, hp, Option.map_some,
      if_pos (beq_self_eq_true p)]
  · exact inserted_next hp hcreated _

/-- The object of a call that has been answered is in the table. -/
def SubmitState.Inserted (s : SubmitState) : Prop :=
  ∀ call attempt p body, (s.calls call).exchange attempt = .queued p body →
    ∃ desc, s.dispatcher.descs[p]? = some desc ∧ desc.phase ≠ .created

theorem SubmitState.Inserted.next (h : s.Inserted) (event : SubmitEvent) :
    ((submissionDesk json hasher submissions).next s event).Inserted := by
  have hstep := next_goes json hasher submissions s event
  generalize (submissionDesk json hasher submissions).next s event = s' at hstep ⊢
  intro call attempt p body
  -- an attempt that has been queued before
  have hold : (s.calls call).exchange attempt = .queued p body →
      ∃ desc, s'.dispatcher.descs[p]? = some desc ∧ desc.phase ≠ .created := by
    intro hqueued
    obtain ⟨desc, hp, hinserted⟩ := h call attempt p body hqueued
    rcases hstep.dispatcher with hsame | ⟨input, hnext, -⟩
    · exact ⟨desc, by rw [hsame, hp], hinserted⟩
    · rw [hnext]
      exact inserted_next hp hinserted input
  -- an attempt with which something else is done
  have hopen : ∀ {caller a now}, now ≠ .queued p body →
      ((s.setCall caller ((s.calls caller).setExchange a now)).calls call).exchange attempt =
        .queued p body → (s.calls call).exchange attempt = .queued p body := by
    intro caller a now hne hqueued
    rw [SubmitState.exchange_setCall] at hqueued
    split_ifs at hqueued with heq
    · exact absurd hqueued hne
    · exact hqueued
  cases hstep with
  | stays | works => exact hold
  | @moves _ mover c hmoves =>
      have hsubmit : ∀ a, ((s.calls mover).submit a).exchange attempt = .queued p body →
          (s.calls mover).exchange attempt = .queued p body := by
        intro a hqueued
        simp only [SubmitCall.submit, SubmitCall.setExchange, Function.update_apply] at hqueued
        split_ifs at hqueued
        exact hqueued
      intro hqueued
      refine hold ?_
      simp only [SubmitState.setCall, Function.update_apply] at hqueued
      split_ifs at hqueued with hmover
      · subst hmover
        cases hmoves with
        | begins => exact hsubmit _ hqueued
        | resubmits => exact hsubmit _ hqueued
        | _ => exact hqueued
      · exact hqueued
  | refuses => exact fun hqueued => hold (hopen Exchange.noConfusion hqueued)
  | prepares => exact fun hqueued => hold (hopen Exchange.noConfusion hqueued)
  | numbers => exact fun hqueued => hold (hopen Exchange.noConfusion hqueued)
  | @inserts caller place a desc hnumbered hdesc =>
      intro hqueued
      have hcall := s.exchange_setCall caller call a attempt
        (.queued place (json.messageToJson desc.taskId))
      rw [hcall] at hqueued
      split_ifs at hqueued with heq
      · cases hqueued
        exact inserted_insertTask hdesc
      · exact hold hqueued
  | @learns teller content told ok hsent =>
      refine fun hqueued => hold ?_
      revert hqueued
      refine SubmitState.forall_setCall (P := fun other c =>
        c.exchange attempt = .queued p body → (s.calls other).exchange attempt = .queued p body)
        (fun _ _ => id) ?_ call
      exact id

end Frames

/-! ### The dispatcher in a run -/

section Reached

variable {d : TaskDispatcher}

theorem exists_run_of_reachable (h : taskDispatcher.Reachable {} d)
    (hlen : d.descs.length ≤ 2 ^ 64) :
    ∃ is : List Input, is.countP Input.queues ≤ 2 ^ 64 ∧ taskDispatcher.run {} is = d := by
  obtain ⟨is, rfl⟩ := h
  refine ⟨is, ?_, rfl⟩
  rw [length_run] at hlen
  simpa using hlen

theorem sound_of_reachable (h : taskDispatcher.Reachable {} d) (hlen : d.descs.length ≤ 2 ^ 64) :
    Sound d := by
  obtain ⟨is, hcount, rfl⟩ := exists_run_of_reachable h hlen
  exact sound_run hcount

theorem keeps_of_reachable (h : taskDispatcher.Reachable {} d) (hlen : d.descs.length ≤ 2 ^ 64)
    {p : ℕ} {desc : TaskDesc} (hp : d.descs[p]? = some desc) : d.Keeps p desc := by
  obtain ⟨is, hcount, rfl⟩ := exists_run_of_reachable h hlen
  exact keeps_run hcount hp

theorem SubmitState.reachable_next {json : SubmitJson} {hasher : Hasher}
    {submissions : ℕ → Submission json} {s : SubmitState}
    (h : taskDispatcher.Reachable {} s.dispatcher) (event : SubmitEvent) :
    taskDispatcher.Reachable {}
      ((submissionDesk json hasher submissions).next s event).dispatcher := by
  rcases (next_goes json hasher submissions s event).dispatcher with hsame | ⟨input, hnext, -⟩
  · rw [hsame]
    exact h
  · obtain ⟨is, hrun⟩ := h
    exact ⟨is ++ [input], by rw [Machine.run_concat, hrun, hnext]⟩

/-- A call that returns a task has taken it out of its object. -/
theorem moved_of_returned {k : ℕ} {taskId : UInt64} {status : WaitStatus} {t : DistTask}
    {input : Input}
    (h : (taskDispatcher.next d input).calls[k]? = some ⟨taskId, .returned status (some t)⟩) :
    d.calls[k]? = some ⟨taskId, .returned status (some t)⟩ ∨
      status = .ok ∧ ∃ p desc, d.calls[k]? = some ⟨taskId, .erased p⟩ ∧ d.descs[p]? = some desc ∧
        desc.task = some t := by
  rcases next_calls_cases h with ⟨w, hw, hchange⟩ | hcalled
  · revert h
    generalize hw' : (⟨taskId, .returned status (some t)⟩ : WaitCall) = w' at hchange
    intro h
    cases hchange with
    | unchanged => exact Or.inl (hw' ▸ hw)
    | @moved _ p =>
        obtain ⟨rfl, hphase⟩ := WaitCall.mk.inj hw'
        obtain ⟨hok, hmoved⟩ := WaitPhase.returned.inj hphase
        obtain ⟨desc, hp, htask⟩ := Option.bind_eq_some_iff.1 hmoved.symm
        exact Or.inr ⟨hok, p, desc, hw, hp, htask⟩
    | timedOut | woken | erased => cases hw'
  · unfold TaskDispatcher.called at hcalled
    split at hcalled
    · split at hcalled <;> cases List.mem_singleton.1 hcalled
    · cases hcalled

/-- A call keeps its task, and what it has returned. -/
theorem CallChange.kept {input : Input} {k : ℕ} {w w' : WaitCall} (h : CallChange d input k w w') :
    w'.taskId = w.taskId ∧ ∀ status task, w.phase = .returned status task → w' = w := by
  cases h with
  | unchanged => exact ⟨rfl, fun _ _ _ => rfl⟩
  | timedOut | woken | erased | moved => exact ⟨rfl, fun _ _ hphase => by cases hphase⟩

/-- Only a call that is made now finds nothing. -/
theorem CallChange.notFound {input : Input} {k : ℕ} {w : WaitCall} {taskId : UInt64}
    {task : Option DistTask} (h : CallChange d input k w ⟨taskId, .returned .notFound task⟩) :
    w = ⟨taskId, .returned .notFound task⟩ := by
  cases h
  rfl

theorem mem_called {input : Input} {w : WaitCall} (h : w ∈ d.called input) :
    input = .waitFind w.taskId ∧
      ((d.tasks.lookup w.taskId = none ∧ w.phase = .returned .notFound none) ∨
        ∃ p, d.tasks.lookup w.taskId = some p ∧ w.phase = .found p) := by
  unfold TaskDispatcher.called at h
  split at h
  · next taskId =>
      split at h
      · next hlook =>
          obtain rfl := List.mem_singleton.1 h
          exact ⟨rfl, Or.inl ⟨hlook, rfl⟩⟩
      · next p hlook =>
          obtain rfl := List.mem_singleton.1 h
          exact ⟨rfl, Or.inr ⟨p, hlook, rfl⟩⟩
  · cases h

/-- What is known of an object that `OnTimerClear` may have dropped. -/
def TaskDispatcher.Late (d : TaskDispatcher) (p : ℕ) : Prop :=
  ∃ desc, d.descs[p]? = some desc ∧
    (desc.aborted = true ∨ desc.startDeadline + minute < d.clock)

theorem TaskDispatcher.Late.next {p : ℕ} (h : d.Late p) (input : Input) :
    (taskDispatcher.next d input).Late p := by
  obtain ⟨desc, hp, hlate⟩ := h
  obtain ⟨desc', hp', hchange⟩ := next_descs_change hp input
  refine ⟨desc', hp', hlate.imp (fun haborted => ?_) fun hover => ?_⟩
  · by_contra hne
    rw [hchange.aborted (Bool.not_eq_true _ ▸ hne)] at haborted
    cases haborted
  · rw [hchange.startDeadline]
    exact hover.trans_le (next_frame d input).2.1

end Reached

/-! ### The calls of the dispatcher in a step -/

section Waits

variable {json : SubmitJson} {hasher : Hasher} {submissions : ℕ → Submission json} {s : SubmitState}
  {k : ℕ}

/-- A call of the dispatcher keeps its task, and what it has returned. -/
theorem SubmitState.wait_kept {w : WaitCall} (hk : s.dispatcher.calls[k]? = some w)
    (event : SubmitEvent) :
    ∃ w', ((submissionDesk json hasher submissions).next s event).dispatcher.calls[k]? = some w' ∧
      w'.taskId = w.taskId ∧ ∀ status task, w.phase = .returned status task → w' = w := by
  rcases (next_goes json hasher submissions s event).dispatcher with hsame | ⟨input, hnext, -⟩
  · exact ⟨w, by rw [hsame, hk], rfl, fun _ _ _ => rfl⟩
  · obtain ⟨w', hk', hchange⟩ := next_calls_change hk input
    exact ⟨w', by rw [hnext, hk'], hchange.kept⟩

/-- A call of the dispatcher is one there was before, or it has just been made. -/
theorem SubmitState.wait_cases {event : SubmitEvent} {w' : WaitCall}
    (hk : ((submissionDesk json hasher submissions).next s event).dispatcher.calls[k]? = some w') :
    (∃ w input, s.dispatcher.calls[k]? = some w ∧ CallChange s.dispatcher input k w w') ∨
      (event = .waitFind w'.taskId ∧
        ((s.dispatcher.tasks.lookup w'.taskId = none ∧ w'.phase = .returned .notFound none) ∨
          ∃ p, s.dispatcher.tasks.lookup w'.taskId = some p ∧ w'.phase = .found p)) := by
  rcases (next_goes json hasher submissions s event).dispatcher with hsame | ⟨input, hnext, hown⟩
  · rw [hsame] at hk
    exact Or.inl ⟨w', .tick 0, hk, .unchanged⟩
  · rw [hnext] at hk
    rcases next_calls_cases hk with ⟨w, hw, hchange⟩ | hcalled
    · exact Or.inl ⟨w, input, hw, hchange⟩
    · obtain ⟨rfl, hfound⟩ := mem_called hcalled
      obtain ⟨hown, rfl⟩ := hown rfl
      exact Or.inr ⟨rfl, hfound⟩

end Waits

/-! ### Whose tasks are taken -/

section Grounds

variable (json : SubmitJson) (hasher : Hasher) (submissions : ℕ → Submission json)

/-- What is known of the daemon and of handing in: a task that has been taken is that of a call, and
it has been completed once. -/
structure SubmitState.Grounded (s : SubmitState) : Prop where
  traced : s.Traced json hasher submissions
  inserted : s.Inserted
  reached : taskDispatcher.Reachable {} s.dispatcher
  taken : ∀ (k : ℕ) (taskId : UInt64) (status : WaitStatus) (t : DistTask),
    s.dispatcher.calls[k]? = some ⟨taskId, .returned status (some t)⟩ →
    status = .ok ∧ ∃ call p output, taskId = UInt64.ofNat (p + 1) ∧ s.Queued call p ∧
      s.Asked json hasher submissions call t.task ∧ t.completions = [output]

variable {json hasher submissions}

theorem SubmitState.Grounded.start : SubmitState.Grounded json hasher submissions {} where
  traced := .start
  inserted := fun _ _ _ _ hqueued => by cases hqueued
  reached := .refl _
  taken := fun _ _ _ _ hk => by cases hk

theorem SubmitState.Grounded.next {s : SubmitState} (h : s.Grounded json hasher submissions)
    (hlen : s.dispatcher.descs.length ≤ 2 ^ 64) (event : SubmitEvent) :
    ((submissionDesk json hasher submissions).next s event).Grounded json hasher submissions where
  traced := h.traced.next event
  inserted := h.inserted.next event
  reached := SubmitState.reachable_next h.reached event
  taken := by
    intro k taskId status t hk
    obtain ⟨htold, hplace⟩ := h.traced.kept (next_goes json hasher submissions s event)
    obtain ⟨hok, call, p, output, hid, ⟨attempt, hp⟩, hasked, hcompleted⟩ :
        status = .ok ∧ ∃ call p output, taskId = UInt64.ofNat (p + 1) ∧ s.Queued call p ∧
          s.Asked json hasher submissions call t.task ∧ t.completions = [output] := by
      rcases (next_goes json hasher submissions s event).dispatcher with hsame | ⟨input, hnext, -⟩
      · rw [hsame] at hk
        exact h.taken k taskId status t hk
      · rw [hnext] at hk
        rcases moved_of_returned hk with hold | ⟨hok, p, desc, herased, hp, htask⟩
        · exact h.taken k taskId status t hold
        · have hsound := sound_of_reachable h.reached hlen
          obtain ⟨⟨desc', hp', hhad, -⟩, -⟩ := hsound.call k _ herased
          obtain rfl := Option.some_inj.1 (hp'.symm.trans hp)
          have hone := (hsound.desc p desc' hp).completed hhad.ended t htask
          obtain ⟨output, houtput⟩ := List.length_eq_one_iff.1 hone
          obtain ⟨call, hqueued⟩ := (h.traced.queued p).1 (List.getElem?_eq_some_iff.1 hp).1
          exact ⟨hok, call, p, output, hhad.taskId.symm.trans (hsound.taskId p desc' hp), hqueued,
            h.traced.tasks call p desc' t hqueued hp htask, houtput⟩
    exact ⟨hok, call, p, output, hid, ⟨attempt, hplace call attempt p hp⟩, hasked.mono htold,
      hcompleted⟩

/-- The object that a call has been given the id of. -/
theorem SubmitState.Grounded.place {s : SubmitState} (h : s.Grounded json hasher submissions)
    (hids : json.PrintsIds) {call : ℕ} {taskId : UInt64}
    (hphase : (s.calls call).phase = .returned (some taskId)) :
    ∃ p desc, s.Queued call p ∧ taskId = UInt64.ofNat (p + 1) ∧ s.dispatcher.descs[p]? = some desc ∧
      desc.taskId = taskId ∧ desc.phase ≠ .created := by
  obtain ⟨attempt, p, body, hqueued, hread⟩ := (h.traced.calls call).returned taskId hphase
  rw [h.traced.answered call attempt p body hqueued, readTaskId_messageToJson hids] at hread
  have hid : UInt64.ofNat (p + 1) = taskId := Option.some_inj.1 (Except.ok.inj hread)
  obtain ⟨desc, hp, hinserted⟩ := h.inserted call attempt p body hqueued
  exact ⟨p, desc, ⟨attempt, by rw [hqueued]; rfl⟩, hid.symm, hp,
    (h.traced.taskId p desc hp).trans hid, hinserted⟩

/-- As many calls as there are ids have different ids. -/
theorem SubmitState.Grounded.call_unique {s : SubmitState} (h : s.Grounded json hasher submissions)
    (hids : json.PrintsIds) (hlen : s.dispatcher.descs.length ≤ 2 ^ 64) {call p : ℕ}
    {taskId : UInt64} (hphase : (s.calls call).phase = .returned (some taskId))
    {owner : ℕ} (hqueued : s.Queued owner p) (hid : taskId = UInt64.ofNat (p + 1)) :
    call = owner ∧ s.Queued call p := by
  obtain ⟨q, desc, hq, hqid, hdesc, hsame, -⟩ := h.place hids hphase
  have hlt := (h.traced.queued p).2 ⟨owner, hqueued⟩
  have hp := List.getElem?_eq_getElem hlt
  obtain rfl : q = p := (sound_of_reachable h.reached hlen).place_unique hlen hdesc hp
    (by rw [hsame, hid, h.traced.taskId p _ hp])
  obtain ⟨attempt, hattempt⟩ := hq
  obtain ⟨attempt', hattempt'⟩ := hqueued
  exact ⟨(h.traced.unique call owner attempt attempt' q hattempt hattempt').1, attempt, hattempt⟩

end Grounds

/-! ### Where a result can be -/

section Invariant

variable (json : SubmitJson) (hasher : Hasher) (submissions : ℕ → Submission json)
  (waitJson : WaitJson) (z : Compressor)

/-- What comes of a call. -/
def CollectPhase.outcome : CollectPhase → Option (Except Fault CompileResult)
  | .returned result => some (.ok result)
  | .crashed fault => some (.error fault)
  | _ => none

/-- A call of the dispatcher for a client whose last request has come this far: it is for this
request, or the client has asked again. -/
def WaitExchange.Accounts (exchange : WaitExchange) (k : ℕ) (w : WaitCall) : Prop :=
  w.phase = .returned .timeout none ∨ exchange = .served k 10000 ∨
    ∃ response, exchange = .answered response ∧
      w.phase.response waitJson.response.messageToJson 10000 = some response

namespace CollectState

variable (s : CollectState)

/-- The call asks for this task. -/
def AsksFor (call : ℕ) (taskId : UInt64) : Prop :=
  (s.desk.calls call).phase = .returned (some taskId)

/-- The dispatcher has given this response for the task. -/
def Answered (taskId : UInt64) (response : HttpResponse) : Prop :=
  ∃ (k : ℕ) (phase : WaitPhase), s.desk.dispatcher.calls[k]? = some ⟨taskId, phase⟩ ∧
    phase.response waitJson.response.messageToJson 10000 = some response

/-- What the client returns or raises it has read in a response for its task. -/
def Read (call : ℕ) (outcome : Except Fault CompileResult) : Prop :=
  ∃ taskId response fuel, s.AsksFor call taskId ∧ s.Answered waitJson taskId response ∧
    Client.waitForCloudCompileResult z waitJson.response fuel [some response] = some outcome

/-- **The invariant**, after these events. -/
structure Followed (events : List CollectEvent) : Prop where
  grounded : s.desk.Grounded json hasher submissions
  idle : ∀ call, (s.collects call).phase = .idle → (s.collects call).exchange = .unsent
  asked : ∀ call, (s.collects call).exchange ≠ .unsent → ∃ taskId, s.AsksFor call taskId
  served : ∀ call k msToWait, (s.collects call).exchange = .served k msToWait → msToWait = 10000 ∧
    ∃ taskId phase, s.AsksFor call taskId ∧ s.desk.dispatcher.calls[k]? = some ⟨taskId, phase⟩
  answered : ∀ call response, (s.collects call).exchange = .answered response →
    ∃ taskId, s.AsksFor call taskId ∧ s.Answered waitJson taskId response
  accounted : ∀ (k : ℕ) (w : WaitCall), s.desk.dispatcher.calls[k]? = some w →
    .desk (.waitFind w.taskId) ∈ events ∨
      ∃ call, s.AsksFor call w.taskId ∧ (s.collects call).exchange.Accounts waitJson k w
  missing : ∀ (k : ℕ) (taskId : UInt64) (task : Option DistTask),
    s.desk.dispatcher.calls[k]? = some ⟨taskId, .returned .notFound task⟩ →
    .desk (.waitFind taskId) ∈ events ∨
      ∃ p, taskId = UInt64.ofNat (p + 1) ∧ s.desk.dispatcher.Late p
  outcome : ∀ call outcome, (s.collects call).phase.outcome = some outcome →
    (outcome = .ok { exitCode := -1 } ∧
      (.giveUp call ∈ events ∨ (s.desk.calls call).phase = .returned none)) ∨
    s.Read waitJson z call outcome

end CollectState

variable {json hasher submissions waitJson z}

theorem WaitPhase.returned_of_response {messageToJson : WaitForCXXTaskResponse → Bytes}
    {msToWait : UInt32} {phase : WaitPhase} {response : HttpResponse}
    (h : phase.response messageToJson msToWait = some response) :
    ∃ status task, phase = .returned status task := by
  cases phase with
  | returned status task => exact ⟨status, task, rfl⟩
  | _ => cases h

/-- Only a call that has run into its timeout is answered by a `503`. -/
theorem WaitPhase.timeout_of_busy {messageToJson : WaitForCXXTaskResponse → Bytes}
    {msToWait : UInt32} {phase : WaitPhase} {response : HttpResponse}
    (h : phase.response messageToJson msToWait = some response) (hbusy : response.status = 503) :
    phase = .returned .timeout none := by
  obtain ⟨status, task, rfl⟩ := WaitPhase.returned_of_response h
  cases task with
  | some t =>
      simp only [WaitPhase.response, httpWaitForTask, Option.some.injEq] at h
      subst h
      split_ifs at hbusy <;> cases hbusy
  | none =>
      cases status with
      | timeout => rfl
      | ok =>
          simp only [WaitPhase.response, Option.some.injEq] at h
          subst h
          cases hbusy
      | notFound =>
          simp only [WaitPhase.response, httpWaitForTask, Option.some.injEq] at h
          subst h
          split_ifs at hbusy <;> cases hbusy

namespace CollectState

variable {s : CollectState} {events : List CollectEvent}

theorem Followed.start : Followed json hasher submissions waitJson z {} [] where
  grounded := .start
  idle := fun _ _ => rfl
  asked := fun _ hne => absurd rfl hne
  served := fun _ _ _ heq => by cases heq
  answered := fun _ _ heq => by cases heq
  accounted := fun _ _ hk => by cases hk
  missing := fun _ _ _ hk => by cases hk
  outcome := fun _ _ heq => by cases heq

/-- **The invariant is kept by a step of one client**, if it is known where the client gets from. -/
theorem Followed.of_setCollect (h : s.Followed json hasher submissions waitJson z events)
    (event : CollectEvent) {call : ℕ} {c : CollectCall}
    (hidle : c.phase = .idle → c.exchange = .unsent)
    (hasked : c.exchange ≠ .unsent → ∃ taskId, s.AsksFor call taskId)
    (hserved : ∀ k msToWait, c.exchange = .served k msToWait →
      (s.collects call).exchange = .served k msToWait)
    (hanswered : ∀ response, c.exchange = .answered response →
      ∃ taskId, s.AsksFor call taskId ∧ s.Answered waitJson taskId response)
    (haccounted : ∀ k w, s.desk.dispatcher.calls[k]? = some w →
      (s.collects call).exchange.Accounts waitJson k w → c.exchange.Accounts waitJson k w)
    (houtcome : ∀ outcome, c.phase.outcome = some outcome →
      (s.collects call).phase.outcome = some outcome ∨
      (outcome = .ok { exitCode := -1 } ∧
        (event = .giveUp call ∨ (s.desk.calls call).phase = .returned none)) ∨
      s.Read waitJson z call outcome) :
    (s.setCollect call c).Followed json hasher submissions waitJson z (events ++ [event]) := by
  -- what holds of the other clients, and of this one, holds of all
  have hall : ∀ {P : ℕ → CollectCall → Prop}, (∀ other, P other (s.collects other)) → P call c →
      ∀ other, P other ((s.setCollect call c).collects other) := by
    intro P hother hc other
    simp only [setCollect, Function.update_apply]
    split_ifs with heq
    · exact heq ▸ hc
    · exact hother other
  constructor
  · exact h.grounded
  · exact hall (P := fun _ c => c.phase = .idle → c.exchange = .unsent) h.idle hidle
  · exact hall (P := fun other c => c.exchange ≠ .unsent → ∃ taskId, s.AsksFor other taskId)
      h.asked hasked
  · exact hall (P := fun other c => ∀ k msToWait, c.exchange = .served k msToWait →
      msToWait = 10000 ∧ ∃ taskId phase, s.AsksFor other taskId ∧
        s.desk.dispatcher.calls[k]? = some ⟨taskId, phase⟩) h.served
      fun k msToWait hc => h.served call k msToWait (hserved k msToWait hc)
  · exact hall (P := fun other c => ∀ response, c.exchange = .answered response →
      ∃ taskId, s.AsksFor other taskId ∧ s.Answered waitJson taskId response) h.answered hanswered
  · intro k w hk
    rcases h.accounted k w hk with hstranger | ⟨other, hasks, haccounts⟩
    · exact Or.inl (List.mem_append_left _ hstranger)
    · refine Or.inr ⟨other, hasks, ?_⟩
      exact hall (P := fun other c => (s.collects other).exchange.Accounts waitJson k w →
        c.exchange.Accounts waitJson k w) (fun _ => id) (haccounted k w hk) other haccounts
  · intro k taskId task hk
    exact (h.missing k taskId task hk).imp_left fun hmem => List.mem_append_left _ hmem
  · have hold : ∀ other outcome, (s.collects other).phase.outcome = some outcome →
        (outcome = .ok { exitCode := -1 } ∧ (.giveUp other ∈ events ++ [event] ∨
          (s.desk.calls other).phase = .returned none)) ∨ s.Read waitJson z other outcome :=
      fun other outcome heq => (h.outcome other outcome heq).imp_left fun hgave =>
        ⟨hgave.1, hgave.2.imp_left fun hmem => List.mem_append_left _ hmem⟩
    refine hall (P := fun other c => ∀ outcome, c.phase.outcome = some outcome →
      (outcome = .ok { exitCode := -1 } ∧ (.giveUp other ∈ events ++ [event] ∨
        (s.desk.calls other).phase = .returned none)) ∨ s.Read waitJson z other outcome) hold ?_
    intro outcome heq
    rcases houtcome outcome heq with hsame | ⟨hminus, hwhy⟩ | hread
    · exact hold call outcome hsame
    · refine Or.inl ⟨hminus, hwhy.imp_left fun heq => ?_⟩
      rw [heq]
      exact List.mem_append_right _ (List.mem_singleton_self _)
    · exact Or.inr hread

/-! #### Steps at the desk -/

section Desk

variable {s' : CollectState} {event : SubmitEvent}
  (hdesk : s'.desk = (submissionDesk json hasher submissions).next s.desk event)

include hdesk

theorem AsksFor.of_desk {call : ℕ} {taskId : UInt64} (h : s.AsksFor call taskId) :
    s'.AsksFor call taskId := by
  rw [AsksFor, hdesk]
  exact SubmitState.returned_next h event

theorem Answered.of_desk {taskId : UInt64} {response : HttpResponse}
    (h : s.Answered waitJson taskId response) : s'.Answered waitJson taskId response := by
  obtain ⟨k, phase, hk, hresponse⟩ := h
  obtain ⟨status, task, hphase⟩ := WaitPhase.returned_of_response hresponse
  obtain ⟨w', hk', -, hsame⟩ := SubmitState.wait_kept hk event
  refine ⟨k, phase, ?_, hresponse⟩
  rw [hdesk, hk', hsame status task hphase]

theorem Read.of_desk {call : ℕ} {outcome : Except Fault CompileResult}
    (h : s.Read waitJson z call outcome) : s'.Read waitJson z call outcome := by
  obtain ⟨taskId, response, fuel, hasks, hanswered, hread⟩ := h
  exact ⟨taskId, response, fuel, hasks.of_desk hdesk, hanswered.of_desk hdesk, hread⟩

theorem late_of_desk {p : ℕ} (h : s.desk.dispatcher.Late p) : s'.desk.dispatcher.Late p := by
  rw [hdesk]
  rcases (next_goes json hasher submissions s.desk event).dispatcher with
    hsame | ⟨input, hnext, -⟩
  · rw [hsame]
    exact h
  · rw [hnext]
    exact h.next input

/-- What is known of the outcomes stays. -/
theorem Followed.outcome_of_desk (h : s.Followed json hasher submissions waitJson z events)
    (e : CollectEvent) {call : ℕ} {outcome : Except Fault CompileResult}
    (heq : (s.collects call).phase.outcome = some outcome) :
    (outcome = .ok { exitCode := -1 } ∧
      (.giveUp call ∈ events ++ [e] ∨ (s'.desk.calls call).phase = .returned none)) ∨
    s'.Read waitJson z call outcome := by
  rcases h.outcome call outcome heq with ⟨hminus, hwhy⟩ | hread
  · refine Or.inl ⟨hminus, hwhy.imp (fun hmem => List.mem_append_left _ hmem) fun hnone => ?_⟩
    rw [hdesk]
    exact SubmitState.returned_next hnone event
  · exact Or.inr (hread.of_desk hdesk)

end Desk

/-- What a call of the dispatcher is for stays. -/
theorem Accounts.of_change {exchange : WaitExchange} {d : TaskDispatcher} {input : Input} {k : ℕ}
    {w w' : WaitCall} (h : exchange.Accounts waitJson k w) (hchange : CallChange d input k w w') :
    exchange.Accounts waitJson k w' := by
  rcases h with htimeout | hserved | ⟨response, hanswered, hresponse⟩
  · rw [hchange.kept.2 _ _ htimeout]
    exact Or.inl htimeout
  · exact Or.inr (Or.inl hserved)
  · obtain ⟨status, task, hphase⟩ := WaitPhase.returned_of_response hresponse
    rw [hchange.kept.2 _ _ hphase]
    exact Or.inr (Or.inr ⟨response, hanswered, hresponse⟩)

/-- **The invariant is kept by what happens at the desk.** -/
theorem Followed.of_works (h : s.Followed json hasher submissions waitJson z events)
    (hlen : s.desk.dispatcher.descs.length ≤ 2 ^ 64) (event : SubmitEvent) :
    { s with desk := (submissionDesk json hasher submissions).next s.desk event }.Followed
      json hasher submissions waitJson z (events ++ [CollectEvent.desk event]) := by
  constructor
  · exact h.grounded.next hlen event
  · exact h.idle
  · intro call hne
    obtain ⟨taskId, hasks⟩ := h.asked call hne
    exact ⟨taskId, hasks.of_desk rfl⟩
  · intro call k msToWait hserved
    obtain ⟨hms, taskId, phase, hasks, hk⟩ := h.served call k msToWait hserved
    obtain ⟨⟨taskId', phase'⟩, hk', rfl, -⟩ := SubmitState.wait_kept hk event
    exact ⟨hms, _, phase', hasks.of_desk rfl, hk'⟩
  · intro call response hanswered
    obtain ⟨taskId, hasks, hresponse⟩ := h.answered call response hanswered
    exact ⟨taskId, hasks.of_desk rfl, hresponse.of_desk rfl⟩
  · intro k w' hk
    rcases SubmitState.wait_cases hk with ⟨w, input, hw, hchange⟩ | ⟨rfl, -⟩
    · rw [hchange.kept.1]
      rcases h.accounted k w hw with hstranger | ⟨call, hasks, haccounts⟩
      · exact Or.inl (List.mem_append_left _ hstranger)
      · exact Or.inr ⟨call, hasks.of_desk rfl, Accounts.of_change haccounts hchange⟩
    · exact Or.inl (List.mem_append_right _ (List.mem_singleton_self _))
  · intro k taskId task hk
    rcases SubmitState.wait_cases hk with ⟨w, input, hw, hchange⟩ | ⟨rfl, -⟩
    · rw [hchange.notFound] at hw
      rcases h.missing k taskId task hw with hstranger | ⟨p, hid, hlate⟩
      · exact Or.inl (List.mem_append_left _ hstranger)
      · exact Or.inr ⟨p, hid, late_of_desk rfl hlate⟩
    · exact Or.inl (List.mem_append_right _ (List.mem_singleton_self _))
  · exact fun call outcome heq => h.outcome_of_desk rfl _ heq

/-- A client whose last request has not been served has no call of the dispatcher but those that
have run into their timeouts; so it asks for a task that is there, or that has been dropped. -/
theorem Followed.late_of_lookup (h : s.Followed json hasher submissions waitJson z events)
    (hids : json.PrintsIds) (hlen : s.desk.dispatcher.descs.length ≤ 2 ^ 64) {call : ℕ}
    {taskId : UInt64} (hsent : (s.collects call).exchange = .sent) (hasks : s.AsksFor call taskId)
    (hlook : s.desk.dispatcher.tasks.lookup taskId = none) :
    .desk (.waitFind taskId) ∈ events ∨
      ∃ p, taskId = UInt64.ofNat (p + 1) ∧ s.desk.dispatcher.Late p := by
  obtain ⟨p, desc, hqueued, hid, hp, hsame, hinserted⟩ := h.grounded.place hids hasks
  by_cases hlate : desc.aborted = true ∨ desc.startDeadline + minute < s.desk.dispatcher.clock
  · exact Or.inr ⟨p, hid, desc, hp, hlate⟩
  · obtain ⟨hkept, hearly⟩ := not_or.1 hlate
    rcases (keeps_of_reachable h.grounded.reached hlen hp).entry hinserted
      (Bool.not_eq_true _ ▸ hkept) (not_lt.1 hearly) with hentry | ⟨k, w, hk, hw, htook⟩
    · rw [hsame, hlook] at hentry
      cases hentry
    · rcases h.accounted k w hk with hstranger | ⟨other, hother, haccounts⟩
      · rw [hw, hsame] at hstranger
        exact Or.inl hstranger
      · rw [hw, hsame] at hother
        obtain ⟨rfl, -⟩ := h.grounded.call_unique hids hlen hother hqueued hid
        rw [hsent] at haccounts
        rcases haccounts with htimeout | hserved | ⟨response, hanswered, -⟩
        · rw [htimeout] at htook
          cases htook
        · cases hserved
        · cases hanswered

/-- What `TaskDispatcher::WaitForTask` finds. -/
theorem calls_waitFind (d : TaskDispatcher) (taskId : UInt64) :
    ∃ phase, (taskDispatcher.next d (.waitFind taskId)).calls = d.calls ++ [⟨taskId, phase⟩] ∧
      (∀ task, phase = .returned .notFound task → d.tasks.lookup taskId = none) := by
  show ∃ phase, (d.waitFind taskId).calls = _ ∧ _
  rw [TaskDispatcher.waitFind]
  split
  · next hlook => exact ⟨_, rfl, fun _ _ => hlook⟩
  · exact ⟨_, rfl, fun _ hphase => by cases hphase⟩

/-- **The invariant is kept when the daemon takes a request.** -/
theorem Followed.of_serves (h : s.Followed json hasher submissions waitJson z events)
    (hids : json.PrintsIds) (hlen : s.desk.dispatcher.descs.length ≤ 2 ^ 64) {call : ℕ}
    {taskId : UInt64} (hsent : (s.collects call).exchange = .sent) (hasks : s.AsksFor call taskId) :
    { s.setCollect call { s.collects call with
        exchange := .served s.desk.dispatcher.calls.length 10000 } with
      desk := (submissionDesk json hasher submissions).next s.desk (.waitFind taskId) }.Followed
        json hasher submissions waitJson z (events ++ [CollectEvent.serve call]) := by
  set s' : CollectState := { s.setCollect call { s.collects call with
      exchange := .served s.desk.dispatcher.calls.length 10000 } with
    desk := (submissionDesk json hasher submissions).next s.desk (.waitFind taskId) } with hs'
  have hdesk : s'.desk = (submissionDesk json hasher submissions).next s.desk (.waitFind taskId) :=
    rfl
  have hcollects : ∀ other, s'.collects other = if other = call then { s.collects call with
      exchange := .served s.desk.dispatcher.calls.length 10000 } else s.collects other :=
    fun other => Function.update_apply ..
  have hphase : ∀ other, (s'.collects other).phase = (s.collects other).phase := by
    intro other
    rw [hcollects]
    split_ifs with heq
    · rw [heq]
    · rfl
  obtain ⟨found, hcalls, hnone⟩ := calls_waitFind s.desk.dispatcher taskId
  replace hcalls : s'.desk.dispatcher.calls = s.desk.dispatcher.calls ++ [⟨taskId, found⟩] := hcalls
  -- a call of the dispatcher is one there was before, or the one of the client
  have hcases : ∀ {k : ℕ} {w : WaitCall}, s'.desk.dispatcher.calls[k]? = some w →
      s.desk.dispatcher.calls[k]? = some w ∨
        k = s.desk.dispatcher.calls.length ∧ w = ⟨taskId, found⟩ := by
    intro k w hk
    rw [hcalls, List.getElem?_append] at hk
    split_ifs at hk with hlt
    · exact Or.inl hk
    · rw [List.getElem?_singleton] at hk
      split_ifs at hk with hzero
      exact Or.inr ⟨by omega, (Option.some_inj.1 hk).symm⟩
  constructor
  · rw [hdesk]
    exact h.grounded.next hlen _
  · intro other hidle
    rw [hphase] at hidle
    rw [hcollects]
    split_ifs with heq
    · rw [heq] at hidle
      rw [h.idle call hidle] at hsent
      cases hsent
    · exact h.idle other hidle
  · intro other hne
    rw [hcollects] at hne
    split_ifs at hne with heq
    · exact ⟨taskId, heq ▸ hasks.of_desk hdesk⟩
    · obtain ⟨taskId', hasks'⟩ := h.asked other hne
      exact ⟨taskId', hasks'.of_desk hdesk⟩
  · intro other k msToWait hserved
    rw [hcollects] at hserved
    split_ifs at hserved with heq
    · cases hserved
      refine ⟨rfl, taskId, found, heq ▸ hasks.of_desk hdesk, ?_⟩
      rw [hcalls, List.getElem?_concat_length]
    · obtain ⟨hms, taskId', phase, hasks', hk⟩ := h.served other k msToWait hserved
      refine ⟨hms, taskId', phase, hasks'.of_desk hdesk, ?_⟩
      rw [hcalls, List.getElem?_append_left (List.getElem?_eq_some_iff.1 hk).1, hk]
  · intro other response hanswered
    rw [hcollects] at hanswered
    split_ifs at hanswered with heq
    obtain ⟨taskId', hasks', hresponse⟩ := h.answered other response hanswered
    exact ⟨taskId', hasks'.of_desk hdesk, hresponse.of_desk hdesk⟩
  · intro k w hk
    rcases hcases hk with hold | ⟨rfl, rfl⟩
    · rcases h.accounted k w hold with hstranger | ⟨other, hasks', haccounts⟩
      · exact Or.inl (List.mem_append_left _ hstranger)
      · refine Or.inr ⟨other, hasks'.of_desk hdesk, ?_⟩
        rw [hcollects]
        split_ifs with heq
        · rw [heq, hsent] at haccounts
          rcases haccounts with htimeout | hserved | ⟨response, hanswered, -⟩
          · exact Or.inl htimeout
          · cases hserved
          · cases hanswered
        · exact haccounts
    · refine Or.inr ⟨call, hasks.of_desk hdesk, Or.inr (Or.inl ?_)⟩
      rw [hcollects, if_pos rfl]
  · intro k taskId' task hk
    have hlost : .desk (.waitFind taskId') ∈ events ∨
        ∃ p, taskId' = UInt64.ofNat (p + 1) ∧ s.desk.dispatcher.Late p := by
      rcases hcases hk with hold | ⟨rfl, heq⟩
      · exact h.missing k taskId' task hold
      · obtain ⟨rfl, hfound⟩ := WaitCall.mk.inj heq
        exact h.late_of_lookup hids hlen hsent hasks (hnone task hfound.symm)
    rcases hlost with hstranger | ⟨p, hid, hlate⟩
    · exact Or.inl (List.mem_append_left _ hstranger)
    · exact Or.inr ⟨p, hid, late_of_desk hdesk hlate⟩
  · intro other outcome heq
    rw [hphase] at heq
    exact h.outcome_of_desk hdesk _ heq

/-! #### Whole runs -/

/-- **One step keeps the invariant.** -/
theorem Followed.next (h : s.Followed json hasher submissions waitJson z events)
    (hids : json.PrintsIds) (hreads : waitJson.ReadsRequests)
    (hlen : s.desk.dispatcher.descs.length ≤ 2 ^ 64) (event : CollectEvent) :
    ((collectingDesk json hasher submissions waitJson z).next s event).Followed
      json hasher submissions waitJson z (events ++ [event]) := by
  have hstep := collect_goes json hasher submissions z hreads s event
  generalize (collectingDesk json hasher submissions waitJson z).next s event = s' at hstep ⊢
  cases hstep with
  | stays =>
      have hself : (s.setCollect 0 (s.collects 0)).Followed json hasher submissions waitJson z
          (events ++ [event]) :=
        h.of_setCollect event (h.idle 0) (h.asked 0) (fun _ _ => id) (h.answered 0)
          (fun _ _ _ => id) fun _ => Or.inl
      rwa [s.setCollect_self] at hself
  | works => exact h.of_works hlen _
  | serves hsent hasks => exact h.of_serves hids hlen hsent hasks
  | asks hidle hphase =>
      refine h.of_setCollect _ (fun heq => by cases heq) (fun _ => ⟨_, hphase⟩)
        (fun _ _ heq => by cases heq) (fun _ heq => by cases heq) (fun k w hk haccounts => ?_)
        fun _ heq => by cases heq
      -- nothing has been sent before
      rw [h.idle _ hidle] at haccounts
      rcases haccounts with htimeout | hserved | ⟨_, hanswered, -⟩
      · exact Or.inl htimeout
      · cases hserved
      · cases hanswered
  | @hasNothing call hidle hphase =>
      refine h.of_setCollect _ (fun heq => by cases heq) (h.asked call) (fun _ _ => id)
        (h.answered call) (fun _ _ _ => id) fun outcome heq => ?_
      cases heq
      exact Or.inr (Or.inl ⟨rfl, Or.inr hphase⟩)
  | @responds call wait msToWait w response hserved hw hresponse =>
      obtain ⟨rfl, taskId, phase, hasks, hw'⟩ := h.served call wait msToWait hserved
      obtain rfl := Option.some_inj.1 (hw.symm.trans hw')
      refine h.of_setCollect _ (fun hidle => ?_) (fun _ => ⟨taskId, hasks⟩)
        (fun _ _ heq => by cases heq) (fun response' heq => ?_) (fun k w hk haccounts => ?_)
        fun _ => Or.inl
      · rw [h.idle call hidle] at hserved
        cases hserved
      · cases heq
        exact ⟨taskId, hasks, wait, phase, hw, hresponse⟩
      · rcases haccounts with htimeout | hserved' | ⟨_, hanswered, -⟩
        · exact Or.inl htimeout
        · obtain ⟨rfl, -⟩ := WaitExchange.served.inj (hserved.symm.trans hserved')
          obtain rfl := Option.some_inj.1 (hw.symm.trans hk)
          exact Or.inr (Or.inr ⟨response, rfl, hresponse⟩)
        · rw [hserved] at hanswered
          cases hanswered
  | @asksAgain call fuel response hwaiting hanswered hbusy =>
      obtain ⟨taskId, hasks, -⟩ := h.answered call response hanswered
      refine h.of_setCollect _ (fun hidle => ?_) (fun _ => ⟨taskId, hasks⟩)
        (fun _ _ heq => by cases heq) (fun _ heq => by cases heq) (fun k w hk haccounts => ?_)
        fun _ => Or.inl
      · rw [hwaiting] at hidle
        cases hidle
      · rcases haccounts with htimeout | hserved | ⟨response', hsame, hresponse⟩
        · exact Or.inl htimeout
        · rw [hanswered] at hserved
          cases hserved
        · rw [hanswered] at hsame
          cases hsame
          exact Or.inl (WaitPhase.timeout_of_busy hresponse hbusy)
  | @reads call fuel response outcome hwaiting hanswered hread =>
      obtain ⟨taskId, hasks, hresponse⟩ := h.answered call response hanswered
      refine h.of_setCollect _ (fun hidle => ?_) (h.asked call) (fun _ _ => id) (h.answered call)
        (fun _ _ _ => id) fun outcome' heq => ?_
      · cases outcome <;> cases hidle
      · have hsame : outcome' = outcome := by
          cases outcome <;> exact (Option.some_inj.1 heq).symm
        rw [hsame]
        exact Or.inr (Or.inr ⟨taskId, response, fuel, hasks, hresponse, hread⟩)
  | @givesUp call hwaiting =>
      refine h.of_setCollect _ (fun heq => by cases heq) (h.asked call) (fun _ _ => id)
        (h.answered call) (fun _ _ _ => id) fun outcome heq => ?_
      cases heq
      exact Or.inr (Or.inl ⟨rfl, Or.inl rfl⟩)

/-- Objects are only made. -/
theorem length_le_next (hreads : waitJson.ReadsRequests) (s : CollectState) (event : CollectEvent) :
    s.desk.dispatcher.descs.length ≤ ((collectingDesk json hasher submissions waitJson z).next s
      event).desk.dispatcher.descs.length := by
  have hdesk : ∀ e, s.desk.dispatcher.descs.length ≤
      ((submissionDesk json hasher submissions).next s.desk e).dispatcher.descs.length := by
    intro e
    rcases (next_goes json hasher submissions s.desk e).dispatcher with hsame | ⟨input, hnext, -⟩
    · rw [hsame]
    · rw [hnext, length_next]
      exact Nat.le_add_right _ _
  have hstep := collect_goes json hasher submissions z hreads s event
  generalize (collectingDesk json hasher submissions waitJson z).next s event = s' at hstep ⊢
  cases hstep with
  | works => exact hdesk _
  | serves => exact hdesk _
  | _ => exact le_rfl

/-- **The invariant holds in every run** that queues at most as many tasks as there are ids. -/
theorem followed_run (hids : json.PrintsIds) (hreads : waitJson.ReadsRequests)
    {events : List CollectEvent}
    (hlen : ((collectingDesk json hasher submissions waitJson z).run {}
      events).desk.dispatcher.descs.length ≤ 2 ^ 64) :
    ((collectingDesk json hasher submissions waitJson z).run {} events).Followed
      json hasher submissions waitJson z events := by
  induction events using List.reverseRecOn with
  | nil => exact .start
  | append_singleton events event ih =>
      rw [Machine.run_concat] at hlen ⊢
      have hbefore := (length_le_next hreads _ event).trans hlen
      exact (ih hbefore).next hids hreads hbefore event

end CollectState

end Invariant

end Local
