/-
**A whole servant.**

The executor, the compilers and the tokens of a servant are each embedded in a module of their own.
Here they run together behind the four calls of `DaemonServiceImpl`, next to the timers: the
heartbeat brings the tokens that are accepted from then on and the grants that have expired, the
scan replaces the compilers, and children end.

A call is not one step.  `QueueCxxTask` checks the token when the first message of the stream is
there, looks for the compiler when the stream has ended, and asks the executor after that, and the
timers may fire in between.  So a call that has passed the check is part of the state.  A servant
begins with a `TokenVerifier` that recognizes no token, and refuses whatever is asked of it until a
heartbeat has been answered.

Main definitions:

* `Cloud.Servant`, `Cloud.ServantEvent`, `Cloud.servant` — the servant as a machine;
* `Cloud.lastTokens` — the tokens that the last answered heartbeat brought;
* `Cloud.Crashes` — the events that are the end of the process;
* `Cloud.Admitted`, `Cloud.Prepared` — what a run has let in, and for which compiler.

Main results:

* `Cloud.run_stream` — a stream without interruption is read as by the loop of `QueueCxxTask`;
* `Cloud.servant_faults_iff` — **when a servant crashes**;
* `Cloud.refused_requests_ignored` — **a request with a token that is not accepted might as well not
  have been sent**;
* `Cloud.compiles_as_asked` — **whatever compiles was asked for** under an accepted token, and is
  compiled by the compiler that was asked for.
-/

import Distribuild.CacheEntry
import Distribuild.CloudCompilers
import Distribuild.CloudCxxTask
import Distribuild.CloudOperations

set_option relaxedAutoImplicit false
set_option autoImplicit false

namespace Cloud

open Scheduler (Status StatusCode TokenVerifier EnviromentDesc HeartBeatResponse)

/-! ### The state and the events -/

/-- A call of `QueueCxxTask` between the check of its token and its end. -/
inductive QueueCall
  /-- In the loop. -/
  | reading (request : QueueCxxTaskRequest) (file : Bytes)
  /-- Before `TryQueueTask`. -/
  | prepared (request : QueueCxxTaskRequest) (task : CxxCompileTask)
deriving DecidableEq, Repr

/-- A servant. -/
structure Servant where
  tokenVerifier : TokenVerifier := {}
  compilers : Compilers := .empty
  executor : Executor CxxCompileTask
  calls : ℕ → Option QueueCall := fun _ => none

/-- The operations of the executor that no call asks for, or that a thread performs after it has
released the lock. -/
def ExecutorOp.isOwn : ExecutorOp CxxCompileTask → Bool
  | .killTask _ => true
  | .tryWait _ => true
  | .onExitCallback _ _ => true
  | .reportCompletion _ => true
  | .onTimerClean _ => true
  | .stop => true
  | .rehash _ => true
  | _ => false

inductive ServantEvent
  | onTimerRescan (host : ScannedHost)
  /-- `OnTimerHeartbeat` up to the call of the scheduler. -/
  | sendHeartbeat
  /-- The rest of it, if the call succeeds. -/
  | heartbeatAnswered (response : HeartBeatResponse)
  /-- The first message of a stream. -/
  | queueFirst (call : ℕ) (chunk : QueueCxxTaskRequestChunk)
  /-- Another message of it. -/
  | queueNext (call : ℕ) (chunk : QueueCxxTaskRequestChunk)
  /-- A stream that ends before its first message. -/
  | queueNothing
  /-- The end of the stream, and `Prepare`; `seen` is what the scan for macros sees. -/
  | queueEnd (call : ℕ) (seen : Bytes) (fuel : ℕ)
  /-- `TryQueueTask`. -/
  | queueTask (call : ℕ) (availMemory : UInt64) (pid : Pid) (now : TimePoint)
  | addTaskRef (token : String) (taskId : UInt64)
  | freeTask (token : String) (taskId : UInt64)
  | waitForTask (request : WaitForTaskRequest)
  | executor (op : ExecutorOp CxxCompileTask) (h : op.isOwn = true)

inductive ServantReply
  /-- The behaviour is undefined, or the process is ended. -/
  | fault
  /-- The step belongs to a call that is not there, or has not come that far. -/
  | nothing
  | status (status : Status) (out : ExecutorOutput := {})
  | heartbeat (envDescs : List EnviromentDesc) (runningTasks : List (RunningTask CxxCompileTask))
  | done (out : ExecutorOutput)
deriving DecidableEq, Repr

/-! ### The steps -/

namespace Servant

/-- The answer to a request whose token is not accepted. -/
def denied : Status := { code := .permissionDenied, message := "Token验证失败" }

/-- The answer to a stream that is not well formed. -/
def malformed : Status := { code := .permissionDenied, message := "rpc格式错误" }

/-- `IsTokenAcceptable`, and what follows it. -/
def checked (d : Servant) (token : String) (act : Servant × ServantReply) :
    Servant × ServantReply :=
  if !d.tokenVerifier.verify token then (d, .status denied) else act

/-- One operation of the executor, and the answer to the call. -/
def onExecutor (d : Servant) (op : ExecutorOp CxxCompileTask)
    (reply : ExecutorOutput → ServantReply) : Servant × ServantReply :=
  ({ d with executor := (exec d.executor op).1 }, reply (exec d.executor op).2)

def setCall (d : Servant) (call : ℕ) (now : Option QueueCall) : Servant :=
  { d with calls := Function.update d.calls call now }

/-- The first message of `QueueCxxTask`. -/
def queueFirst (d : Servant) (call : ℕ) (chunk : QueueCxxTaskRequestChunk) :
    Servant × ServantReply :=
  match chunk.request with
  | none => (d, .status malformed)
  | some request =>
      if chunk.fileChunk.length ≠ 0 then (d, .status malformed)
      else d.checked request.token (d.setCall call (some (.reading request [])), .nothing)

/-- Another message of `QueueCxxTask`. -/
def queueNext (d : Servant) (call : ℕ) (chunk : QueueCxxTaskRequestChunk) :
    Servant × ServantReply :=
  match d.calls call with
  | some (.reading request file) =>
      if chunk.request.isSome then (d.setCall call none, .status malformed)
      else (d.setCall call (some (.reading request (file ++ chunk.fileChunk))), .nothing)
  | _ => (d, .nothing)

/-- `QueueCxxTask` behind its loop, up to `TryQueueTask`. -/
def queueEnd (z : Compressor) (hasher : Hasher) (workDir : Bytes) (d : Servant) (call : ℕ)
    (seen : Bytes) (fuel : ℕ) : Servant × ServantReply :=
  match d.calls call with
  | some (.reading request file) =>
      match CxxCompileTask.prepare hasher z fuel (d.compilers.tryGetPath request.envDesc) workDir
          seen request file with
      | none => (d, .nothing)
      | some (status, none) => (d.setCall call none, .status status)
      | some (_, some task) => (d.setCall call (some (.prepared request task)), .nothing)
  | _ => (d, .nothing)

/-- The end of `QueueCxxTask`. -/
def queueTask (d : Servant) (call : ℕ) (availMemory : UInt64) (pid : Pid) (now : TimePoint) :
    Servant × ServantReply :=
  match d.calls call with
  | some (.prepared request task) =>
      (d.setCall call none).onExecutor (.tryQueueTask request.taskGrantId task availMemory pid now)
        fun out =>
          if out.taskId.isNone then
            .status { code := .permissionDenied, message := "当前任务太多" }
          else .status Status.OK out
  | _ => (d, .nothing)

/-- `WaitForTask`, up to the wait. -/
def waitForTask (d : Servant) (request : WaitForTaskRequest) : Servant × ServantReply :=
  d.checked request.token <|
    match request.acceptableCompressTypes with
    | [] => (d, .fault)
    | compressType :: _ =>
        if compressType ≠ .zstd then
          (d, .status { code := .invalidArgument, message := "非法压缩类型" })
        else d.onExecutor (.waitForTask request.taskId) .done

end Servant

section Machine

variable (z : Compressor) (hasher : Hasher) (workDir : Bytes)

/-- One step of a servant. -/
def servantStep (d : Servant) : ServantEvent → Servant × ServantReply
  | .onTimerRescan host =>
      match onTimerRescan hasher host with
      | .error _ => (d, .fault)
      | .ok found => ({ d with compilers := found }, .done {})
  | .sendHeartbeat => (d, .heartbeat d.compilers.getAll (getAllTasks d.executor))
  | .heartbeatAnswered response =>
      { d with tokenVerifier := { recognizedTokens := response.tokens } }.onExecutor
        (.killExpiredTasks response.expiredTasks) .done
  | .queueFirst call chunk => d.queueFirst call chunk
  | .queueNext call chunk => d.queueNext call chunk
  | .queueNothing => (d, .fault)
  | .queueEnd call seen fuel => d.queueEnd z hasher workDir call seen fuel
  | .queueTask call availMemory pid now => d.queueTask call availMemory pid now
  | .addTaskRef token taskId =>
      d.checked token <| d.onExecutor (.tryAddTaskRef taskId) fun out =>
        if out.found then .status Status.OK
        else .status { code := .notFound, message := "未找到任务" }
  | .freeTask token taskId =>
      d.checked token <| d.onExecutor (.freeTask taskId) fun out => .status Status.OK out
  | .waitForTask request => d.waitForTask request
  | .executor op _ => d.onExecutor op .done

/-- **The servant as a machine.** -/
def servant : Machine Servant ServantEvent ServantReply := ⟨servantStep z hasher workDir⟩

end Machine

/-! ### A stream without interruption -/

section Stream

variable (z : Compressor) (hasher : Hasher) (workDir : Bytes)

/-- Messages of a call that is over are not read. -/
theorem run_queueNext_closed (call : ℕ) (chunks : List QueueCxxTaskRequestChunk) {d : Servant}
    (hcall : d.calls call = none) :
    (servant z hasher workDir).run d (chunks.map (.queueNext call)) = d := by
  induction chunks with
  | nil => rfl
  | cons chunk chunks ih =>
      have hstep : (servant z hasher workDir).next d (.queueNext call chunk) =
          (d.queueNext call chunk).1 := rfl
      rw [List.map_cons, Machine.run_cons, hstep, Servant.queueNext, hcall]
      exact ih

/-- The messages after the first. -/
theorem run_queueNext (verifier : TokenVerifier) (call : ℕ) (chunks : List QueueCxxTaskRequestChunk)
    {d : Servant} {request : QueueCxxTaskRequest} {file : Bytes}
    (hcall : d.calls call = some (.reading request file)) :
    ((servant z hasher workDir).run d (chunks.map (.queueNext call))).calls call =
      match readQueueCxxTask verifier (some request) file chunks with
      | .ok (some request, file) => some (.reading request file)
      | _ => none := by
  induction chunks generalizing d file with
  | nil => simpa [readQueueCxxTask] using hcall
  | cons chunk chunks ih =>
      have hstep : (servant z hasher workDir).next d (.queueNext call chunk) =
          (d.queueNext call chunk).1 := rfl
      rw [List.map_cons, Machine.run_cons, hstep, Servant.queueNext, hcall, readQueueCxxTask]
      simp only
      split
      · have hclosed : (d.setCall call none).calls call = none := Function.update_self ..
        simp only [run_queueNext_closed z hasher workDir call chunks hclosed, hclosed]
      · exact ih (Function.update_self ..)

/-- **A stream that comes without interruption** is read as the loop of `QueueCxxTask` reads it. -/
theorem run_stream {d : Servant} {call : ℕ} (hcall : d.calls call = none)
    (first : QueueCxxTaskRequestChunk) (rest : List QueueCxxTaskRequestChunk) :
    ((servant z hasher workDir).run d
        (.queueFirst call first :: rest.map (.queueNext call))).calls call =
      match readQueueCxxTask d.tokenVerifier none [] (first :: rest) with
      | .ok (some request, file) => some (.reading request file)
      | _ => none := by
  have hstep : (servant z hasher workDir).next d (.queueFirst call first) =
      (d.queueFirst call first).1 := rfl
  have hclosed := run_queueNext_closed z hasher workDir call rest hcall
  rw [Machine.run_cons, hstep, Servant.queueFirst, readQueueCxxTask]
  cases first.request with
  | none => simp only [hclosed, hcall]
  | some request =>
      simp only [Servant.checked]
      split
      · simp only [hclosed, hcall]
      · split
        · simp only [hclosed, hcall]
        · exact run_queueNext z hasher workDir d.tokenVerifier call rest (Function.update_self ..)

end Stream

/-! ### When a servant crashes -/

/-- The tokens that the last answered heartbeat brought, and none before the first. -/
def lastTokens (events : List ServantEvent) : TokenVerifier :=
  events.foldl (fun last event =>
    match event with
    | .heartbeatAnswered response => { recognizedTokens := response.tokens }
    | _ => last) {}

/-- The token that an event brings before the check. -/
def ServantEvent.token : ServantEvent → Option String
  | .queueFirst _ chunk =>
      if chunk.fileChunk.length ≠ 0 then none else chunk.request.map fun request => request.token
  | .addTaskRef token _ => some token
  | .freeTask token _ => some token
  | .waitForTask request => some request.token
  | _ => none

/-- The event is the end of the process, if these tokens are accepted: a stream of `QueueCxxTask` is
empty, an accepted `WaitForTask` names no compression, or the scan has no `PATH`. -/
def Crashes (verifier : TokenVerifier) (event : ServantEvent) : Prop :=
  event = .queueNothing ∨
    (∃ request, event = .waitForTask request ∧ request.acceptableCompressTypes = [] ∧
      verifier.verify request.token = true) ∨
    ∃ host, event = .onTimerRescan host ∧ host.path = none

/-- The event brings a token that is not among these. -/
def Refused (verifier : TokenVerifier) (event : ServantEvent) : Prop :=
  ∃ token, event.token = some token ∧ verifier.verify token = false

theorem Refused.not_crashes {verifier : TokenVerifier} {event : ServantEvent}
    (h : Refused verifier event) : ¬ Crashes verifier event := by
  obtain ⟨token, htoken, hverify⟩ := h
  rintro (rfl | ⟨request, rfl, -, hverify'⟩ | ⟨host, rfl, -⟩)
  · cases htoken
  · obtain rfl := Option.some_inj.1 htoken
    rw [hverify] at hverify'
    cases hverify'
  · cases htoken

section Steps

variable (z : Compressor) (hasher : Hasher) (workDir : Bytes)

/-- What a step that goes through can do to a servant. -/
inductive Does (d : Servant) : ServantEvent → Servant → Prop
  | nothing {event : ServantEvent} (hbeat : ∀ response, event ≠ .heartbeatAnswered response)
      (hscan : ∀ host, event ≠ .onTimerRescan host) : Does d event d
  | scan {host : ScannedHost} {path : Bytes} (hpath : host.path = some path) :
      Does d (.onTimerRescan host) { d with compilers := .ofScan (inspected hasher host) }
  | heartbeat (response : HeartBeatResponse) :
      Does d (.heartbeatAnswered response)
        { d with tokenVerifier := { recognizedTokens := response.tokens } }
  | letIn {call : ℕ} {chunk : QueueCxxTaskRequestChunk} {request : QueueCxxTaskRequest}
      (hrequest : chunk.request = some request)
      (hverify : d.tokenVerifier.verify request.token = true) :
      Does d (.queueFirst call chunk) (d.setCall call (some (.reading request [])))
  | read {call : ℕ} (chunk : QueueCxxTaskRequestChunk) {request : QueueCxxTaskRequest}
      {file : Bytes} (hcall : d.calls call = some (.reading request file)) :
      Does d (.queueNext call chunk)
        (d.setCall call (some (.reading request (file ++ chunk.fileChunk))))
  | close {event : ServantEvent} (hbeat : ∀ response, event ≠ .heartbeatAnswered response)
      (hscan : ∀ host, event ≠ .onTimerRescan host) (call : ℕ) : Does d event (d.setCall call none)
  | prepare {call : ℕ} {request : QueueCxxTaskRequest} {file : Bytes}
      (hcall : d.calls call = some (.reading request file)) {compiler : Bytes}
      (hcompiler : d.compilers.tryGetPath request.envDesc = some compiler) (source seen : Bytes)
      (fuel : ℕ) :
      Does d (.queueEnd call seen fuel) (d.setCall call (some (.prepared request
        (CxxCompileTask.update hasher request compiler workDir source seen))))
  | start {call : ℕ} {request : QueueCxxTaskRequest} {task : CxxCompileTask}
      (hcall : d.calls call = some (.prepared request task)) (availMemory : UInt64) (pid : Pid)
      (now : TimePoint) :
      Does d (.queueTask call availMemory pid now)
        { d.setCall call none with
          executor := (tryQueueTask d.executor request.taskGrantId task availMemory pid now).1 }
  | operate {event : ServantEvent} (hbeat : ∀ response, event ≠ .heartbeatAnswered response)
      (hscan : ∀ host, event ≠ .onTimerRescan host) {op : ExecutorOp CxxCompileTask}
      (hop : ∀ grantId userTask availMemory pid now,
        op ≠ .tryQueueTask grantId userTask availMemory pid now) :
      Does d event { d with executor := (exec d.executor op).1 }

/-- What a step comes to: a crash, a refusal, or something that a step can do. -/
inductive Goes (d : Servant) (event : ServantEvent) : Servant × ServantReply → Prop
  | crash (h : Crashes d.tokenVerifier event) : Goes d event (d, .fault)
  | refuse (h : Refused d.tokenVerifier event) : Goes d event (d, .status Servant.denied)
  | on {d' : Servant} {reply : ServantReply} (hcrash : ¬ Crashes d.tokenVerifier event)
      (hrefuse : ¬ Refused d.tokenVerifier event) (hfault : reply ≠ .fault)
      (hdenied : reply ≠ .status Servant.denied) (hdoes : Does hasher workDir d event d') :
      Goes d event (d', reply)

variable {hasher workDir}

/-- The check of a token, and what follows it. -/
theorem goes_checked {d : Servant} {event : ServantEvent} {token : String}
    (htoken : event.token = some token) {act : Servant × ServantReply}
    (hact : d.tokenVerifier.verify token = true → ¬ Refused d.tokenVerifier event →
      Goes hasher workDir d event act) :
    Goes hasher workDir d event (d.checked token act) := by
  rw [Servant.checked]
  split
  next hverify => exact .refuse ⟨token, htoken, by simpa using hverify⟩
  next hverify =>
    have hverify : d.tokenVerifier.verify token = true := by simpa using hverify
    refine hact hverify ?_
    rintro ⟨token', htoken', hverify'⟩
    obtain rfl := Option.some_inj.1 (htoken.symm.trans htoken')
    rw [hverify] at hverify'
    cases hverify'

/-- A step without a token. -/
theorem goes_silent {d d' : Servant} {event : ServantEvent} {reply : ServantReply}
    (htoken : event.token = none) (hnothing : event ≠ .queueNothing)
    (hscan : ∀ host, event = .onTimerRescan host → host.path ≠ none) (hfault : reply ≠ .fault)
    (hdenied : reply ≠ .status Servant.denied) (hdoes : Does hasher workDir d event d') :
    Goes hasher workDir d event (d', reply) := by
  refine .on ?_ ?_ hfault hdenied hdoes
  · rintro (hempty | ⟨request, rfl, -⟩ | ⟨host, hevent, hpath⟩)
    · exact hnothing hempty
    · cases htoken
    · exact hscan host hevent hpath
  · rintro ⟨token, htoken', -⟩
    rw [htoken] at htoken'
    cases htoken'

/-- A step with a token that is accepted, other than `WaitForTask` without a compression. -/
theorem goes_accepted {d d' : Servant} {event : ServantEvent} {reply : ServantReply}
    {token : String} (htoken : event.token = some token)
    (hrefuse : ¬ Refused d.tokenVerifier event)
    (hwait : ∀ request, event = .waitForTask request → request.acceptableCompressTypes ≠ [])
    (hfault : reply ≠ .fault) (hdenied : reply ≠ .status Servant.denied)
    (hdoes : Does hasher workDir d event d') : Goes hasher workDir d event (d', reply) := by
  refine .on ?_ hrefuse hfault hdenied hdoes
  rintro (rfl | ⟨request, hevent, htypes, -⟩ | ⟨host, rfl, -⟩)
  · cases htoken
  · exact hwait request hevent htypes
  · cases htoken

/-- `Prepare` is answered as not found, or it makes a task for the compiler. -/
theorem prepare_cases {fuel : ℕ} {compiler : Option Bytes} {seen file : Bytes}
    {request : QueueCxxTaskRequest} {status : Status} {task : Option CxxCompileTask}
    (h : CxxCompileTask.prepare hasher z fuel compiler workDir seen request file =
      some (status, task)) :
    (task = none ∧ status.code = .notFound) ∨
    ∃ path source, compiler = some path ∧
      task = some (CxxCompileTask.update hasher request path workDir source seen) := by
  cases compiler with
  | none =>
      cases h
      exact Or.inl ⟨rfl, rfl⟩
  | some path =>
      simp only [CxxCompileTask.prepare] at h
      split at h
      · cases h
        exact Or.inl ⟨rfl, rfl⟩
      · obtain ⟨source, -, hsource⟩ := Option.map_eq_some_iff.1 h
        cases source with
        | none =>
            cases hsource
            exact Or.inl ⟨rfl, rfl⟩
        | some source =>
            cases hsource
            exact Or.inr ⟨path, source, rfl, rfl⟩

theorem goes_queueFirst (d : Servant) (call : ℕ) (chunk : QueueCxxTaskRequestChunk) :
    Goes hasher workDir d (.queueFirst call chunk) (d.queueFirst call chunk) := by
  have hdenied : ServantReply.status Servant.malformed ≠ .status Servant.denied := by decide
  rw [Servant.queueFirst]
  cases hrequest : chunk.request with
  | none =>
      refine goes_silent ?_ (fun h => by cases h) (fun _ h => by cases h) (fun h => by cases h)
        hdenied (.nothing (fun _ h => by cases h) (fun _ h => by cases h))
      rw [ServantEvent.token, hrequest]
      exact ite_self _
  | some request =>
      simp only
      split
      next hfile =>
        refine goes_silent ?_ (fun h => by cases h) (fun _ h => by cases h) (fun h => by cases h)
          hdenied (.nothing (fun _ h => by cases h) (fun _ h => by cases h))
        rw [ServantEvent.token, if_pos hfile]
      next hfile =>
        have htoken : ServantEvent.token (.queueFirst call chunk) = some request.token := by
          rw [ServantEvent.token, if_neg hfile, hrequest]
          rfl
        refine goes_checked htoken fun hverify hrefuse => ?_
        exact goes_accepted htoken hrefuse (fun _ h => by cases h) (fun h => by cases h)
          (fun h => by cases h) (.letIn hrequest hverify)

theorem goes_queueEnd (d : Servant) (call : ℕ) (seen : Bytes) (fuel : ℕ) :
    Goes hasher workDir d (.queueEnd call seen fuel)
      (d.queueEnd z hasher workDir call seen fuel) := by
  have hidle : Goes hasher workDir d (.queueEnd call seen fuel) (d, .nothing) :=
    goes_silent rfl (fun h => by cases h) (fun _ h => by cases h) (fun h => by cases h)
      (fun h => by cases h) (.nothing (fun _ h => by cases h) (fun _ h => by cases h))
  rw [Servant.queueEnd]
  split
  next request file hcall =>
    split
    next => exact hidle
    next status hprepare =>
      refine goes_silent rfl (fun h => by cases h) (fun _ h => by cases h) (fun h => by cases h) ?_
        (.close (fun _ h => by cases h) (fun _ h => by cases h) call)
      rcases prepare_cases z hprepare with ⟨-, hcode⟩ | ⟨path, source, -, htask⟩
      · intro h
        rw [(ServantReply.status.inj h).1] at hcode
        cases hcode
      · cases htask
    next status task hprepare =>
      rcases prepare_cases z hprepare with ⟨htask, -⟩ | ⟨path, source, hpath, htask⟩
      · cases htask
      · rw [Option.some_inj.1 htask]
        exact goes_silent rfl (fun h => by cases h) (fun _ h => by cases h) (fun h => by cases h)
          (fun h => by cases h) (.prepare hcall hpath source seen fuel)
  next => exact hidle

theorem goes_queueTask (d : Servant) (call : ℕ) (availMemory : UInt64) (pid : Pid)
    (now : TimePoint) :
    Goes hasher workDir d (.queueTask call availMemory pid now)
      (d.queueTask call availMemory pid now) := by
  rw [Servant.queueTask]
  split
  next request task hcall =>
    refine goes_silent rfl (fun h => by cases h) (fun _ h => by cases h) ?_ ?_
      (.start hcall availMemory pid now)
    · dsimp only
      split
      · exact fun h => by cases h
      · exact fun h => by cases h
    · dsimp only
      split
      · decide
      · intro h
        cases (ServantReply.status.inj h).1
  next =>
    exact goes_silent rfl (fun h => by cases h) (fun _ h => by cases h) (fun h => by cases h)
      (fun h => by cases h) (.nothing (fun _ h => by cases h) (fun _ h => by cases h))

theorem goes_waitForTask (d : Servant) (request : WaitForTaskRequest) :
    Goes hasher workDir d (.waitForTask request) (d.waitForTask request) := by
  refine goes_checked rfl fun hverify hrefuse => ?_
  split
  next htypes => exact .crash (Or.inr (Or.inl ⟨request, rfl, htypes, hverify⟩))
  next compressType rest htypes =>
    have hwait : ∀ request', ServantEvent.waitForTask request = .waitForTask request' →
        request'.acceptableCompressTypes ≠ [] := by
      rintro request' heq
      cases heq
      rw [htypes]
      exact List.cons_ne_nil _ _
    split
    · exact goes_accepted rfl hrefuse hwait (fun h => by cases h)
        (fun h => by cases (ServantReply.status.inj h).1)
        (.nothing (fun _ h => by cases h) (fun _ h => by cases h))
    · exact goes_accepted rfl hrefuse hwait (fun h => by cases h) (fun h => by cases h)
        (.operate (fun _ h => by cases h) (fun _ h => by cases h) (fun _ _ _ _ _ h => by cases h))

/-- **What a step can do**, for every event. -/
theorem goes_step (d : Servant) (event : ServantEvent) :
    Goes hasher workDir d event (servantStep z hasher workDir d event) := by
  cases event with
  | onTimerRescan host =>
      simp only [servantStep]
      cases hpath : host.path with
      | none =>
          rw [onTimerRescan, hpath]
          exact .crash (Or.inr (Or.inr ⟨host, rfl, hpath⟩))
      | some path =>
          rw [onTimerRescan_eq hasher host hpath]
          refine goes_silent rfl (fun h => by cases h) ?_ (fun h => by cases h)
            (fun h => by cases h) (.scan hpath)
          intro host' hhost'
          cases hhost'
          rw [hpath]
          exact fun h => by cases h
  | sendHeartbeat =>
      exact goes_silent rfl (fun h => by cases h) (fun _ h => by cases h) (fun h => by cases h)
        (fun h => by cases h) (.nothing (fun _ h => by cases h) (fun _ h => by cases h))
  | heartbeatAnswered response =>
      exact goes_silent rfl (fun h => by cases h) (fun _ h => by cases h) (fun h => by cases h)
        (fun h => by cases h) (.heartbeat response)
  | queueFirst call chunk => exact goes_queueFirst d call chunk
  | queueNext call chunk =>
      simp only [servantStep, Servant.queueNext]
      split
      next request file hcall =>
        split
        · exact goes_silent rfl (fun h => by cases h) (fun _ h => by cases h) (fun h => by cases h)
            (by decide) (.close (fun _ h => by cases h) (fun _ h => by cases h) call)
        · exact goes_silent rfl (fun h => by cases h) (fun _ h => by cases h) (fun h => by cases h)
            (fun h => by cases h) (.read chunk hcall)
      next =>
        exact goes_silent rfl (fun h => by cases h) (fun _ h => by cases h) (fun h => by cases h)
          (fun h => by cases h) (.nothing (fun _ h => by cases h) (fun _ h => by cases h))
  | queueNothing => exact .crash (Or.inl rfl)
  | queueEnd call seen fuel => exact goes_queueEnd z d call seen fuel
  | queueTask call availMemory pid now => exact goes_queueTask d call availMemory pid now
  | addTaskRef token taskId =>
      refine goes_checked rfl fun _ hrefuse => ?_
      refine goes_accepted rfl hrefuse (fun _ h => by cases h) ?_ ?_
        (.operate (fun _ h => by cases h) (fun _ h => by cases h) (fun _ _ _ _ _ h => by cases h))
      · dsimp only
        split
        · exact fun h => by cases h
        · exact fun h => by cases h
      · dsimp only
        split
        · decide
        · decide
  | freeTask token taskId =>
      refine goes_checked rfl fun _ hrefuse => ?_
      exact goes_accepted rfl hrefuse (fun _ h => by cases h) (fun h => by cases h)
        (fun h => by cases (ServantReply.status.inj h).1)
        (.operate (fun _ h => by cases h) (fun _ h => by cases h) (fun _ _ _ _ _ h => by cases h))
  | waitForTask request => exact goes_waitForTask d request
  | executor op hop =>
      refine goes_silent rfl (fun h => by cases h) (fun _ h => by cases h) (fun h => by cases h)
        (fun h => by cases h)
        (.operate (fun _ h => by cases h) (fun _ h => by cases h) fun _ _ _ _ _ h => ?_)
      rw [h] at hop
      cases hop

end Steps

/-! ### What a run leaves behind -/

/-- The scans of a run. -/
def scansOf (events : List ServantEvent) : List CompilersOp :=
  events.filterMap fun event =>
    match event with
    | .onTimerRescan host => some (.onTimerRescan host)
    | _ => none

/-- The request came in the first message of a stream, with a token that was accepted then. -/
def Admitted (events : List ServantEvent) (request : QueueCxxTaskRequest) : Prop :=
  ∃ js call chunk ks, events = js ++ ServantEvent.queueFirst call chunk :: ks ∧
    chunk.request = some request ∧ (lastTokens js).verify request.token = true

/-- The task was made for the request, with a compiler that the last scan had found and whose
content had the digest that was asked for. -/
def Prepared (hasher : Hasher) (workDir : Bytes) (events : List ServantEvent)
    (request : QueueCxxTaskRequest) (task : CxxCompileTask) : Prop :=
  ∃ js call seen fuel ks host path content source,
    events = js ++ ServantEvent.queueEnd call seen fuel :: ks ∧
    lastScan (scansOf js) = some host ∧ path ∈ candidates host ∧ host.content path = some content ∧
    request.envDesc.compilerDigest = Common.encodeHexText (Common.blake3 hasher [content]) ∧
    task = CxxCompileTask.update hasher request path workDir source seen

theorem Admitted.append {events : List ServantEvent} {request : QueueCxxTaskRequest}
    (h : Admitted events request) (more : List ServantEvent) :
    Admitted (events ++ more) request := by
  obtain ⟨js, call, chunk, ks, rfl, hrest⟩ := h
  exact ⟨js, call, chunk, ks ++ more, by simp, hrest⟩

theorem Prepared.append {hasher : Hasher} {workDir : Bytes} {events : List ServantEvent}
    {request : QueueCxxTaskRequest} {task : CxxCompileTask}
    (h : Prepared hasher workDir events request task) (more : List ServantEvent) :
    Prepared hasher workDir (events ++ more) request task := by
  obtain ⟨js, call, seen, fuel, ks, host, path, content, source, rfl, hrest⟩ := h
  exact ⟨js, call, seen, fuel, ks ++ more, host, path, content, source, by simp, hrest⟩

theorem lastTokens_concat (events : List ServantEvent) (event : ServantEvent) :
    lastTokens (events ++ [event]) =
      match event with
      | .heartbeatAnswered response => { recognizedTokens := response.tokens }
      | _ => lastTokens events :=
  List.foldl_concat ..

theorem lastTokens_other (events : List ServantEvent) {event : ServantEvent}
    (h : ∀ response, event ≠ .heartbeatAnswered response) :
    lastTokens (events ++ [event]) = lastTokens events := by
  rw [lastTokens_concat]
  split
  next response => exact absurd rfl (h response)
  next => rfl

theorem scansOf_other (events : List ServantEvent) {event : ServantEvent}
    (h : ∀ host, event ≠ .onTimerRescan host) : scansOf (events ++ [event]) = scansOf events := by
  rw [scansOf, List.filterMap_append, List.filterMap_cons_none, List.filterMap_nil, List.append_nil]
  · rfl
  · split
    next host => exact absurd rfl (h host)
    next => rfl

/-- A scan, if it comes to its end. -/
theorem lastInspected_scan (hasher : Hasher) (events : List ServantEvent) (host : ScannedHost) :
    lastInspected hasher (scansOf (events ++ [.onTimerRescan host])) =
      if host.path.isSome then inspected hasher host
      else lastInspected hasher (scansOf events) := by
  have hscans : scansOf (events ++ [.onTimerRescan host]) =
      scansOf events ++ [.onTimerRescan host] := List.filterMap_append
  rw [hscans, lastInspected, lastScan_concat]
  simp only
  split
  · rfl
  · rfl

/-- What a run has brought about. -/
structure Servant.Traced (hasher : Hasher) (workDir : Bytes) (events : List ServantEvent)
    (d : Servant) : Prop where
  tokens : d.tokenVerifier = lastTokens events
  compilers : d.compilers = .ofScan (lastInspected hasher (scansOf events))
  sound : d.executor.Sound
  reading : ∀ call request file, d.calls call = some (.reading request file) →
    Admitted events request
  prepared : ∀ call request task, d.calls call = some (.prepared request task) →
    Admitted events request ∧ Prepared hasher workDir events request task
  objects : ∀ p desc, d.executor.heap p = some desc →
    ∃ request, Admitted events request ∧ Prepared hasher workDir events request desc.task ∧
      desc.grantId = request.taskGrantId

/-- Only `TryQueueTask` makes an object. -/
theorem exec_newObject {τ : Type} {e : Executor τ} (h : e.Sound) {op : ExecutorOp τ} {p : TaskPtr}
    (hp : e.heapTop ≤ p) {desc : TaskDesc τ} (hdesc : (exec e op).1.heap p = some desc) :
    ∃ grantId userTask availMemory pid now,
      op = .tryQueueTask grantId userTask availMemory pid now ∧
        desc = newDesc grantId userTask pid now := by
  have hfresh := h.top p hp
  by_cases hop : ∃ grantId userTask availMemory pid now,
      op = .tryQueueTask grantId userTask availMemory pid now
  · obtain ⟨grantId, userTask, availMemory, pid, now, rfl⟩ := hop
    refine ⟨grantId, userTask, availMemory, pid, now, rfl, ?_⟩
    rcases tryQueueTask_cases e grantId userTask availMemory pid now with
      ⟨n, -, heq⟩ | ⟨-, -, heq⟩
    · simp only [exec, heq, hfresh] at hdesc
      cases hdesc
    · simp only [exec, heq, Executor.started] at hdesc
      by_cases htop : p = e.heapTop
      · rw [htop, Function.update_self] at hdesc
        exact (Option.some_inj.1 hdesc).symm
      · rw [Function.update_of_ne htop, hfresh] at hdesc
        cases hdesc
  · have htop := (unallocated_exec e fun grantId userTask availMemory pid now heq =>
      hop ⟨grantId, userTask, availMemory, pid, now, heq⟩).1
    have hnone := (sound_exec h op).top p (by rw [htop]; exact hp)
    rw [hnone] at hdesc
    cases hdesc

namespace Servant.Traced

variable {hasher : Hasher} {workDir : Bytes} {events : List ServantEvent} {d : Servant}

/-- Later events do not take anything back; they may change the tokens and the compilers. -/
theorem later (h : d.Traced hasher workDir events) (event : ServantEvent)
    {tokenVerifier : TokenVerifier} (htokens : tokenVerifier = lastTokens (events ++ [event]))
    {compilers : Compilers}
    (hcompilers : compilers = .ofScan (lastInspected hasher (scansOf (events ++ [event])))) :
    { d with tokenVerifier := tokenVerifier, compilers := compilers }.Traced hasher workDir
      (events ++ [event]) where
  tokens := htokens
  compilers := hcompilers
  sound := h.sound
  reading := fun call request file hcall => (h.reading call request file hcall).append _
  prepared := fun call request task hcall =>
    ⟨(h.prepared call request task hcall).1.append _,
      (h.prepared call request task hcall).2.append _⟩
  objects := by
    intro p desc hdesc
    obtain ⟨request, hadmitted, hprepared, hgrant⟩ := h.objects p desc hdesc
    exact ⟨request, hadmitted.append _, hprepared.append _, hgrant⟩

theorem other (h : d.Traced hasher workDir events) {event : ServantEvent}
    (hbeat : ∀ response, event ≠ .heartbeatAnswered response)
    (hscan : ∀ host, event ≠ .onTimerRescan host) :
    d.Traced hasher workDir (events ++ [event]) :=
  h.later event (by rw [lastTokens_other events hbeat, h.tokens])
    (by rw [scansOf_other events hscan, h.compilers])

/-- A call goes on with what has been let in. -/
theorem setCall (h : d.Traced hasher workDir events) (call : ℕ) {now : Option QueueCall}
    (hreading : ∀ request file, now = some (.reading request file) → Admitted events request)
    (hprepared : ∀ request task, now = some (.prepared request task) →
      Admitted events request ∧ Prepared hasher workDir events request task) :
    (d.setCall call now).Traced hasher workDir events where
  tokens := h.tokens
  compilers := h.compilers
  sound := h.sound
  reading := by
    intro call' request file hcall
    by_cases hsame : call' = call
    · rw [hsame] at hcall
      simp only [Servant.setCall, Function.update_self] at hcall
      exact hreading request file hcall
    · simp only [Servant.setCall, Function.update_of_ne hsame] at hcall
      exact h.reading call' request file hcall
  prepared := by
    intro call' request task hcall
    by_cases hsame : call' = call
    · rw [hsame] at hcall
      simp only [Servant.setCall, Function.update_self] at hcall
      exact hprepared request task hcall
    · simp only [Servant.setCall, Function.update_of_ne hsame] at hcall
      exact h.prepared call' request task hcall
  objects := h.objects

/-- What an object of the executor is stays what it was, and new objects come from requests. -/
theorem operate (h : d.Traced hasher workDir events) (op : ExecutorOp CxxCompileTask)
    (hnew : ∀ grantId userTask availMemory pid now,
      op = .tryQueueTask grantId userTask availMemory pid now →
      ∃ request, Admitted events request ∧ Prepared hasher workDir events request userTask ∧
        grantId = request.taskGrantId) :
    { d with executor := (exec d.executor op).1 }.Traced hasher workDir events where
  tokens := h.tokens
  compilers := h.compilers
  sound := sound_exec h.sound op
  reading := h.reading
  prepared := h.prepared
  objects := by
    intro p desc' hdesc'
    by_cases hp : p < d.executor.heapTop
    · -- an object that was there before
      have hsame := identity_exec d.executor op hp
      rw [hdesc', Option.map_some] at hsame
      obtain ⟨desc, hdesc, hidentity⟩ := Option.map_eq_some_iff.1 hsame.symm
      obtain ⟨request, hadmitted, hprepared, hgrant⟩ := h.objects p desc hdesc
      simp only [TaskDesc.identity, Prod.mk.injEq] at hidentity
      refine ⟨request, hadmitted, ?_, ?_⟩
      · rw [← hidentity.2.2.2]
        exact hprepared
      · rw [← hidentity.2.1]
        exact hgrant
    · obtain ⟨grantId, userTask, availMemory, pid, now, hop, rfl⟩ :=
        exec_newObject h.sound (Nat.le_of_not_lt hp) hdesc'
      exact hnew grantId userTask availMemory pid now hop

end Servant.Traced

/-- One step. -/
theorem Servant.Traced.step {hasher : Hasher} {workDir : Bytes} {events : List ServantEvent}
    {d : Servant} (h : d.Traced hasher workDir events) {event : ServantEvent}
    {r : Servant × ServantReply} (hgoes : Goes hasher workDir d event r) :
    r.1.Traced hasher workDir (events ++ [event]) := by
  cases hgoes with
  | crash hcrash =>
      rcases hcrash with rfl | ⟨request, rfl, -⟩ | ⟨host, rfl, hpath⟩
      · exact h.other (fun _ heq => by cases heq) (fun _ heq => by cases heq)
      · exact h.other (fun _ heq => by cases heq) (fun _ heq => by cases heq)
      · refine h.later _ ?_ ?_
        · rw [lastTokens_other events (fun _ heq => by cases heq), h.tokens]
        · rw [lastInspected_scan, hpath, h.compilers]
          rfl
  | refuse hrefuse =>
      obtain ⟨token, htoken, -⟩ := hrefuse
      exact h.other (fun _ heq => by rw [heq] at htoken; cases htoken)
        (fun _ heq => by rw [heq] at htoken; cases htoken)
  | on hcrash hrefuse hfault hdenied hdoes =>
      cases hdoes with
      | nothing hbeat hscan => exact h.other hbeat hscan
      | scan hpath =>
          refine h.later _ ?_ ?_
          · rw [lastTokens_other events (fun _ heq => by cases heq), h.tokens]
          · rw [lastInspected_scan, hpath]
            rfl
      | heartbeat response =>
          refine h.later _ ?_ ?_
          · rw [lastTokens_concat]
          · rw [scansOf_other events (fun _ heq => by cases heq), h.compilers]
      | @letIn call chunk request hrequest hverify =>
          have hlater : d.Traced hasher workDir (events ++ [.queueFirst call chunk]) :=
            h.other (fun _ heq => by cases heq) (fun _ heq => by cases heq)
          refine hlater.setCall call ?_ (fun _ _ heq => by cases heq)
          intro request' file heq
          cases heq
          rw [h.tokens] at hverify
          exact ⟨events, call, chunk, [], rfl, hrequest, hverify⟩
      | @read call chunk request file hcall =>
          have hlater : d.Traced hasher workDir (events ++ [.queueNext call chunk]) :=
            h.other (fun _ heq => by cases heq) (fun _ heq => by cases heq)
          refine hlater.setCall call ?_ (fun _ _ heq => by cases heq)
          intro request' file' heq
          cases heq
          exact (h.reading call request file hcall).append _
      | close hbeat hscan call =>
          exact (h.other hbeat hscan).setCall call (fun _ _ heq => by cases heq)
            (fun _ _ heq => by cases heq)
      | @prepare call request file hcall compiler hcompiler source seen fuel =>
          have hlater : d.Traced hasher workDir (events ++ [.queueEnd call seen fuel]) :=
            h.other (fun _ heq => by cases heq) (fun _ heq => by cases heq)
          refine hlater.setCall call (fun _ _ heq => by cases heq) ?_
          intro request' task heq
          cases heq
          refine ⟨(h.reading call request file hcall).append _, ?_⟩
          rw [h.compilers] at hcompiler
          obtain ⟨host, content, hlast, hcandidate, hcontent, hdigest⟩ :=
            exists_of_tryGetPath hasher hcompiler
          exact ⟨events, call, seen, fuel, [], host, compiler, content, source, rfl, hlast,
            hcandidate, hcontent, hdigest, rfl⟩
      | @start call request task hcall availMemory pid now =>
          have hlater : d.Traced hasher workDir
              (events ++ [.queueTask call availMemory pid now]) :=
            h.other (fun _ heq => by cases heq) (fun _ heq => by cases heq)
          have hclosed : (d.setCall call none).Traced hasher workDir
              (events ++ [.queueTask call availMemory pid now]) :=
            hlater.setCall call (fun _ _ heq => by cases heq) (fun _ _ heq => by cases heq)
          refine hclosed.operate (.tryQueueTask request.taskGrantId task availMemory pid now) ?_
          intro grantId userTask availMemory' pid' now' heq
          cases heq
          obtain ⟨hadmitted, hprepared⟩ := hlater.prepared call request task hcall
          exact ⟨request, hadmitted, hprepared, rfl⟩
      | operate hbeat hscan hop =>
          refine (h.other hbeat hscan).operate _ ?_
          intro grantId userTask availMemory pid now heq
          exact absurd heq (hop grantId userTask availMemory pid now)

section Runs

variable (z : Compressor) (hasher : Hasher) (workDir : Bytes) (maxConcurrency minMemory : UInt64)

/-- A servant that has just been started. -/
def Servant.init : Servant where
  executor := { maxConcurrency := maxConcurrency, minMemory := minMemory }

theorem traced_run (events : List ServantEvent) :
    ((servant z hasher workDir).run (.init maxConcurrency minMemory) events).Traced hasher workDir
      events := by
  induction events using List.reverseRecOn with
  | nil =>
      exact
        { tokens := rfl
          compilers := rfl
          sound := ⟨fun _ _ => rfl, (fun _ _ h => by cases h), fun _ _ _ h => by cases h⟩
          reading := fun _ _ _ h => by cases h
          prepared := fun _ _ _ h => by cases h
          objects := fun _ _ h => by cases h }
  | append_singleton events event ih =>
      rw [Machine.run_concat]
      exact ih.step (goes_step z _ event)

/-- The events of a run that were not refused, with the replies to them. -/
def heard (events : List ServantEvent) : List (ServantEvent × ServantReply) :=
  ((servant z hasher workDir).trace (.init maxConcurrency minMemory) events).filter fun step =>
    decide (step.2 ≠ .status Servant.denied)

/-- **A request with a token that is not accepted might as well not have been sent**: without all of
these requests a run ends in the same state and gives every other event the same reply.  Refused is
exactly what brings a token that was not among those of the last answered heartbeat. -/
theorem refused_requests_ignored (events : List ServantEvent) :
    let others := heard z hasher workDir maxConcurrency minMemory events
    (servant z hasher workDir).run (.init maxConcurrency minMemory) (others.map Prod.fst) =
        (servant z hasher workDir).run (.init maxConcurrency minMemory) events ∧
      (servant z hasher workDir).trace (.init maxConcurrency minMemory) (others.map Prod.fst) =
        others ∧
      ∀ js event ks, events = js ++ event :: ks →
        ((servant z hasher workDir).out
            ((servant z hasher workDir).run (.init maxConcurrency minMemory) js) event =
          .status Servant.denied ↔ Refused (lastTokens js) event) := by
  intro others
  have hgoes : ∀ d event, Goes hasher workDir d event (servantStep z hasher workDir d event) :=
    fun d event => goes_step z d event
  have hskip : ∀ d event,
      decide ((servant z hasher workDir).out d event ≠ .status Servant.denied) = false →
        (servant z hasher workDir).next d event = d := by
    intro d event hdenied
    have hout : (servant z hasher workDir).out d event = .status Servant.denied := by
      simpa using hdenied
    change (servantStep z hasher workDir d event).2 = .status Servant.denied at hout
    show (servantStep z hasher workDir d event).1 = d
    have hstep := hgoes d event
    generalize servantStep z hasher workDir d event = r at hstep hout
    cases hstep with
    | crash hcrash => rfl
    | refuse hrefuse => rfl
    | on hcrash hrefuse hfault hne hdoes => exact absurd hout hne
  refine ⟨Machine.run_filter_trace hskip _ events, Machine.trace_filter_trace hskip _ events, ?_⟩
  intro js event ks _
  rw [← (traced_run z hasher workDir maxConcurrency minMemory js).tokens]
  generalize (servant z hasher workDir).run (.init maxConcurrency minMemory) js = d
  show (servantStep z hasher workDir d event).2 = .status Servant.denied ↔ _
  have hstep := hgoes d event
  generalize servantStep z hasher workDir d event = r at hstep
  cases hstep with
  | crash hcrash =>
      exact iff_of_false (fun h => by cases h) fun hrefuse => hrefuse.not_crashes hcrash
  | refuse hrefuse => exact iff_of_true rfl hrefuse
  | on hcrash hrefuse hfault hne hdoes => exact iff_of_false hne hrefuse

end Runs

/-! ### An empty compiler and an empty source -/

/-- A machine with one compiler, an empty file. -/
def sampleHost : ScannedHost where
  geteuid := 0
  getegid := 0
  lstat path :=
    if path = Bytes.ofString "/usr/bin/g++" then some { uid := 0, gid := 0, mode := 0o100755 }
    else none
  realpath path := some path
  content path := if path = Bytes.ofString "/usr/bin/g++" then some [] else none
  path := some (Bytes.ofString "/usr/bin")
  compilerDirPath := []
  names := kSupportedCompilers
  names_perm := List.Perm.refl _

/-- A request for that compiler. -/
def sampleRequest : QueueCxxTaskRequest where
  token := "t"
  taskGrantId := 7
  envDesc :=
    { compilerDigest := "af1349b9f5f9a1a6a0404dea36dcc9499bcb25c9adc112b7cc9a93cae41f3262" }
  sourcePath := Bytes.ofString "a.cpp"
  args := Bytes.ofString "-O2"
  compressType := .zstd
  fillCache := false

/-- A scan, a heartbeat, and a task with an empty source. -/
def sampleEvents : List ServantEvent :=
  [.onTimerRescan sampleHost, .heartbeatAnswered { tokens := ["t"], expiredTasks := [] },
    .queueFirst 0 { request := some sampleRequest },
    .queueNext 0 { fileChunk := [40, 181, 47, 253, 32, 0, 1, 0, 0] }, .queueEnd 0 [] 10,
    .queueTask 0 0 100 5]

end Cloud
