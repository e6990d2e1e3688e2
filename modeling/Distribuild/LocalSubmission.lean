/-
**Handing in a compile.**

A client hands its compile to the daemon on its machine with a `POST`.  The daemon knows a compiler
by its path, size and time, and not yet by its digest; a request that names a compiler it has not
seen is answered by a `400`, and then the client hashes the compiler, tells the daemon the digest
and hands in the same request once more.  Any number of clients do this at once, and each of them
may give up at any time while the daemon goes on with what it has been sent.

This module puts the two sides together: `SubmitComileTask` of `client/cxx/compilition.cpp`, and
`SubmitCxxTask` and `SetFileDigest` of `daemon/local/http_service_impl.cpp` over the dispatcher and
the known compilers.  An event is what one of them does before another can see it.  For `FileCache::Set` that
is an assumption: it writes the table under a `shared_lock`, so that two handlers may be in it at
once; here one comes after the other.

Main definitions:

* `Local.SubmitJson` — what the two sides use of their JSON libraries;
* `Local.submitCxxTask` — the handler, up to `QueueTask`;
* `Local.SubmitState`, `Local.SubmitEvent`, `Local.submissionDesk` — the clients and the daemon, as
  a machine;
* `Local.SubmitState.Queued` — a task has been queued for a call.

Main results:

* `Local.submitCxxTask_body` — what the handler makes of the body that a client sends;
* `Local.next_goes` — **what a step does**, once for all;
* `Local.SubmitState.Traced.next`, `Local.SubmitState.traced_run` — **the invariant holds in every
  run**.
-/

import Distribuild.CloudCompilers
import Distribuild.LocalHttpService
import Distribuild.LocalLifecycle
import Distribuild.MultiChunk
import Distribuild.OutputDelivery

set_option relaxedAutoImplicit false
set_option autoImplicit false

namespace Local

open Client (Json IsUtf8)
open Cloud (TimePoint minute)

/-! ### The two libraries -/

/-- What the two sides use of their libraries: jsoncpp on that of the client, protobuf on that of
the daemon. -/
structure SubmitJson where
  /-- `Json::FastWriter`, for the request. -/
  fastWriter : SubmitCxxTaskRequest → Bytes
  /-- `JsonStringToMessage`, for the request. -/
  jsonStringToRequest : Bytes → Option SubmitCxxTaskRequest
  /-- `Json::writeString`, for the digest. -/
  writeString : SetFileDigestRequest → Bytes
  /-- The libraries of the daemon, for the digest. -/
  library : JsonLibrary
  /-- `MessageToJson`, for the id. -/
  messageToJson : UInt64 → Bytes
  /-- `Json::Reader`. -/
  parse : Bytes → Option Json

/-- The fields of the request are texts and numbers of 32 bits. -/
structure SubmitCxxTaskRequest.Printable (req : SubmitCxxTaskRequest) : Prop where
  sourcePath : IsUtf8 req.sourcePath
  sourceDigest : IsUtf8 req.sourceDigest
  compilerArgs : IsUtf8 req.compilerArgs
  compilerPath : IsUtf8 req.compiler.path
  requestorPid : -2 ^ 31 ≤ req.requestorPid ∧ req.requestorPid < 2 ^ 31
  cacheControl : -2 ^ 31 ≤ req.cacheControl ∧ req.cacheControl < 2 ^ 31

namespace SubmitJson

/-- The client reads the id that the daemon writes: numbers of 64 bits are written as texts. -/
def PrintsIds (json : SubmitJson) : Prop :=
  ∀ taskId : UInt64, json.parse (json.messageToJson taskId) =
    some (.object [(Bytes.ofString "task_id", .string (Bytes.decimal taskId.toNat))])

/-- The daemon reads a request that the client writes, if its fields can be written. -/
def ReadsRequest (json : SubmitJson) (req : SubmitCxxTaskRequest) : Prop :=
  req.Printable →
    json.fastWriter req ≠ [] ∧ json.jsonStringToRequest (json.fastWriter req) = some req

/-- The daemon reads a digest that the client writes, if the path is a text. -/
def ReadsDigest (json : SubmitJson) (req : SetFileDigestRequest) : Prop :=
  IsUtf8 req.fileDesc.path →
    json.library.jsonStringToMessage (json.writeString req) = (true, req)

end SubmitJson

/-! ### The handler -/

section Handler

variable (json : SubmitJson)

/-- `SubmitCxxTask` up to `QueueTask`: the task, or the status that is sent instead.  The `catch`
clauses take every exception. -/
def submitCxxTask (cache : FileCache) (body : Bytes) :
    Except Fault (Except HttpStatus CxxDistTask) :=
  match Common.tryParseMultiChunk body with
  | .error .undefined => .error .undefined
  | .error _ => .ok (.error .internalServerError)
  | .ok none => .ok (.error .badRequest)
  | .ok (some []) => .ok (.error .badRequest)
  | .ok (some (front :: bytes)) =>
      match json.jsonStringToRequest front with
      | none => .ok (.error .badRequest)
      | some req =>
          match CxxDistTask.prepare req bytes
              (cache.tryGet req.compiler.path req.compiler.size req.compiler.mtime) with
          | .error .undefined => .error .undefined
          | .error _ => .ok (.error .internalServerError)
          | .ok (_, none) => .ok (.error .badRequest)
          | .ok (_, some task) => .ok (.ok task)

/-- What a call of `SubmitComileTask` hands in.  The source is a frame of zstd and so is not empty; if
it were, the check of `CompileOnCloud` would only log that.  The request fits into memory. -/
structure Submission where
  request : SubmitCxxTaskRequest
  zstdRewritten : Bytes
  notEmpty : zstdRewritten ≠ []
  fits : (json.fastWriter request ++ zstdRewritten).length < 2 ^ 63 - 1

namespace Submission

variable {json} (submission : Submission json)

/-- The parts behind the first line. -/
def parts : List Bytes := [json.fastWriter submission.request, submission.zstdRewritten]

/-- The body of the request. -/
def body : Bytes :=
  Common.makeMultiChunkHeaderLine submission.parts ++ submission.parts.flatten

/-- The digest that the client tells the daemon, where `content` is that of the compiler. -/
def digestRequest (hasher : Hasher) (content : Bytes) : SetFileDigestRequest where
  fileDesc := submission.request.compiler
  digest := Common.encodeHexText (Common.blake3 hasher [content])

end Submission

/-- The end of `SubmitComileTask`: the id in the body of the response. -/
def readTaskId (body : Bytes) : Except Fault (Option UInt64) :=
  match json.parse body with
  | none => .ok none
  | some jsonValue => do
      match ← jsonValue.member "task_id" with
      | .string text => return some (UInt64.ofNat (← Bytes.stoul text))
      | _ => return none

end Handler

/-! ### What the handler makes of the body -/

section Body

variable {json : SubmitJson} (submission : Submission json) (cache : FileCache)

/-- The parts are read back. -/
theorem Submission.tryParse_body :
    Common.tryParseMultiChunk submission.body =
      .ok (if [] ∈ submission.parts then none else some submission.parts) := by
  have hne : submission.parts ≠ [] := List.cons_ne_nil _ _
  have hsize : submission.parts.flatten.length < 2 ^ 63 - 1 := by
    have hflatten : submission.parts.flatten =
        json.fastWriter submission.request ++ submission.zstdRewritten := by
      rw [Submission.parts, List.flatten_cons, List.flatten_singleton]
    rw [hflatten]
    exact submission.fits
  rw [Submission.body, Common.makeMultiChunkHeaderLine_eq hne]
  exact Common.tryParseMultiChunk_fieldLine 0 hsize

/-- **What the handler makes of the body that a client sends**: it is defined, a task is made of the
request as it arrives, under the digest that is known of its compiler, and what is not accepted is
answered by a `400`. -/
theorem submitCxxTask_body :
    (submitCxxTask json cache submission.body = .ok (.error .badRequest)) ∨
      ∃ message compilerDigest,
        json.jsonStringToRequest (json.fastWriter submission.request) = some message ∧
          cache.tryGet message.compiler.path message.compiler.size message.compiler.mtime =
            some compilerDigest ∧
          submitCxxTask json cache submission.body =
            .ok (.ok (.update message compilerDigest submission.zstdRewritten)) := by
  rw [submitCxxTask, submission.tryParse_body]
  split_ifs with hempty
  · exact Or.inl rfl
  · cases hmessage : json.jsonStringToRequest (json.fastWriter submission.request) with
    | none => exact Or.inl (by simp only [Submission.parts, hmessage])
    | some message =>
        simp only [Submission.parts, hmessage, CxxDistTask.prepare]
        split_ifs with hfields
        · exact Or.inl rfl
        · cases hcache : cache.tryGet message.compiler.path message.compiler.size
              message.compiler.mtime with
          | none => exact Or.inl rfl
          | some compilerDigest => exact Or.inr ⟨message, compilerDigest, rfl, hcache, rfl⟩

end Body

/-! ### The clients and the daemon -/

/-- The two times a request is handed in. -/
inductive Attempt
  | first
  | second
deriving DecidableEq, Repr

/-- How far an attempt has come on the side of the daemon. -/
inductive Exchange
  | unsent
  | sent
  /-- `Prepare` has made the task. -/
  | prepared (task : CxxDistTask)
  /-- `QueueTask` has made the object at this place. -/
  | numbered (place : ℕ)
  /-- The object is in the table, and the response has been sent. -/
  | queued (place : ℕ) (body : Bytes)
  | refused (status : HttpStatus)
  /-- The behaviour is undefined. -/
  | faulted
deriving DecidableEq, Repr

/-- The object that was made. -/
def Exchange.place : Exchange → Option ℕ
  | .numbered place => some place
  | .queued place _ => some place
  | _ => none

/-- How far the request has come that tells a digest, with the content that was read. -/
inductive DigestExchange
  | unsent
  | sent (content : Bytes)
  | answered (content : Bytes) (status : Option HttpStatus)
deriving DecidableEq, Repr

/-- How far a call of `SubmitComileTask` has come. -/
inductive SubmitPhase
  | idle
  /-- It waits for the response to an attempt. -/
  | submitting (attempt : Attempt)
  /-- It is in `GetFileDigest`. -/
  | hashing
  /-- It waits for the response to `/local/set_file_digest`. -/
  | digesting
  | returned (taskId : Option UInt64)
  /-- An exception has ended the process. -/
  | crashed (fault : Fault)
deriving DecidableEq, Repr

/-- A call of `SubmitComileTask`, with what the daemon makes of its requests. -/
structure SubmitCall where
  phase : SubmitPhase := .idle
  exchange : Attempt → Exchange := fun _ => .unsent
  digest : DigestExchange := .unsent

namespace SubmitCall

variable (c : SubmitCall)

/-- An attempt has come this far. -/
def setExchange (attempt : Attempt) (now : Exchange) : SubmitCall :=
  { c with exchange := Function.update c.exchange attempt now }

/-- The client sends its request. -/
def submit (attempt : Attempt) : SubmitCall :=
  { c.setExchange attempt .sent with phase := .submitting attempt }

end SubmitCall

/-- The clients and the daemon. -/
structure SubmitState where
  fileCache : FileCache := {}
  dispatcher : TaskDispatcher := {}
  calls : ℕ → SubmitCall := fun _ => {}

def SubmitState.setCall (s : SubmitState) (call : ℕ) (now : SubmitCall) : SubmitState :=
  { s with calls := Function.update s.calls call now }

/-- The inputs of the dispatcher that are not part of `QueueTask`. -/
def Input.isOwn : Input → Bool
  | .newTask _ _ => false
  | .insertTask _ => false
  | _ => true

inductive SubmitEvent
  /-- A call begins. -/
  | begin (call : ℕ)
  /-- `SubmitCxxTask` up to `QueueTask`. -/
  | submitCxxTask (call : ℕ) (attempt : Attempt)
  /-- `QueueTask` makes the object; the handler has read the clock at `now` or before. -/
  | newTask (call : ℕ) (attempt : Attempt) (now : TimePoint)
  /-- `QueueTask` puts it into the table, and the response is sent. -/
  | insertTask (call : ℕ) (attempt : Attempt)
  /-- The client has the response to its last request. -/
  | receive (call : ℕ)
  /-- `GetFileDigest` has read the compiler, and the digest is sent. -/
  | getFileDigest (call : ℕ) (content : Bytes)
  /-- `SetFileDigest`, in one step. -/
  | setFileDigest (call : ℕ)
  /-- `DaemonHttpCall` runs into its timeout, or the connection breaks. -/
  | giveUp (call : ℕ)
  | dispatcher (input : Input) (h : input.isOwn = true)

section Machine

variable (json : SubmitJson) (hasher : Hasher) (submissions : ℕ → Submission json)

/-- What the client makes of the response to an attempt. -/
def SubmitCall.receiveAttempt (c : SubmitCall) (attempt : Attempt) : SubmitCall :=
  match c.exchange attempt with
  | .refused status =>
      { c with
        phase := if status = .badRequest ∧ attempt = .first then .hashing else .returned none }
  | .queued _ body =>
      { c with
        phase := match readTaskId json body with
          | .ok taskId => .returned taskId
          | .error fault => .crashed fault }
  | _ => c

/-- What the client makes of the response to its last request. -/
def SubmitCall.receive (c : SubmitCall) : SubmitCall :=
  match c.phase with
  | .submitting attempt => c.receiveAttempt json attempt
  | .digesting =>
      match c.digest with
      | .answered _ status =>
          if status = some .ok then c.submit .second else { c with phase := .returned none }
      | _ => c
  | _ => c

/-- The daemon is told a digest.  The handler does nothing to the permissions it is given. -/
def SubmitState.setFileDigest (s : SubmitState) (call : ℕ) (content : Bytes) : SubmitState :=
  let body := json.writeString ((submissions call).digestRequest hasher content)
  let w := ((Local.setFileDigest json.library body).exec
    (freshWorld { maxHeavyTasks := 0, maxLightTasks := 0 } s.fileCache)).2
  { s.setCall call { s.calls call with digest := .answered content w.response.sent } with
    fileCache := w.fileCache }

/-- One step of the clients and the daemon.  A step that a call is not at does nothing. -/
def submitStep (s : SubmitState) : SubmitEvent → SubmitState
  | .begin call =>
      match (s.calls call).phase with
      | .idle => s.setCall call ((s.calls call).submit .first)
      | _ => s
  | .submitCxxTask call attempt =>
      match (s.calls call).exchange attempt with
      | .sent =>
          s.setCall call <| (s.calls call).setExchange attempt <|
            match Local.submitCxxTask json s.fileCache (submissions call).body with
            | .ok (.ok task) => .prepared task
            | .ok (.error status) => .refused status
            | .error _ => .faulted
      | _ => s
  | .newTask call attempt now =>
      match (s.calls call).exchange attempt with
      | .prepared task =>
          { s.setCall call ((s.calls call).setExchange attempt
              (.numbered s.dispatcher.descs.length)) with
            dispatcher := taskDispatcher.next s.dispatcher
              (.newTask task (min now s.dispatcher.clock + 5 * minute)) }
      | _ => s
  | .insertTask call attempt =>
      match (s.calls call).exchange attempt with
      | .numbered place =>
          match s.dispatcher.descs[place]? with
          | some desc =>
              { s.setCall call ((s.calls call).setExchange attempt
                  (.queued place (json.messageToJson desc.taskId))) with
                dispatcher := taskDispatcher.next s.dispatcher (.insertTask place) }
          | none => s
      | _ => s
  | .receive call => s.setCall call ((s.calls call).receive json)
  | .getFileDigest call content =>
      match (s.calls call).phase with
      | .hashing =>
          s.setCall call { s.calls call with digest := .sent content, phase := .digesting }
      | _ => s
  | .setFileDigest call =>
      match (s.calls call).digest with
      | .sent content => s.setFileDigest json hasher submissions call content
      | _ => s
  | .giveUp call =>
      match (s.calls call).phase with
      | .submitting _ => s.setCall call { s.calls call with phase := .returned none }
      | .digesting => s.setCall call { s.calls call with phase := .returned none }
      | _ => s
  | .dispatcher input _ => { s with dispatcher := taskDispatcher.next s.dispatcher input }

/-- **The clients and the daemon as a machine**: call number `n` hands in `submissions n`. -/
def submissionDesk : Machine SubmitState SubmitEvent Unit where
  step s event := (submitStep json hasher submissions s event, ())

end Machine

/-! ### What a step does -/

section Steps

variable (json : SubmitJson) (hasher : Hasher) (submissions : ℕ → Submission json)

/-- What a client can do, by the event that it is part of. -/
inductive SubmitCall.Moves (call : ℕ) (c : SubmitCall) : SubmitEvent → SubmitCall → Prop
  | begins : c.phase = .idle → Moves call c (.begin call) (c.submit .first)
  | hashes : c.phase = .submitting .first → c.exchange .first = .refused .badRequest →
      Moves call c (.receive call) { c with phase := .hashing }
  | isRefused {attempt : Attempt} {status : HttpStatus} : c.phase = .submitting attempt →
      c.exchange attempt = .refused status → (status ≠ .badRequest ∨ attempt ≠ .first) →
      Moves call c (.receive call) { c with phase := .returned none }
  | returns {attempt : Attempt} {place : ℕ} {body : Bytes} {taskId : Option UInt64} :
      c.phase = .submitting attempt → c.exchange attempt = .queued place body →
      readTaskId json body = .ok taskId →
      Moves call c (.receive call) { c with phase := .returned taskId }
  | crashes {attempt : Attempt} {place : ℕ} {body : Bytes} {fault : Fault} :
      c.phase = .submitting attempt → c.exchange attempt = .queued place body →
      readTaskId json body = .error fault →
      Moves call c (.receive call) { c with phase := .crashed fault }
  | tells {content : Bytes} : c.phase = .hashing →
      Moves call c (.getFileDigest call content)
        { c with digest := .sent content, phase := .digesting }
  | resubmits {content : Bytes} : c.phase = .digesting → c.digest = .answered content (some .ok) →
      Moves call c (.receive call) (c.submit .second)
  | isNotHeard {content : Bytes} {status : Option HttpStatus} : c.phase = .digesting →
      c.digest = .answered content status → status ≠ some .ok →
      Moves call c (.receive call) { c with phase := .returned none }
  | givesUp : (∃ attempt, c.phase = .submitting attempt) ∨ c.phase = .digesting →
      Moves call c (.giveUp call) { c with phase := .returned none }

/-- What the daemon is told by a client. -/
def Submission.toldBy (submission : Submission json) (content : Bytes) :
    Bool × SetFileDigestRequest :=
  json.library.jsonStringToMessage (json.writeString (submission.digestRequest hasher content))

/-- What a step can do, with what has been tested before. -/
inductive SubmitState.Goes (s : SubmitState) : SubmitEvent → SubmitState → Prop
  | stays {event : SubmitEvent} : Goes s event s
  | moves {event : SubmitEvent} {call : ℕ} {c : SubmitCall} :
      (s.calls call).Moves json call event c → Goes s event (s.setCall call c)
  | refuses {call : ℕ} {attempt : Attempt} : (s.calls call).exchange attempt = .sent →
      submitCxxTask json s.fileCache (submissions call).body = .ok (.error .badRequest) →
      Goes s (.submitCxxTask call attempt)
        (s.setCall call ((s.calls call).setExchange attempt (.refused .badRequest)))
  | prepares {call : ℕ} {attempt : Attempt} {message : SubmitCxxTaskRequest} {digest : String} :
      (s.calls call).exchange attempt = .sent →
      json.jsonStringToRequest (json.fastWriter (submissions call).request) = some message →
      s.fileCache.tryGet message.compiler.path message.compiler.size message.compiler.mtime =
        some digest →
      Goes s (.submitCxxTask call attempt)
        (s.setCall call ((s.calls call).setExchange attempt
          (.prepared (.update message digest (submissions call).zstdRewritten))))
  | numbers {call : ℕ} {attempt : Attempt} {now startDeadline : TimePoint} {task : CxxDistTask} :
      (s.calls call).exchange attempt = .prepared task →
      Goes s (.newTask call attempt now)
        { s.setCall call ((s.calls call).setExchange attempt
            (.numbered s.dispatcher.descs.length)) with
          dispatcher := taskDispatcher.next s.dispatcher (.newTask task startDeadline) }
  | inserts {call place : ℕ} {attempt : Attempt} {desc : TaskDesc} :
      (s.calls call).exchange attempt = .numbered place → s.dispatcher.descs[place]? = some desc →
      Goes s (.insertTask call attempt)
        { s.setCall call ((s.calls call).setExchange attempt
            (.queued place (json.messageToJson desc.taskId))) with
          dispatcher := taskDispatcher.next s.dispatcher (.insertTask place) }
  | learns {call : ℕ} {content : Bytes} {told : SetFileDigestRequest} {ok : Bool} :
      (s.calls call).digest = .sent content →
      (submissions call).toldBy json hasher content = (ok, told) →
      Goes s (.setFileDigest call)
        { s.setCall call
            { s.calls call with
              digest := .answered content (some (if ok then .ok else .badRequest)) } with
          fileCache := s.fileCache.set told.fileDesc.path told.fileDesc.size told.fileDesc.mtime
            told.digest }
  | works {input : Input} {h : input.isOwn = true} :
      Goes s (.dispatcher input h)
        { s with dispatcher := taskDispatcher.next s.dispatcher input }

/-- What `SetFileDigest` answers. -/
theorem setFileDigest_sent (library : JsonLibrary) (body : Bytes) (m : TaskMonitor)
    (cache : FileCache) :
    ((setFileDigest library body).exec (freshWorld m cache)).2.response.sent =
      some (if (library.jsonStringToMessage body).1 then .ok else .badRequest) := by
  cases hok : (library.jsonStringToMessage body).1 with
  | true => simp [setFileDigest, hok, freshWorld]
  | false => simp [setFileDigest, hok, freshWorld]

/-- What a client makes of a response. -/
theorem SubmitCall.receive_cases (call : ℕ) (c : SubmitCall) :
    c.receive json = c ∨ c.Moves json call (.receive call) (c.receive json) := by
  rw [SubmitCall.receive]
  split
  · next attempt hphase =>
      rw [SubmitCall.receiveAttempt]
      split
      · next status hstatus =>
          split_ifs with hfirst
          · obtain ⟨rfl, rfl⟩ := hfirst
            exact Or.inr (.hashes hphase hstatus)
          · refine Or.inr (.isRefused hphase hstatus ?_)
            by_cases hbad : status = .badRequest
            · exact Or.inr fun hattempt => hfirst ⟨hbad, hattempt⟩
            · exact Or.inl hbad
      · next place body hqueued =>
          split
          · next taskId hread => exact Or.inr (.returns hphase hqueued hread)
          · next fault hread => exact Or.inr (.crashes hphase hqueued hread)
      · exact Or.inl rfl
  · next hphase =>
      split
      · next content status hdigest =>
          split_ifs with hok
          · subst hok
            exact Or.inr (.resubmits hphase hdigest)
          · exact Or.inr (.isNotHeard hphase hdigest hok)
      · exact Or.inl rfl
  · exact Or.inl rfl

theorem SubmitState.setCall_self (s : SubmitState) (call : ℕ) :
    s.setCall call (s.calls call) = s := by
  rw [SubmitState.setCall, Function.update_eq_self]

/-- **What a step does.** -/
theorem next_goes (s : SubmitState) (event : SubmitEvent) :
    s.Goes json hasher submissions event
      ((submissionDesk json hasher submissions).next s event) := by
  show s.Goes json hasher submissions event (submitStep json hasher submissions s event)
  cases event with
  | begin call =>
      rw [submitStep]
      split
      · next hphase => exact .moves (.begins hphase)
      · exact .stays
  | submitCxxTask call attempt =>
      rw [submitStep]
      split
      · next hsent =>
          rcases submitCxxTask_body (submissions call) s.fileCache with
            hrefused | ⟨message, digest, hmessage, hcache, haccepted⟩
          · simp only [hrefused]
            exact .refuses hsent hrefused
          · simp only [haccepted]
            exact .prepares hsent hmessage hcache
      · exact .stays
  | newTask call attempt now =>
      rw [submitStep]
      split
      · next task hprepared => exact .numbers hprepared
      · exact .stays
  | insertTask call attempt =>
      rw [submitStep]
      split
      · next place hnumbered =>
          split
          · next desc hdesc => exact .inserts hnumbered hdesc
          · exact .stays
      · exact .stays
  | receive call =>
      rw [submitStep]
      rcases SubmitCall.receive_cases json call (s.calls call) with hsame | hmoves
      · rw [hsame, s.setCall_self]
        exact .stays
      · exact .moves hmoves
  | getFileDigest call content =>
      rw [submitStep]
      split
      · next hphase => exact .moves (.tells hphase)
      · exact .stays
  | setFileDigest call =>
      rw [submitStep]
      split
      · next content hsent =>
          obtain ⟨-, hcache, -⟩ := setFileDigest_spec json.library
            (json.writeString ((submissions call).digestRequest hasher content))
            { maxHeavyTasks := 0, maxLightTasks := 0 } s.fileCache
          rw [SubmitState.setFileDigest]
          simp only [hcache, setFileDigest_sent]
          exact .learns hsent rfl
      · exact .stays
  | giveUp call =>
      rw [submitStep]
      split
      · next attempt hphase => exact .moves (.givesUp (Or.inl ⟨attempt, hphase⟩))
      · next hphase => exact .moves (.givesUp (Or.inr hphase))
      · exact .stays
  | dispatcher input h => exact .works

end Steps

/-! ### The order of a call -/

/-- The daemon has begun with the request and has not answered it. -/
def Exchange.isOpen : Exchange → Bool
  | .sent => true
  | .prepared _ => true
  | .numbered _ => true
  | _ => false

section Order

variable (json : SubmitJson)

/-- **The order of a call**: there is a second attempt only after the first has been refused and the
digest has been told, and an id that is returned is one that the daemon has sent. -/
structure SubmitCall.InOrder (c : SubmitCall) : Prop where
  once : c.exchange .second = .unsent ∨ c.exchange .first = .refused .badRequest
  idle : c.phase = .idle → c.exchange .first = .unsent
  opening : c.phase = .idle ∨ c.phase = .submitting .first ∨ c.phase = .hashing →
    c.digest = .unsent ∧ c.exchange .second = .unsent
  refused : c.phase = .hashing ∨ c.phase = .digesting →
    c.exchange .first = .refused .badRequest ∧ c.exchange .second = .unsent
  told : c.exchange .second ≠ .unsent → ∃ content, c.digest = .answered content (some .ok)
  returned : ∀ taskId, c.phase = .returned (some taskId) → ∃ attempt place body,
    c.exchange attempt = .queued place body ∧ readTaskId json body = .ok (some taskId)

namespace SubmitCall

theorem InOrder.start : InOrder json {} where
  once := Or.inl rfl
  idle := fun _ => rfl
  opening := fun _ => ⟨rfl, rfl⟩
  refused := by rintro (h | h) <;> cases h
  told := fun h => absurd rfl h
  returned := fun _ h => by cases h

variable {json} {c : SubmitCall}

/-- What the daemon does with an open request keeps the order. -/
theorem InOrder.setExchange (h : c.InOrder json) {attempt : Attempt}
    (hopen : (c.exchange attempt).isOpen = true) (now : Exchange) :
    (c.setExchange attempt now).InOrder json := by
  have hsent : c.exchange attempt ≠ .unsent := fun heq => by rw [heq] at hopen; cases hopen
  have hrefused : c.exchange attempt ≠ .refused .badRequest := fun heq => by
    rw [heq] at hopen
    cases hopen
  have hother : ∀ other, other ≠ attempt → (c.setExchange attempt now).exchange other =
      c.exchange other := fun other hne => Function.update_of_ne hne _ _
  -- of the two attempts only one can be open
  have hsecond : c.exchange .second = .unsent → attempt = .first := fun hunsent => by
    cases attempt with
    | first => rfl
    | second => exact absurd hunsent hsent
  have hfirst : c.exchange .first = .refused .badRequest → attempt = .second := fun hbad => by
    cases attempt with
    | first => exact absurd hbad hrefused
    | second => rfl
  constructor
  · rcases h.once with hunsent | hbad
    · obtain rfl := hsecond hunsent
      exact Or.inl ((hother _ (by decide)).trans hunsent)
    · obtain rfl := hfirst hbad
      exact Or.inr ((hother _ (by decide)).trans hbad)
  · intro hidle
    obtain rfl := hsecond (h.opening (Or.inl hidle)).2
    exact absurd (h.idle hidle) hsent
  · intro hphase
    obtain ⟨hdigest, hunsent⟩ := h.opening hphase
    obtain rfl := hsecond hunsent
    exact ⟨hdigest, (hother _ (by decide)).trans hunsent⟩
  · intro hphase
    obtain ⟨hbad, hunsent⟩ := h.refused hphase
    obtain rfl := hfirst hbad
    exact absurd (hsecond hunsent) (by decide)
  · intro hunsent
    cases attempt with
    | first => exact h.told (by rwa [hother _ (by decide)] at hunsent)
    | second => exact h.told hsent
  · intro taskId hphase
    obtain ⟨other, place, body, hqueued, hread⟩ := h.returned taskId hphase
    have hne : other ≠ attempt := by
      rintro rfl
      rw [hqueued] at hopen
      cases hopen
    exact ⟨other, place, body, (hother other hne).trans hqueued, hread⟩

/-- A call that comes to its end keeps the order. -/
theorem InOrder.finish (h : c.InOrder json) {phase : SubmitPhase}
    (hend : (∃ taskId, phase = .returned taskId) ∨ ∃ fault, phase = .crashed fault)
    (hread : ∀ taskId, phase = .returned (some taskId) → ∃ attempt place body,
      c.exchange attempt = .queued place body ∧ readTaskId json body = .ok (some taskId)) :
    { c with phase := phase }.InOrder json where
  once := h.once
  idle := by rcases hend with ⟨_, rfl⟩ | ⟨_, rfl⟩ <;> exact SubmitPhase.noConfusion
  opening := by rcases hend with ⟨_, rfl⟩ | ⟨_, rfl⟩ <;> rintro (heq | heq | heq) <;> cases heq
  refused := by rcases hend with ⟨_, rfl⟩ | ⟨_, rfl⟩ <;> rintro (heq | heq) <;> cases heq
  told := h.told
  returned := hread

/-- What a client does keeps the order. -/
theorem InOrder.moves (h : c.InOrder json) {call : ℕ} {event : SubmitEvent} {c' : SubmitCall}
    (hmoves : c.Moves json call event c') : c'.InOrder json := by
  cases hmoves with
  | begins hphase =>
      obtain ⟨hdigest, hunsent⟩ := h.opening (Or.inl hphase)
      exact ⟨Or.inl hunsent, SubmitPhase.noConfusion, fun _ => ⟨hdigest, hunsent⟩,
        (by rintro (heq | heq) <;> cases heq), fun hne => absurd hunsent hne,
        fun _ heq => by cases heq⟩
  | hashes hphase hbad =>
      obtain ⟨hdigest, hunsent⟩ := h.opening (Or.inr (Or.inl hphase))
      exact ⟨Or.inr hbad, SubmitPhase.noConfusion, fun _ => ⟨hdigest, hunsent⟩,
        fun _ => ⟨hbad, hunsent⟩, h.told, fun _ heq => by cases heq⟩
  | tells hphase =>
      obtain ⟨hbad, hunsent⟩ := h.refused (Or.inl hphase)
      exact ⟨Or.inr hbad, SubmitPhase.noConfusion, (by rintro (heq | heq | heq) <;> cases heq),
        fun _ => ⟨hbad, hunsent⟩, fun hne => absurd hunsent hne, fun _ heq => by cases heq⟩
  | @resubmits content hphase hdigest =>
      obtain ⟨hbad, -⟩ := h.refused (Or.inr hphase)
      exact ⟨Or.inr hbad, SubmitPhase.noConfusion, (by rintro (heq | heq | heq) <;> cases heq),
        (by rintro (heq | heq) <;> cases heq), fun _ => ⟨content, hdigest⟩,
        fun _ heq => by cases heq⟩
  | isRefused | isNotHeard | givesUp =>
      exact h.finish (Or.inl ⟨_, rfl⟩) fun _ heq => by cases heq
  | @returns attempt place body taskId _ hqueued hread =>
      refine h.finish (Or.inl ⟨_, rfl⟩) fun _ heq => ?_
      cases heq
      exact ⟨attempt, place, body, hqueued, hread⟩
  | crashes => exact h.finish (Or.inr ⟨_, rfl⟩) fun _ heq => by cases heq

end SubmitCall

end Order

/-! ### The invariant -/

/-- No step puts another task into an object. -/
theorem Change.sameTask {d : TaskDispatcher} {input : Input} {p : ℕ} {desc desc' : TaskDesc}
    (h : Change d input p desc desc') {t' : DistTask} (ht' : desc'.task = some t') :
    ∃ t, desc.task = some t ∧ t.task = t'.task := by
  cases h with
  | performed op =>
      cases op with
      | complete =>
          rw [TaskDesc.perform] at ht'
          split at ht'
          · next t _ ht =>
              obtain rfl := Option.some_inj.1 ht'
              exact ⟨t, ht, rfl⟩
          · exact ⟨t', ht', rfl⟩
      | poll reply =>
          refine ⟨t', ?_, rfl⟩
          rw [TaskDesc.perform] at ht'
          split at ht'
          · rw [TaskDesc.poll] at ht'
            split at ht' <;> exact ht'
          · exact ht'
      | _ =>
          refine ⟨t', ?_, rfl⟩
          simp only [TaskDesc.perform] at ht'
          split at ht' <;> exact ht'
  | moved => cases ht'
  | _ => exact ⟨t', ht', rfl⟩

section Invariant

variable (json : SubmitJson) (hasher : Hasher) (submissions : ℕ → Submission json)

namespace SubmitState

variable (s : SubmitState)

/-- A task has been queued for a call, at this place. -/
def Queued (call p : ℕ) : Prop := ∃ attempt, ((s.calls call).exchange attempt).place = some p

/-- A client has told this digest of a file. -/
def Told (fileDesc : FileDesc) (digest : String) : Prop :=
  ∃ call content status, (s.calls call).digest = .answered content status ∧
    ((submissions call).toldBy json hasher content).2 = { fileDesc := fileDesc, digest := digest }

/-- The task is what `Prepare` makes of the request of a call as it arrives, under a digest that a
client has told of the compiler. -/
def Asked (call : ℕ) (task : CxxDistTask) : Prop :=
  ∃ message digest,
    json.jsonStringToRequest (json.fastWriter (submissions call).request) = some message ∧
      s.Told json hasher submissions message.compiler digest ∧
      task = .update message digest (submissions call).zstdRewritten

/-- **The invariant.** -/
structure Traced : Prop where
  calls : ∀ call, (s.calls call).InOrder json
  nextId : s.dispatcher.nextId = UInt64.ofNat s.dispatcher.descs.length
  taskId : ∀ (p : ℕ) (desc : TaskDesc), s.dispatcher.descs[p]? = some desc →
    desc.taskId = UInt64.ofNat (p + 1)
  queued : ∀ p, p < s.dispatcher.descs.length ↔ ∃ call, s.Queued call p
  unique : ∀ call call' attempt attempt' p, ((s.calls call).exchange attempt).place = some p →
    ((s.calls call').exchange attempt').place = some p → call = call' ∧ attempt = attempt'
  answered : ∀ call attempt place body, (s.calls call).exchange attempt = .queued place body →
    body = json.messageToJson (UInt64.ofNat (place + 1))
  cached : ∀ path desc, s.fileCache.caches.lookup path = some desc →
    s.Told json hasher submissions { path := path, size := desc.size, mtime := desc.mtime }
      desc.hash
  prepared : ∀ call attempt task, (s.calls call).exchange attempt = .prepared task →
    s.Asked json hasher submissions call task
  tasks : ∀ call p (desc : TaskDesc) (t : DistTask), s.Queued call p →
    s.dispatcher.descs[p]? = some desc → desc.task = some t →
    s.Asked json hasher submissions call t.task

end SubmitState

variable {json hasher submissions}

/-- The dispatcher has the same objects, with the same ids and tasks, less the tasks that were taken
out. -/
structure TaskDispatcher.Retains (d d' : TaskDispatcher) : Prop where
  nextId : d'.nextId = d.nextId
  length : d'.descs.length = d.descs.length
  desc : ∀ (p : ℕ) (desc' : TaskDesc), d'.descs[p]? = some desc' → ∃ desc, d.descs[p]? = some desc ∧
    desc'.taskId = desc.taskId ∧
    ∀ t', desc'.task = some t' → ∃ t, desc.task = some t ∧ t.task = t'.task

theorem TaskDispatcher.Retains.refl (d : TaskDispatcher) : d.Retains d where
  nextId := rfl
  length := rfl
  desc := fun _ desc' hdesc' => ⟨desc', hdesc', rfl, fun t' ht' => ⟨t', ht', rfl⟩⟩

/-- Only `QueueTask` makes objects. -/
theorem TaskDispatcher.retains_next {d : TaskDispatcher} {input : Input}
    (hmade : d.made input = []) : d.Retains (taskDispatcher.next d input) where
  nextId := by
    rw [(next_frame d input).1, hmade, List.length_nil]
    exact UInt64.add_zero _
  length := by rw [length_next, hmade, List.length_nil, Nat.add_zero]
  desc := by
    intro p desc' hdesc'
    rcases next_descs_cases hdesc' with ⟨desc, hdesc, hchange⟩ | ⟨-, task, startDeadline, rfl, -⟩
    · exact ⟨desc, hdesc, hchange.taskId, fun t' ht' => hchange.sameTask ht'⟩
    · cases hmade

namespace SubmitState

variable {s s' : SubmitState}

theorem Told.mono {fileDesc : FileDesc} {digest : String}
    (h : s.Told json hasher submissions fileDesc digest)
    (hkeep : ∀ call content status, (s.calls call).digest = .answered content status →
      (s'.calls call).digest = .answered content status) :
    s'.Told json hasher submissions fileDesc digest := by
  obtain ⟨call, content, status, hdigest, htold⟩ := h
  exact ⟨call, content, status, hkeep call content status hdigest, htold⟩

theorem Asked.mono {call : ℕ} {task : CxxDistTask} (h : s.Asked json hasher submissions call task)
    (hkeep : ∀ call content status, (s.calls call).digest = .answered content status →
      (s'.calls call).digest = .answered content status) :
    s'.Asked json hasher submissions call task := by
  obtain ⟨message, digest, hmessage, htold, htask⟩ := h
  exact ⟨message, digest, hmessage, htold.mono hkeep, htask⟩

/-- What is known of a compiler a client has told. -/
theorem Traced.told_of_tryGet (h : s.Traced json hasher submissions) {fileDesc : FileDesc}
    {digest : String}
    (hget : s.fileCache.tryGet fileDesc.path fileDesc.size fileDesc.mtime = some digest) :
    s.Told json hasher submissions fileDesc digest := by
  rw [FileCache.tryGet] at hget
  split at hget
  · next desc hlook =>
      split_ifs at hget with hsame
      obtain rfl := Option.some_inj.1 hget
      have htold := h.cached _ _ hlook
      rwa [hsame.1, hsame.2] at htold
  · cases hget

/-- **The invariant is kept by a step that makes no object**: what the step does to each of the
parts is enough. -/
theorem Traced.of_keeps (h : s.Traced json hasher submissions)
    (hcalls : ∀ call, (s'.calls call).InOrder json)
    (hkeep : ∀ call content status, (s.calls call).digest = .answered content status →
      (s'.calls call).digest = .answered content status)
    (hplace : ∀ call attempt, ((s'.calls call).exchange attempt).place =
      ((s.calls call).exchange attempt).place)
    (hdispatcher : s.dispatcher.Retains s'.dispatcher)
    (hanswered : ∀ call attempt place body, (s'.calls call).exchange attempt = .queued place body →
      (s.calls call).exchange attempt = .queued place body ∨
        body = json.messageToJson (UInt64.ofNat (place + 1)))
    (hcached : ∀ path desc, s'.fileCache.caches.lookup path = some desc →
      s.fileCache.caches.lookup path = some desc ∨ s'.Told json hasher submissions
        { path := path, size := desc.size, mtime := desc.mtime } desc.hash)
    (hprepared : ∀ call attempt task, (s'.calls call).exchange attempt = .prepared task →
      (s.calls call).exchange attempt = .prepared task ∨
        s.Asked json hasher submissions call task) :
    s'.Traced json hasher submissions := by
  have hqueued : ∀ call p, s'.Queued call p ↔ s.Queued call p := fun call p =>
    exists_congr fun attempt => by rw [hplace]
  constructor
  · exact hcalls
  · rw [hdispatcher.nextId, hdispatcher.length, h.nextId]
  · intro p desc' hdesc'
    obtain ⟨desc, hdesc, hid, -⟩ := hdispatcher.desc p desc' hdesc'
    rw [hid, h.taskId p desc hdesc]
  · intro p
    simp only [hqueued, hdispatcher.length, h.queued p]
  · intro call call' attempt attempt' p hp hp'
    rw [hplace] at hp hp'
    exact h.unique call call' attempt attempt' p hp hp'
  · intro call attempt place body hbody
    rcases hanswered call attempt place body hbody with hold | hnew
    · exact h.answered call attempt place body hold
    · exact hnew
  · intro path desc hlook
    rcases hcached path desc hlook with hold | hnew
    · exact (h.cached path desc hold).mono hkeep
    · exact hnew
  · intro call attempt task htask
    rcases hprepared call attempt task htask with hold | hnew
    · exact (h.prepared call attempt task hold).mono hkeep
    · exact hnew.mono hkeep
  · intro call p desc' t' hp hdesc' ht'
    obtain ⟨desc, hdesc, -, htask⟩ := hdispatcher.desc p desc' hdesc'
    obtain ⟨t, ht, hsame⟩ := htask t' ht'
    rw [← hsame]
    exact (h.tasks call p desc t ((hqueued call p).1 hp) hdesc ht).mono hkeep

/-- What holds of every call but one, and of what that one becomes, holds of every call. -/
theorem forall_setCall {P : ℕ → SubmitCall → Prop} {call : ℕ} {c : SubmitCall}
    (hother : ∀ other, other ≠ call → P other (s.calls other)) (hc : P call c) (other : ℕ) :
    P other ((s.setCall call c).calls other) := by
  have happly : (s.setCall call c).calls other = if other = call then c else s.calls other :=
    Function.update_apply ..
  rw [happly]
  split_ifs with hne
  · exact hne ▸ hc
  · exact hother other hne

/-- What holds of every attempt but one, and of what that one becomes, holds of every attempt. -/
theorem forall_setExchange {c : SubmitCall} {P : Attempt → Exchange → Prop} {attempt : Attempt}
    {now : Exchange} (hother : ∀ other, P other (c.exchange other)) (hnow : P attempt now)
    (other : Attempt) : P other ((c.setExchange attempt now).exchange other) := by
  have happly : (c.setExchange attempt now).exchange other =
      if other = attempt then now else c.exchange other := Function.update_apply ..
  rw [happly]
  split_ifs with hne
  · exact hne ▸ hnow
  · exact hother other

theorem exchange_setCall (s : SubmitState) (call other : ℕ) (attempt a : Attempt) (now : Exchange) :
    ((s.setCall call ((s.calls call).setExchange attempt now)).calls other).exchange a =
      if other = call ∧ a = attempt then now else (s.calls other).exchange a := by
  simp only [setCall, Function.update_apply]
  by_cases hother : other = call
  · simp only [hother, if_true, SubmitCall.setExchange, Function.update_apply, true_and]
  · simp only [hother, if_false, false_and]

theorem digest_setCall (s : SubmitState) (call other : ℕ) (attempt : Attempt) (now : Exchange) :
    ((s.setCall call ((s.calls call).setExchange attempt now)).calls other).digest =
      (s.calls other).digest := by
  have hsame : ((s.calls call).setExchange attempt now).digest = (s.calls call).digest := rfl
  exact forall_setCall (P := fun other c => c.digest = (s.calls other).digest) (fun _ _ => rfl)
    hsame other

/-- What a client does makes no object, tells nothing yet and leaves what was told. -/
theorem Moves.frame {c c' : SubmitCall} (h : c.InOrder json) {call : ℕ} {event : SubmitEvent}
    (hmoves : c.Moves json call event c') :
    (∀ attempt, c'.exchange attempt = c.exchange attempt ∨
        c.exchange attempt = .unsent ∧ c'.exchange attempt = .sent) ∧
      ∀ content status, c.digest = .answered content status →
        c'.digest = .answered content status := by
  have hsubmit : ∀ attempt, c.exchange attempt = .unsent → ∀ other,
      (c.submit attempt).exchange other = c.exchange other ∨
        c.exchange other = .unsent ∧ (c.submit attempt).exchange other = .sent := by
    intro attempt hunsent other
    by_cases hne : other = attempt
    · rw [hne]
      exact Or.inr ⟨hunsent, Function.update_self ..⟩
    · exact Or.inl (Function.update_of_ne hne _ _)
  cases hmoves with
  | begins hphase => exact ⟨hsubmit _ (h.idle hphase), fun _ _ hdigest => hdigest⟩
  | resubmits hphase =>
      exact ⟨hsubmit _ (h.refused (Or.inr hphase)).2, fun _ _ hdigest => hdigest⟩
  | tells hphase =>
      refine ⟨fun _ => Or.inl rfl, fun content status hdigest => ?_⟩
      rw [(h.opening (Or.inr (Or.inr hphase))).1] at hdigest
      cases hdigest
  | _ => exact ⟨fun _ => Or.inl rfl, fun _ _ hdigest => hdigest⟩

/-- **The invariant is kept by a step of one call that makes no object.** -/
theorem Traced.of_setCall (h : s.Traced json hasher submissions) {call : ℕ} {c : SubmitCall}
    {cache : FileCache} {d : TaskDispatcher} (horder : c.InOrder json)
    (hkeep : ∀ content status, (s.calls call).digest = .answered content status →
      c.digest = .answered content status)
    (hplace : ∀ attempt, (c.exchange attempt).place = ((s.calls call).exchange attempt).place)
    (hd : s.dispatcher.Retains d)
    (hanswered : ∀ attempt place body, c.exchange attempt = .queued place body →
      (s.calls call).exchange attempt = .queued place body ∨
        body = json.messageToJson (UInt64.ofNat (place + 1)))
    (hcached : ∀ path desc, cache.caches.lookup path = some desc →
      s.fileCache.caches.lookup path = some desc ∨ ∃ content status,
        c.digest = .answered content status ∧ ((submissions call).toldBy json hasher content).2 =
          ⟨{ path := path, size := desc.size, mtime := desc.mtime }, desc.hash⟩)
    (hprepared : ∀ attempt task, c.exchange attempt = .prepared task →
      (s.calls call).exchange attempt = .prepared task ∨
        s.Asked json hasher submissions call task) :
    { s.setCall call c with
      fileCache := cache, dispatcher := d }.Traced json hasher submissions := by
  refine h.of_keeps (forall_setCall (fun other _ => h.calls other) horder)
    (forall_setCall (P := fun other c => ∀ content status,
      (s.calls other).digest = .answered content status → c.digest = .answered content status)
      (fun _ _ _ _ hold => hold) hkeep)
    (forall_setCall (P := fun other c => ∀ attempt,
      (c.exchange attempt).place = ((s.calls other).exchange attempt).place) (fun _ _ _ => rfl)
      hplace) hd
    (forall_setCall (P := fun other c => ∀ attempt place body,
      c.exchange attempt = .queued place body →
      (s.calls other).exchange attempt = .queued place body ∨
        body = json.messageToJson (UInt64.ofNat (place + 1))) (fun _ _ _ _ _ hold => Or.inl hold)
      hanswered) ?_
    (forall_setCall (P := fun other c => ∀ attempt task, c.exchange attempt = .prepared task →
      (s.calls other).exchange attempt = .prepared task ∨
        s.Asked json hasher submissions other task)
      (fun _ _ _ _ hold => Or.inl hold) hprepared)
  intro path desc hlook
  rcases hcached path desc hlook with hold | ⟨content, status, hdigest, htold⟩
  · exact Or.inl hold
  · refine Or.inr ⟨call, content, status, ?_, htold⟩
    simp only [setCall, Function.update_self]
    exact hdigest

/-- What the daemon does with an open request keeps the invariant, if it makes no object, and if
what it makes of the request is known. -/
theorem Traced.of_setExchange (h : s.Traced json hasher submissions) {call : ℕ} {attempt : Attempt}
    {now : Exchange} {d : TaskDispatcher} (hopen : ((s.calls call).exchange attempt).isOpen = true)
    (hplace : now.place = ((s.calls call).exchange attempt).place) (hd : s.dispatcher.Retains d)
    (hanswered : ∀ place body, now = .queued place body →
      body = json.messageToJson (UInt64.ofNat (place + 1)))
    (hprepared : ∀ task, now = .prepared task → s.Asked json hasher submissions call task) :
    { s.setCall call ((s.calls call).setExchange attempt now) with
      dispatcher := d }.Traced json hasher submissions := by
  refine h.of_setCall ((h.calls call).setExchange hopen now) (fun _ _ hdigest => hdigest) ?_ hd ?_
    (fun _ _ hlook => Or.inl hlook) ?_
  · exact forall_setExchange (P := fun other e => e.place = ((s.calls call).exchange other).place)
      (fun _ => rfl) hplace
  · exact forall_setExchange (P := fun other e => ∀ place body, e = .queued place body →
        (s.calls call).exchange other = .queued place body ∨
          body = json.messageToJson (UInt64.ofNat (place + 1))) (fun _ _ _ hold => Or.inl hold)
      fun place body hnow => Or.inr (hanswered place body hnow)
  · exact forall_setExchange (P := fun other e => ∀ task, e = .prepared task →
        (s.calls call).exchange other = .prepared task ∨ s.Asked json hasher submissions call task)
      (fun _ _ hold => Or.inl hold) fun task hnow => Or.inr (hprepared task hnow)

/-- What a client does keeps the invariant. -/
theorem Traced.of_moves (h : s.Traced json hasher submissions) {call : ℕ} {event : SubmitEvent}
    {c : SubmitCall} (hmoves : (s.calls call).Moves json call event c) :
    (s.setCall call c).Traced json hasher submissions := by
  obtain ⟨hexchange, hdigest⟩ := Moves.frame (h.calls call) hmoves
  refine h.of_setCall ((h.calls call).moves hmoves) hdigest ?_ (.refl _) ?_
    (fun _ _ hlook => Or.inl hlook) ?_
  · intro attempt
    rcases hexchange attempt with hsame | ⟨hunsent, hsent⟩
    · rw [hsame]
    · rw [hunsent, hsent]
      rfl
  · intro attempt place body hqueued
    rcases hexchange attempt with hsame | ⟨-, hsent⟩
    · exact Or.inl (hsame ▸ hqueued)
    · rw [hsent] at hqueued
      cases hqueued
  · intro attempt task hprepared
    rcases hexchange attempt with hsame | ⟨-, hsent⟩
    · exact Or.inl (hsame ▸ hprepared)
    · rw [hsent] at hprepared
      cases hprepared

/-- A digest that arrives keeps the invariant. -/
theorem Traced.of_learns (h : s.Traced json hasher submissions) {call : ℕ} {content : Bytes}
    {told : SetFileDigestRequest} {ok : Bool} (hsent : (s.calls call).digest = .sent content)
    (htold : (submissions call).toldBy json hasher content = (ok, told)) :
    { s.setCall call
        { s.calls call with
          digest := .answered content (some (if ok then .ok else .badRequest)) } with
      fileCache := s.fileCache.set told.fileDesc.path told.fileDesc.size told.fileDesc.mtime
        told.digest }.Traced json hasher submissions := by
  have hcall := h.calls call
  refine h.of_setCall ?_ (fun content' status hdigest => ?_) (fun _ => rfl) (.refl _)
    (fun _ _ _ hold => Or.inl hold) ?_ fun _ _ hold => Or.inl hold
  · refine ⟨hcall.once, hcall.idle, fun hphase => ?_, hcall.refused, fun hne => ?_, hcall.returned⟩
    · rw [(hcall.opening hphase).1] at hsent
      cases hsent
    · obtain ⟨content', hdigest⟩ := hcall.told hne
      rw [hdigest] at hsent
      cases hsent
  · rw [hdigest] at hsent
    cases hsent
  · intro path desc hlook
    by_cases hpath : path = told.fileDesc.path
    · have hdesc : some desc = some ⟨told.fileDesc.size, told.fileDesc.mtime, told.digest⟩ := by
        rw [← hlook, hpath]
        exact AList.lookup_insert _
      obtain rfl := Option.some_inj.1 hdesc
      exact Or.inr ⟨content, _, rfl, by rw [htold, hpath]⟩
    · exact Or.inl (by rw [← hlook]; exact (AList.lookup_insert_ne hpath).symm)

/-- `QueueTask` makes the object of a call that has none. -/
theorem Traced.of_numbers (h : s.Traced json hasher submissions) {call : ℕ} {attempt : Attempt}
    {task : CxxDistTask} (startDeadline : TimePoint)
    (hprepared : (s.calls call).exchange attempt = .prepared task) :
    { s.setCall call ((s.calls call).setExchange attempt
        (.numbered s.dispatcher.descs.length)) with
      dispatcher := taskDispatcher.next s.dispatcher (.newTask task startDeadline) }.Traced
        json hasher submissions := by
  have hopen : ((s.calls call).exchange attempt).isOpen = true := by rw [hprepared]; rfl
  have hnone : ((s.calls call).exchange attempt).place = none := by rw [hprepared]; rfl
  have hold : ∀ {other a p}, ((s.calls other).exchange a).place = some p →
      p < s.dispatcher.descs.length := fun hp => (h.queued _).2 ⟨_, _, hp⟩
  -- the attempt gets the new place, and nothing else changes
  have hplace : ∀ other a p,
      (((s.setCall call ((s.calls call).setExchange attempt
        (.numbered s.dispatcher.descs.length))).calls other).exchange a).place = some p →
      other = call ∧ a = attempt ∧ p = s.dispatcher.descs.length ∨
        ((s.calls other).exchange a).place = some p := by
    intro other a p hp
    rw [exchange_setCall] at hp
    split_ifs at hp with heq
    · exact Or.inl ⟨heq.1, heq.2, (Option.some_inj.1 hp).symm⟩
    · exact Or.inr hp
  have hkeep : ∀ other content status, (s.calls other).digest = .answered content status →
      ((s.setCall call ((s.calls call).setExchange attempt
        (.numbered s.dispatcher.descs.length))).calls other).digest = .answered content status :=
    fun other _ _ hdigest => (s.digest_setCall call other attempt _).trans hdigest
  have hlength : (taskDispatcher.next s.dispatcher (.newTask task startDeadline)).descs.length =
      s.dispatcher.descs.length + 1 := length_next _ _
  constructor
  · exact forall_setCall (fun other _ => h.calls other) ((h.calls call).setExchange hopen _)
  · have hnext := (next_frame s.dispatcher (.newTask task startDeadline)).1
    rw [hlength, hnext, h.nextId, UInt64.ofNat_add]
    rfl
  · intro p desc' hdesc'
    rcases next_descs_cases hdesc' with ⟨desc, hdesc, hchange⟩ | ⟨rfl, _, _, -, rfl⟩
    · rw [hchange.taskId, h.taskId p desc hdesc]
    · show s.dispatcher.nextId + 1 = _
      rw [h.nextId, UInt64.ofNat_add]
      rfl
  · intro p
    rw [hlength]
    constructor
    · intro hp
      rcases Nat.lt_succ_iff_lt_or_eq.1 hp with hlt | rfl
      · obtain ⟨other, a, hplaced⟩ := (h.queued p).1 hlt
        refine ⟨other, a, ?_⟩
        rw [exchange_setCall, if_neg]
        · exact hplaced
        · rintro ⟨rfl, rfl⟩
          rw [hnone] at hplaced
          cases hplaced
      · exact ⟨call, attempt, by rw [exchange_setCall, if_pos ⟨rfl, rfl⟩]; rfl⟩
    · rintro ⟨other, a, hp⟩
      rcases hplace other a p hp with ⟨-, -, rfl⟩ | hp
      · exact Nat.lt_succ_self _
      · exact Nat.lt_succ_of_lt (hold hp)
  · intro call₁ call₂ a₁ a₂ p hp₁ hp₂
    rcases hplace call₁ a₁ p hp₁ with ⟨rfl, rfl, rfl⟩ | hp₁
    · rcases hplace call₂ a₂ _ hp₂ with ⟨rfl, rfl, -⟩ | hp₂
      · exact ⟨rfl, rfl⟩
      · exact absurd (hold hp₂) (lt_irrefl _)
    · rcases hplace call₂ a₂ p hp₂ with ⟨-, -, rfl⟩ | hp₂
      · exact absurd (hold hp₁) (lt_irrefl _)
      · exact h.unique call₁ call₂ a₁ a₂ p hp₁ hp₂
  · intro other a place body hbody
    rw [exchange_setCall] at hbody
    split_ifs at hbody with heq
    exact h.answered other a place body hbody
  · exact fun path desc hlook => (h.cached path desc hlook).mono hkeep
  · intro other a task' htask
    rw [exchange_setCall] at htask
    split_ifs at htask with heq
    exact (h.prepared other a task' htask).mono hkeep
  · rintro other p desc' t' ⟨a, hp⟩ hdesc' ht'
    rcases next_descs_cases hdesc' with ⟨desc, hdesc, hchange⟩ | ⟨rfl, _, _, heq, rfl⟩
    · have hlt := (List.getElem?_eq_some_iff.1 hdesc).1
      obtain ⟨t, ht, hsame⟩ := hchange.sameTask ht'
      rcases hplace other a p hp with ⟨-, -, rfl⟩ | hp
      · exact absurd hlt (lt_irrefl _)
      · rw [← hsame]
        exact (h.tasks other p desc t ⟨a, hp⟩ hdesc ht).mono hkeep
    · cases heq
      obtain rfl := Option.some_inj.1 ht'
      rcases hplace other a _ hp with ⟨rfl, rfl, -⟩ | hp
      · exact (h.prepared other a task hprepared).mono hkeep
      · exact absurd (hold hp) (lt_irrefl _)

theorem Traced.start : Traced json hasher submissions {} where
  calls := fun _ => .start json
  nextId := rfl
  taskId := fun _ _ hdesc => by cases hdesc
  queued := fun p => ⟨fun hp => absurd hp (Nat.not_lt_zero p), by rintro ⟨_, _, hp⟩; cases hp⟩
  unique := fun _ _ _ _ _ hp => by cases hp
  answered := fun _ _ _ _ heq => by cases heq
  cached := fun _ _ hlook => by cases hlook
  prepared := fun _ _ _ heq => by cases heq
  tasks := fun _ _ _ _ _ hdesc => by cases hdesc

/-- **One step keeps the invariant.** -/
theorem Traced.next (h : s.Traced json hasher submissions) (event : SubmitEvent) :
    ((submissionDesk json hasher submissions).next s event).Traced json hasher submissions := by
  have hstep := next_goes json hasher submissions s event
  generalize (submissionDesk json hasher submissions).next s event = s' at hstep ⊢
  cases hstep with
  | stays => exact h
  | moves hmoves => exact h.of_moves hmoves
  | refuses hsent =>
      exact h.of_setExchange (by rw [hsent]; rfl) (by rw [hsent]; rfl) (.refl _)
        (fun _ _ heq => by cases heq) fun _ heq => by cases heq
  | @prepares call attempt message digest hsent hmessage hget =>
      refine h.of_setExchange (by rw [hsent]; rfl) (by rw [hsent]; rfl) (.refl _)
        (fun _ _ heq => by cases heq) fun task heq => ?_
      cases heq
      exact ⟨message, digest, hmessage, h.told_of_tryGet hget, rfl⟩
  | numbers hprepared => exact h.of_numbers _ hprepared
  | inserts hnumbered hdesc =>
      refine h.of_setExchange (by rw [hnumbered]; rfl) (by rw [hnumbered]; rfl)
        (TaskDispatcher.retains_next rfl) (fun place body heq => ?_) fun _ heq => by cases heq
      cases heq
      rw [h.taskId _ _ hdesc]
  | learns hsent htold => exact h.of_learns hsent htold
  | @works input hown =>
      have hmade : s.dispatcher.made input = [] := by
        cases input with
        | newTask => cases hown
        | _ => rfl
      exact h.of_keeps h.calls (fun _ _ _ hdigest => hdigest) (fun _ _ => rfl)
        (TaskDispatcher.retains_next hmade) (fun _ _ _ _ hold => Or.inl hold)
        (fun _ _ hold => Or.inl hold) fun _ _ _ hold => Or.inl hold

theorem traced_run (events : List SubmitEvent) :
    ((submissionDesk json hasher submissions).run {} events).Traced json hasher submissions :=
  Machine.run_invariant (fun _ event h => h.next event) .start events

end SubmitState

end Invariant

end Local
