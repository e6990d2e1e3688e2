/-
**A rejected request, and what it still does.**

The daemon serves the clients on its machine over HTTP.  Three handlers change something that
outlives the request: `AcquireQuota` and `ReleaseQuota` the permissions of the task monitor,
`SetFileDigest` the table of known compilers.  Each of them first checks what it was sent, and sends
a `400` if the check fails.  Then it goes on.  The `return` that `SubmitCxxTask` and `WaitForTask`
of the same file have after every rejection is missing in these three.

What follows a rejection depends on the libraries.  Where Poco finds that a field is missing or has
the wrong type, the conversion that comes next often throws, and then nothing has happened yet.  But
a conversion accepts more than the check: a process id sent as a string is no integer and still
converts to one.  Where protobuf cannot parse a message, the message is left as it was, and an entry
for the empty path is written.  After that `response.send()` is called a second time, which Poco
answers with an exception; the client has been sent its `400` by then.

The libraries are not part of the repository, so they are a parameter here.  What the handlers do
with the results of a parse, a check or a conversion is embedded from
`daemon/local/http_service_impl.cpp`, with the exceptions and the response; `FileCache` is that of
`daemon/local/file_cache.cpp`.

Main definitions:

* `Local.FileCache` — the known compilers;
* `Local.JsonLibrary` — what the handlers use of Poco and of protobuf;
* `Local.acquireQuota`, `Local.releaseQuota`, `Local.setFileDigest` — the handlers;
* `Local.Harmless` — what a handler does after a rejection has no effect.

Main results:

* `Local.waitForNewTask_run` — a request that nobody interferes with, as a run of the monitor;
* `Local.rejected_unchanged_iff` — **when a rejected request changes nothing**;
* `Local.rejected_release` — it may take a permission away.
-/

import Distribuild.LocalCxxTask
import Distribuild.LocalTaskMonitor

set_option relaxedAutoImplicit false
set_option autoImplicit false

namespace Local

open Scheduler (TimePoint Duration ms)

/-! ### The known compilers -/

structure CacheDesc where
  size : UInt64
  mtime : UInt64
  hash : String
deriving DecidableEq, Repr

structure FileCache where
  caches : Table Bytes CacheDesc := ∅

namespace FileCache

def tryGet (cache : FileCache) (path : Bytes) (size mtime : UInt64) : Option String :=
  match cache.caches.lookup path with
  | some desc => if desc.size = size ∧ desc.mtime = mtime then some desc.hash else none
  | none => none

def set (cache : FileCache) (path : Bytes) (size mtime : UInt64) (hash : String) : FileCache where
  caches := cache.caches.insert path { size := size, mtime := mtime, hash := hash }

/-- The same entries. -/
def Same (cache cache' : FileCache) : Prop :=
  ∀ path, cache'.caches.lookup path = cache.caches.lookup path

theorem same_set_iff {cache : FileCache} {path : Bytes} {size mtime : UInt64} {hash : String} :
    cache.Same (cache.set path size mtime hash) ↔
      cache.caches.lookup path = some { size := size, mtime := mtime, hash := hash } := by
  constructor
  · intro h
    rw [← h path]
    exact AList.lookup_insert _
  · intro h path'
    by_cases hpath : path' = path
    · rw [hpath, h]
      exact AList.lookup_insert _
    · exact AList.lookup_insert_ne hpath

end FileCache

/-! ### A request for a permission that nobody interferes with -/

/-- `WaitForNewTask` while no other thread does anything: the predicate holds at once, or the wait
times out. -/
def TaskMonitor.waitForNewTask (m : TaskMonitor) (pid : Pid) (lightweight : Bool) :
    TaskMonitor × Bool :=
  if m.hasRoom lightweight then (m.grant pid, true) else (m, false)

/-- It is what the monitor does on a call and, where the caller has to wait, at its deadline. -/
theorem waitForNewTask_run {s : QuotaState} {caller : ℕ} (h : s.waiting caller = none)
    (request : QuotaRequest) :
    (s.monitor.waitForNewTask request.pid request.lightweight).1 =
        (quotaMachine.run s [.waitForNewTask caller request,
          .wake caller true request.deadline]).monitor ∧
      .returned request.pid (s.monitor.waitForNewTask request.pid request.lightweight).2 ∈
        (quotaMachine.trace s [.waitForNewTask caller request,
          .wake caller true request.deadline]).map Prod.snd := by
  cases hroom : s.monitor.hasRoom request.lightweight with
  | true =>
      simp [TaskMonitor.waitForNewTask, Machine.next, Machine.out, quotaMachine, quotaStep, h,
        QuotaState.look, Monitor.waitFor, hroom]
  | false =>
      simp [TaskMonitor.waitForNewTask, Machine.next, Machine.out, quotaMachine, quotaStep, h,
        QuotaState.look, Monitor.waitFor, hroom]

/-! ### Requests and responses -/

/-- The exceptions that the handlers tell apart: `Poco::JSON::JSONException`, and any other. -/
inductive Thrown
  | jsonException
  | other
deriving DecidableEq, Repr

/-- `SetFileDigestRequest`. -/
structure SetFileDigestRequest where
  fileDesc : FileDesc
  digest : String
deriving DecidableEq, Repr

/-- What the handlers use of Poco and of protobuf. -/
structure JsonLibrary where
  /-- `Poco::Dynamic::Var`. -/
  Var : Type
  /-- `Poco::JSON::Object::Ptr`. -/
  Object : Type
  /-- `Parser::parse`. -/
  parse : Bytes → Except Thrown Var
  /-- `Var::extract<Object::Ptr>`. -/
  extract : Var → Except Thrown Object
  has : Object → String → Bool
  /-- An empty value for a missing key. -/
  get : Object → String → Var
  isInteger : Var → Bool
  isBoolean : Var → Bool
  /-- `Var::convert<uint32_t>`. -/
  convertUInt32 : Var → Except Thrown UInt32
  /-- `Var::convert<bool>`. -/
  convertBool : Var → Except Thrown Bool
  /-- `JsonStringToMessage`: whether the status is ok, and the message as it is left. -/
  jsonStringToMessage : Bytes → Bool × SetFileDigestRequest

inductive HttpStatus
  | ok
  | badRequest
  | internalServerError
  | serviceUnavailable
deriving DecidableEq, Repr

/-- The response: the status that is set, and the one that was sent. -/
structure ServerResponse where
  status : HttpStatus := .ok
  sent : Option HttpStatus := none
deriving DecidableEq, Repr

/-- What a handler works on. -/
structure HttpWorld where
  monitor : TaskMonitor
  fileCache : FileCache
  response : ServerResponse := {}

/-- A handler may throw; what it has done until then stays done. -/
abbrev Handler := ExceptT Thrown (StateM HttpWorld)

/-- What a handler returns or throws, and the world it leaves behind. -/
def Handler.exec {α : Type} (h : Handler α) (w : HttpWorld) : Except Thrown α × HttpWorld :=
  (h.run.run w).run

namespace Handler

variable {α β : Type} (w : HttpWorld)

@[simp] theorem exec_bind (h : Handler α) (k : α → Handler β) :
    exec (h >>= k) w =
      match exec h w with
      | (.ok a, w) => exec (k a) w
      | (.error e, w) => (.error e, w) := by
  simp only [exec, ExceptT.run_bind, StateT.run_bind, Id.run_bind]
  cases h.run.run w with
  | mk r w' => cases r <;> rfl

@[simp] theorem exec_pure (a : α) : exec (pure a) w = (.ok a, w) := rfl

@[simp] theorem exec_lift (e : Except Thrown α) : exec (liftM e) w = (e, w) := rfl

@[simp] theorem exec_throw (e : Thrown) : exec (throw e : Handler α) w = (.error e, w) := rfl

@[simp] theorem exec_get : exec get w = (.ok w, w) := rfl

@[simp] theorem exec_set (w' : HttpWorld) : exec (set w') w = (.ok (), w') := rfl

@[simp] theorem exec_modify (f : HttpWorld → HttpWorld) : exec (modify f) w = (.ok (), f w) := rfl

@[simp] theorem exec_tryCatch (h : Handler α) (handle : Thrown → Handler α) :
    exec (tryCatch h handle) w =
      match exec h w with
      | (.ok a, w) => (.ok a, w)
      | (.error e, w) => exec (handle e) w := by
  simp only [exec, ExceptT.run_tryCatch, StateT.run_bind, Id.run_bind]
  cases h.run.run w with
  | mk r w' => cases r <;> rfl

end Handler

/-- `setStatus`. -/
def setStatus (status : HttpStatus) : Handler Unit :=
  modify fun w => { w with response := { w.response with status := status } }

/-- `send`.  Poco asserts that nothing was sent before, and a failed assertion is an exception. -/
def send : Handler Unit := do
  let w ← get
  if w.response.sent.isSome then throw .other
  set { w with response := { w.response with sent := some w.response.status } }

/-- The two `catch` clauses of a handler. -/
def catching (body : Handler Unit) : Handler Unit :=
  tryCatch body fun
    | .jsonException => do
        setStatus .badRequest
        send
    | .other => do
        setStatus .internalServerError
        send

/-! ### The handlers -/

section Handlers

variable (json : JsonLibrary)

/-- The beginning of `AcquireQuota` and `ReleaseQuota`. -/
def parseObject (body : Bytes) : Except Thrown json.Object := do
  let result ← json.parse body
  json.extract result

/-- A field is there and is an integer. -/
def hasInteger (object : json.Object) (key : String) : Bool :=
  json.has object key && json.isInteger (json.get object key)

/-- A field is there and is a boolean. -/
def hasBoolean (object : json.Object) (key : String) : Bool :=
  json.has object key && json.isBoolean (json.get object key)

/-- The check of `AcquireQuota`. -/
def acquireChecked (object : json.Object) : Bool :=
  hasInteger json object "ms_to_wait" && hasBoolean json object "lightweight" &&
    hasInteger json object "requestor_pid"

/-- The conversions of `AcquireQuota`. -/
def acquireArguments (object : json.Object) : Except Thrown (Duration × Bool × Pid) := do
  let msToWait ← json.convertUInt32 (json.get object "ms_to_wait")
  let lightweight ← json.convertBool (json.get object "lightweight")
  let requestorPid ← json.convertUInt32 (json.get object "requestor_pid")
  return (ms msToWait.toNat, lightweight, requestorPid.toInt32)

/-- The shape of `AcquireQuota` and `ReleaseQuota`: parse, check, convert, act, send. -/
def quotaHandler {α : Type} (checked : json.Object → Bool)
    (arguments : json.Object → Except Thrown α) (act : α → Handler Unit) (body : Bytes) :
    Handler Unit := catching do
  let object ← parseObject json body
  if !checked object then
    setStatus .badRequest
    send
    -- no `return` here
  let args ← arguments object
  act args
  send

def acquireQuota : Bytes → Handler Unit :=
  quotaHandler json (acquireChecked json) (acquireArguments json)
    fun (_, lightweight, requestorPid) => do
      let w ← get
      let r := w.monitor.waitForNewTask requestorPid lightweight
      set { w with monitor := r.1 }
      if !r.2 then setStatus .serviceUnavailable

/-- The check of `ReleaseQuota`. -/
def releaseChecked (object : json.Object) : Bool := hasInteger json object "requestor_pid"

/-- The conversion of `ReleaseQuota`. -/
def releaseArgument (object : json.Object) : Except Thrown Pid := do
  let requestorPid ← json.convertUInt32 (json.get object "requestor_pid")
  return requestorPid.toInt32

def releaseQuota : Bytes → Handler Unit :=
  quotaHandler json (releaseChecked json) (releaseArgument json)
    fun requestorPid =>
      modify fun w => { w with monitor := (w.monitor.dropTask requestorPid).1 }

def setFileDigest (body : Bytes) : Handler Unit := do
  let (ok, req) := json.jsonStringToMessage body
  if !ok then
    setStatus .badRequest
    send
  modify fun w =>
    { w with
      fileCache :=
        w.fileCache.set req.fileDesc.path req.fileDesc.size req.fileDesc.mtime req.digest }
  send

/-- A request to one of the three handlers. -/
inductive HttpRequest
  | acquireQuota (body : Bytes)
  | releaseQuota (body : Bytes)
  | setFileDigest (body : Bytes)
deriving DecidableEq, Repr

def handleRequest : HttpRequest → Handler Unit
  | .acquireQuota body => acquireQuota json body
  | .releaseQuota body => releaseQuota json body
  | .setFileDigest body => setFileDigest json body

end Handlers

/-! ### What comes of a request -/

section Outcome

variable {json : JsonLibrary} {body : Bytes} (m : TaskMonitor) (cache : FileCache)

/-- The world that a request finds, with a new response. -/
def freshWorld : HttpWorld := { monitor := m, fileCache := cache }

@[simp] theorem exec_setStatus (status : HttpStatus) (w : HttpWorld) :
    Handler.exec (setStatus status) w =
      (.ok (), { w with response := { w.response with status := status } }) := rfl

@[simp] theorem exec_send (w : HttpWorld) :
    Handler.exec send w =
      if w.response.sent.isSome then (.error .other, w)
      else (.ok (), { w with response := { w.response with sent := some w.response.status } }) := by
  simp only [send, Handler.exec_bind, Handler.exec_get]
  split <;> simp

/-- What the `catch` clauses do to an exception: one of them answers, if nothing was sent. -/
theorem exec_catching (h : Handler Unit) (w : HttpWorld) :
    ((catching h).exec w).2.monitor = (h.exec w).2.monitor ∧
      ((catching h).exec w).2.fileCache = (h.exec w).2.fileCache ∧
      ((h.exec w).2.response.sent.isSome →
        ((catching h).exec w).2.response.sent = (h.exec w).2.response.sent) := by
  simp only [catching, Handler.exec_tryCatch]
  rcases h.exec w with ⟨r, w'⟩
  cases r with
  | ok a => simp
  | error e =>
      cases e with
      | jsonException =>
          by_cases hsent : w'.response.sent.isSome
          · simp [hsent]
          · simp [hsent]
      | other =>
          by_cases hsent : w'.response.sent.isSome
          · simp [hsent]
          · simp [hsent]

section Quota

variable {α : Type} {checked : json.Object → Bool} {arguments : json.Object → Except Thrown α}
  {act : α → Handler Unit} {effect : α → TaskMonitor → TaskMonitor}

/-- The part of a handler between the conversions and `send` acts on the monitor and sets no other
status than `503`. -/
def ActsOn (act : α → Handler Unit) (effect : α → TaskMonitor → TaskMonitor) : Prop :=
  ∀ args w, ∃ status, (status = w.response.status ∨ status = .serviceUnavailable) ∧
    (act args).exec w =
      (.ok (), { w with monitor := effect args w.monitor
                        response := { w.response with status := status } })

variable (checked act) in
/-- As long as the arguments are not there, nothing is done. -/
theorem quotaHandler_of_error
    (h : ∀ object args, parseObject json body = .ok object → arguments object ≠ .ok args) :
    let w := ((quotaHandler json checked arguments act body).exec (freshWorld m cache)).2
    w.monitor = m ∧ w.fileCache = cache := by
  intro w
  obtain ⟨hmonitor, hcache, -⟩ := exec_catching (do
    let object ← parseObject json body
    if !checked object then
      setStatus .badRequest
      send
    let args ← arguments object
    act args
    send) (freshWorld m cache)
  refine ⟨hmonitor.trans ?_, hcache.trans ?_⟩ <;>
  · cases hparse : parseObject json body with
    | error e => simp [freshWorld]
    | ok object =>
        cases hargs : arguments object with
        | ok args => exact absurd hargs (h object args hparse)
        | error e =>
            cases hchecked : checked object with
            | true => simp [hchecked, hargs, freshWorld]
            | false => simp [hchecked, hargs, freshWorld]

variable (checked) in
/-- With the arguments the handler acts, whether it has rejected the request or not. -/
theorem quotaHandler_of_ok (hact : ActsOn act effect) {object : json.Object} {args : α}
    (hparse : parseObject json body = .ok object) (hargs : arguments object = .ok args) :
    let w := ((quotaHandler json checked arguments act body).exec (freshWorld m cache)).2
    w.monitor = effect args m ∧ w.fileCache = cache ∧
      (w.response.sent = some .badRequest ↔ checked object = false) := by
  cases hchecked : checked object with
  | true =>
      obtain ⟨status, hstatus, hexec⟩ := hact args (freshWorld m cache)
      have hne : status ≠ .badRequest := by
        rintro rfl
        rcases hstatus with h | h <;> cases h
      simp only [freshWorld] at hexec
      simp [quotaHandler, catching, hparse, hargs, hchecked, hexec, hne, freshWorld]
  | false =>
      -- the `400` has been sent, and the second `send` and the one of the `catch` clause throw
      obtain ⟨status, -, hexec⟩ := hact args
        { freshWorld m cache with response := { status := .badRequest, sent := some .badRequest } }
      simp only [freshWorld] at hexec
      simp [quotaHandler, catching, hparse, hargs, hchecked, hexec, freshWorld]

end Quota

/-- `AcquireQuota` acts by `WaitForNewTask`. -/
theorem acquireQuota_actsOn :
    ActsOn (fun args : Duration × Bool × Pid => (do
        let w ← get
        let r := w.monitor.waitForNewTask args.2.2 args.2.1
        set { w with monitor := r.1 }
        if !r.2 then setStatus .serviceUnavailable : Handler Unit))
      fun args m => (m.waitForNewTask args.2.2 args.2.1).1 := by
  intro args w
  cases hsuccess : (w.monitor.waitForNewTask args.2.2 args.2.1).2 with
  | true => exact ⟨w.response.status, Or.inl rfl, by simp [hsuccess]⟩
  | false => exact ⟨.serviceUnavailable, Or.inr rfl, by simp [hsuccess]⟩

/-- `ReleaseQuota` acts by `DropTask`. -/
theorem releaseQuota_actsOn :
    ActsOn (fun requestorPid => (modify fun w =>
        { w with monitor := (w.monitor.dropTask requestorPid).1 } : Handler Unit))
      fun requestorPid m => (m.dropTask requestorPid).1 :=
  fun _ w => ⟨w.response.status, Or.inl rfl, rfl⟩

variable (json body) in
/-- `SetFileDigest` writes an entry in any case, and has sent a `400` before if there was nothing to
write. -/
theorem setFileDigest_spec :
    let w := ((setFileDigest json body).exec (freshWorld m cache)).2
    let req := (json.jsonStringToMessage body).2
    w.monitor = m ∧
      w.fileCache =
        cache.set req.fileDesc.path req.fileDesc.size req.fileDesc.mtime req.digest ∧
      (w.response.sent = some .badRequest ↔ (json.jsonStringToMessage body).1 = false) := by
  cases hok : (json.jsonStringToMessage body).1 with
  | true => simp [setFileDigest, hok, freshWorld]
  | false => simp [setFileDigest, hok, freshWorld]

end Outcome

/-! ### When a rejected request changes nothing -/

/-- A permission that is asked for adds nobody exactly when there is no room, or it is held. -/
theorem waitForNewTask_same_iff {m : TaskMonitor} {pid : Pid} {lightweight : Bool} :
    (m.waitForNewTask pid lightweight).1.permissionsGranted = m.permissionsGranted ↔
      m.hasRoom lightweight = false ∨ pid ∈ m.permissionsGranted := by
  cases hroom : m.hasRoom lightweight with
  | true =>
      simp only [TaskMonitor.waitForNewTask, hroom, if_true, TaskMonitor.grant]
      split
      next hmem => simp [hmem]
      next hmem => simp [hmem, Finset.insert_eq_self]
  | false => simp [TaskMonitor.waitForNewTask, hroom]

/-- A permission that is dropped was not held, or is gone. -/
theorem dropTask_same_iff {m : TaskMonitor} {pid : Pid} :
    (m.dropTask pid).1.permissionsGranted = m.permissionsGranted ↔
      pid ∉ m.permissionsGranted := by
  simp only [TaskMonitor.dropTask]
  split
  next hmem => simp [hmem, Finset.erase_eq_self]
  next hmem => simp [hmem]

/-- **What a handler does after a rejection has no effect.**  For `AcquireQuota` and `ReleaseQuota`:
if the check fails and the conversions succeed all the same, there is no permission to be had, or
none to be dropped.  For `SetFileDigest`: if the message cannot be parsed, the entry that what is
left of it describes is there already. -/
def Harmless (json : JsonLibrary) (m : TaskMonitor) (cache : FileCache) : HttpRequest → Prop
  | .acquireQuota body => ∀ object args, parseObject json body = .ok object →
      acquireChecked json object = false → acquireArguments json object = .ok args →
        m.hasRoom args.2.1 = false ∨ args.2.2 ∈ m.permissionsGranted
  | .releaseQuota body => ∀ object pid, parseObject json body = .ok object →
      releaseChecked json object = false → releaseArgument json object = .ok pid →
        pid ∉ m.permissionsGranted
  | .setFileDigest body =>
      let req := (json.jsonStringToMessage body).2
      (json.jsonStringToMessage body).1 = false →
        cache.caches.lookup req.fileDesc.path =
          some { size := req.fileDesc.size, mtime := req.fileDesc.mtime, hash := req.digest }

/-- The two handlers of the monitor, at once. -/
theorem quotaHandler_unchanged_iff {json : JsonLibrary} {body : Bytes} (m : TaskMonitor)
    (cache : FileCache) {α : Type} {checked : json.Object → Bool}
    {arguments : json.Object → Except Thrown α} {act : α → Handler Unit}
    {effect : α → TaskMonitor → TaskMonitor} (hact : ActsOn act effect) :
    let w := ((quotaHandler json checked arguments act body).exec (freshWorld m cache)).2
    (w.response.sent = some .badRequest →
        w.monitor.permissionsGranted = m.permissionsGranted ∧ cache.Same w.fileCache) ↔
      ∀ object args, parseObject json body = .ok object → checked object = false →
        arguments object = .ok args →
          (effect args m).permissionsGranted = m.permissionsGranted := by
  intro w
  constructor
  · intro h object args hparse hchecked hargs
    obtain ⟨hmonitor, -, hsent⟩ := quotaHandler_of_ok m cache checked hact hparse hargs
    rw [← hmonitor]
    exact (h (hsent.2 hchecked)).1
  · intro h hrejected
    by_cases hall : ∃ object args, parseObject json body = .ok object ∧ arguments object = .ok args
    · obtain ⟨object, args, hparse, hargs⟩ := hall
      obtain ⟨hmonitor, hcache, hsent⟩ :=
        quotaHandler_of_ok m cache checked hact hparse hargs
      refine ⟨?_, fun path => by rw [hcache]⟩
      rw [hmonitor]
      exact h object args hparse (hsent.1 hrejected) hargs
    · obtain ⟨hmonitor, hcache⟩ := quotaHandler_of_error m cache checked act
        fun object args hparse hargs => hall ⟨object, args, hparse, hargs⟩
      exact ⟨by rw [hmonitor], fun path => by rw [hcache]⟩

/-- **When a rejected request changes nothing.**  For every request to one of the three handlers, in
every state and whatever the libraries do: that an answer `400` leaves the permissions and the known
compilers as they were is the same as that what follows the rejection has no effect. -/
theorem rejected_unchanged_iff (json : JsonLibrary) (m : TaskMonitor) (cache : FileCache)
    (request : HttpRequest) :
    let w := ((handleRequest json request).exec (freshWorld m cache)).2
    (w.response.sent = some .badRequest →
        w.monitor.permissionsGranted = m.permissionsGranted ∧ cache.Same w.fileCache) ↔
      Harmless json m cache request := by
  cases request with
  | acquireQuota body =>
      refine (quotaHandler_unchanged_iff m cache acquireQuota_actsOn).trans ?_
      simp only [Harmless, waitForNewTask_same_iff]
  | releaseQuota body =>
      refine (quotaHandler_unchanged_iff m cache releaseQuota_actsOn).trans ?_
      simp only [Harmless, dropTask_same_iff]
  | setFileDigest body =>
      obtain ⟨hmonitor, hcache, hsent⟩ := setFileDigest_spec json body m cache
      simp only [handleRequest, Harmless, hmonitor, hcache, hsent, true_and, FileCache.same_set_iff]

/-- Values as Poco holds them, as far as the test below needs them. -/
inductive PocoValue
  | empty
  | integer (value : ℤ)
  | boolean (value : Bool)
  | text (value : String)
deriving DecidableEq, Repr

/-- An unsigned number in 32 bits, or an exception. -/
def narrow (value : ℤ) : Except Thrown UInt32 :=
  if 0 ≤ value ∧ value < 2 ^ 32 then .ok (UInt32.ofNat value.toNat) else .error .other

/-- `NumberParser::parseUnsigned`. -/
def parseUnsigned (text : String) : Except Thrown UInt32 :=
  if text.toList ≠ [] ∧ text.toList.all Char.isDigit then
    narrow (text.toList.foldl (fun n c => 10 * n + (c.toNat - 48)) 0 : ℕ)
  else .error .other

/-- A body that names the process as a string. -/
def quotedPid : Bytes := Bytes.ofString "\x7b\"requestor_pid\":\"5\"\x7d"

/-- Poco and protobuf on this body: a string is no integer, but it can be converted to one; and the
message has no such field. -/
def samplePoco : JsonLibrary where
  Var := PocoValue ⊕ List (String × PocoValue)
  Object := List (String × PocoValue)
  parse body :=
    if body = quotedPid then .ok (.inr [("requestor_pid", .text "5")]) else .error .jsonException
  extract
    | .inr object => .ok object
    | .inl _ => .error .other
  has object key := (object.lookup key).isSome
  get object key := .inl ((object.lookup key).getD .empty)
  isInteger
    | .inl (.integer _) => true
    -- `std::numeric_limits<bool>::is_integer`
    | .inl (.boolean _) => true
    | _ => false
  isBoolean
    | .inl (.boolean _) => true
    | _ => false
  convertUInt32
    | .inl (.integer value) => narrow value
    | .inl (.boolean value) => .ok (if value then 1 else 0)
    | .inl (.text value) => parseUnsigned value
    | _ => .error .other
  convertBool
    | .inl (.integer value) => .ok (value != 0)
    | .inl (.boolean value) => .ok value
    | .inl (.text value) => .ok (value != "" && value != "0" && value.toLower != "false")
    | _ => .error .other
  jsonStringToMessage _ := (false, { fileDesc := { path := [], size := 0, mtime := 0 }, digest := "" })

/-- **A request that is answered `400` takes a permission away.** -/
theorem rejected_release :
    let m : TaskMonitor :=
      { maxHeavyTasks := 4, maxLightTasks := 6, permissionsGranted := {5} }
    let w := ((handleRequest samplePoco (.releaseQuota quotedPid)).exec (freshWorld m {})).2
    w.response.sent = some .badRequest ∧ 5 ∈ m.permissionsGranted ∧
      5 ∉ w.monitor.permissionsGranted := by
  decide +kernel

end Local
