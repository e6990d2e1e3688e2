/-
**The scheduler's RPC service.**

`SchedulerServiceImpl` is what daemons talk to.  It checks tokens and arguments, turns a request
into calls of the `TaskDispatcher`, and hands out the tokens with which daemons talk to each other.
This module embeds `scheduler/scheduler_service_impl.cpp` and `common/token_verifier.h`; the handler
of `WaitForStaringTask`, which sleeps inside the dispatcher, follows in
`Distribuild/SchedulerAllocate.lean`.

A handler takes the lock of the dispatcher once for every call it makes, and other threads may run
in between.  `heartBeat` is the handler when nothing comes in between; the pieces it is made of,
`heartBeatServant` before the first call and the calls themselves, are what the machines of the
later modules interleave.

Strings are lists of characters here.  The code compares bytes, but it only ever looks for `:`, `.`,
digits and the prefix `ipv4:`, which no other character of UTF-8 contains.

Main definitions:

* `Scheduler.Status`, `Scheduler.TokenVerifier` — results and access;
* `Scheduler.tryParseIPv4`, `Scheduler.tryParseGrpcIPv4` — addresses;
* `Scheduler.SchedulerServiceImpl`, `Scheduler.SchedulerServiceImpl.activeDaemonTokens` — the tokens
  in use;
* `Scheduler.heartBeatServant`, `Scheduler.heartBeat`, `Scheduler.getConfig`,
  `Scheduler.keepTaskAliveRpc`, `Scheduler.freeTaskRpc`, `Scheduler.getRunningTasksRpc` — the
  handlers.

Main results:

* `Scheduler.lookup_keepTaskAliveRpc` — a request to keep tasks alive leaves all others;
* `Scheduler.heartBeatServant_ok` — what an accepted heartbeat has passed;
* `Scheduler.concurrency_pos` — what a heartbeat with a positive concurrency has passed.
-/

import Distribuild.SchedulerDispatcher

set_option relaxedAutoImplicit false
set_option autoImplicit false

namespace Scheduler

/-! ### Statuses and tokens -/

/-- The codes of `grpc::StatusCode` that the service uses. -/
inductive StatusCode
  | ok
  | invalidArgument
  | notFound
  | permissionDenied
  | resourceExhausted
deriving DecidableEq, Repr

/-- `grpc::Status`. -/
structure Status where
  code : StatusCode
  message : String := ""
deriving DecidableEq, Repr

/-- `grpc::Status::OK`. -/
def Status.OK : Status := { code := .ok }

structure TokenVerifier where
  recognizedTokens : List String := []
deriving DecidableEq, Repr

def TokenVerifier.verify (v : TokenVerifier) (token : String) : Bool :=
  v.recognizedTokens.contains token

/-! ### Addresses -/

/-- The part of a string that a C function sees of it: `c_str()`, up to the first zero. -/
def cStr (s : List Char) : List Char := s.takeWhile (· != '\x00')

/-- The scanner behind `inet_pton(AF_INET, …)`: how many numbers have begun, and the value of the
one it is in.  A number is at most `255` and has no leading zero. -/
def scanIPv4 : List Char → ℕ → Option ℕ → Bool
  | [], octets, _ => decide (octets = 4)
  | c :: cs, octets, current =>
      if c.isDigit then
        match current with
        | some value =>
            let new := value * 10 + (c.toNat - '0'.toNat)
            if value = 0 ∨ new > 255 then false else scanIPv4 cs octets (some new)
        | none =>
            if octets + 1 > 4 then false
            else scanIPv4 cs (octets + 1) (some (c.toNat - '0'.toNat))
      else if c = '.' ∧ current.isSome then
        if octets = 4 then false else scanIPv4 cs octets none
      else false

/-- `inet_pton(AF_INET, ip, …) == 1`. -/
def inetPton (ip : List Char) : Bool := scanIPv4 ip 0 none

def tryParseIPv4 (location : String) : Option (String × String) :=
  let chars := location.toList
  if !chars.contains ':' then none
  else
    let ip := chars.takeWhile (· != ':')
    let port := (chars.dropWhile (· != ':')).drop 1
    if !inetPton (cStr ip) then none
    else if port.any (!·.isDigit) then none
    else some (String.ofList ip, String.ofList port)

def tryParseGrpcIPv4 (location : String) : Option (String × String) :=
  let kPrefix := "ipv4:".toList
  if !kPrefix.isPrefixOf location.toList then none
  else tryParseIPv4 (String.ofList (location.toList.drop kPrefix.length))

/-! ### The service -/

/-- The state of the service: its verifiers and flags, which never change, and the tokens for the
daemons.  The times are integers, since `FLAGS_token_rollout_interval_s` may be negative. -/
structure SchedulerServiceImpl where
  userTokenVerifier : TokenVerifier
  servantTokenVerifier : TokenVerifier
  minDaemonVersion : UInt32 := 0
  tokenRolloutInterval : ℤ := 3000 * 1000000000
  nextTokenRollout : ℤ := 0
  activeDaemonTokens : List String
deriving DecidableEq, Repr

/-- The constructor, with the three tokens that `NextDaemonToken` has drawn. -/
def SchedulerServiceImpl.construct (userTokenVerifier servantTokenVerifier : TokenVerifier)
    (minDaemonVersion : UInt32) (tokenRolloutInterval : ℤ) (now : TimePoint)
    (expiring active deploying : String) : SchedulerServiceImpl where
  userTokenVerifier := userTokenVerifier
  servantTokenVerifier := servantTokenVerifier
  minDaemonVersion := minDaemonVersion
  tokenRolloutInterval := tokenRolloutInterval
  nextTokenRollout := now + tokenRolloutInterval
  activeDaemonTokens := [expiring, active, deploying]

/-- The tokens have to be rotated at this clock reading. -/
def SchedulerServiceImpl.rolloutDue (service : SchedulerServiceImpl) (now : TimePoint) : Bool :=
  decide (service.nextTokenRollout < now)

/-- `ActiveDaemonTokens`, on the state.  `nextDaemonToken` is what `NextDaemonToken` would draw; the
tokens returned are those of the new state. -/
def SchedulerServiceImpl.rollout (service : SchedulerServiceImpl) (now : TimePoint)
    (nextDaemonToken : String) : SchedulerServiceImpl :=
  if service.rolloutDue now then
    { service with
      nextTokenRollout := now + service.tokenRolloutInterval
      activeDaemonTokens := service.activeDaemonTokens.tail ++ [nextDaemonToken] }
  else service

/-! ### Heartbeats -/

/-- `HeartBeatRequest`.  (`not_accepting_reason` is never read.) -/
structure HeartBeatRequest where
  token : String
  nextHeartBeatInMs : UInt32
  version : UInt32
  location : String
  numCpuCores : UInt32
  currentLoad : UInt32
  priority : ServantPriority
  concurrency : UInt32
  totalMemoryInBytes : UInt64
  availMemoryInBytes : UInt64
  envDescs : List EnviromentDesc
  runningTasks : List RunningTask
deriving DecidableEq, Repr

structure HeartBeatResponse where
  tokens : List String
  expiredTasks : List UInt64
deriving DecidableEq, Repr

/-- The concurrency that `HeartBeat` records: that of the request, set to `0` in three places. -/
def recordedConcurrency (service : SchedulerServiceImpl) (request : HeartBeatRequest)
    (observedLocation : String) : UInt64 :=
  let concurrency := request.concurrency.toUInt64
  -- a machine behind NAT cannot be reached
  let concurrency := if observedLocation ≠ request.location then 0 else concurrency
  -- a user may not lend a machine
  let concurrency := if !service.servantTokenVerifier.verify request.token then 0 else concurrency
  -- a servant that takes its leave
  if request.nextHeartBeatInMs = 0 then 0 else concurrency

/-- The `ServantInfo` that `HeartBeat` fills in. -/
def recordedInfo (service : SchedulerServiceImpl) (request : HeartBeatRequest)
    (observedLocation : String) : ServantInfo where
  version := request.version
  observedLocation := observedLocation
  reportedLocation := request.location
  numCpuCores :=
    if request.numCpuCores = 0 then request.concurrency.toUInt64 else request.numCpuCores.toUInt64
  currentLoad := request.currentLoad.toUInt64
  totalMemoryInBytes := request.totalMemoryInBytes
  availMemoryInBytes := request.availMemoryInBytes
  concurrency := recordedConcurrency service request observedLocation
  priority := if request.priority = .unknown then .user else request.priority
  envDecs := request.envDescs

/-- `HeartBeat` up to its first call of the dispatcher: the status it is refused with, or the
servant it is about.  `peer` is `context->peer()`. -/
def heartBeatServant (service : SchedulerServiceImpl) (peer : String)
    (request : HeartBeatRequest) : Except Status ServantInfo :=
  if !service.userTokenVerifier.verify request.token &&
      !service.servantTokenVerifier.verify request.token then
    .error { code := .permissionDenied, message := "Token验证失败" }
  else if request.version < service.minDaemonVersion then
    .error { code := .invalidArgument, message := "版本号大于自己" }
  else if ms request.nextHeartBeatInMs.toNat > sec 15 then
    .error { code := .permissionDenied, message := "不合理的超时时间" }
  else
    match tryParseIPv4 request.location with
    | none => .error { code := .invalidArgument, message := "非法地址" }
    | some reported =>
        match tryParseGrpcIPv4 peer with
        | none => .error { code := .invalidArgument, message := "暂不支持的地址" }
        | some observed => .ok (recordedInfo service request (observed.1 ++ ":" ++ reported.2))

/-- `HeartBeat`.  The clock is read by `KeepServantAlive` and once more by `ActiveDaemonTokens`. -/
def heartBeat (service : SchedulerServiceImpl) (s : TaskDispatcher) (peer : String)
    (request : HeartBeatRequest) (now nowTokens : TimePoint) (nextDaemonToken : String) :
    (SchedulerServiceImpl × TaskDispatcher) × Except Status HeartBeatResponse :=
  match heartBeatServant service peer request with
  | .error status => ((service, s), .error status)
  | .ok servantInfo =>
      let s := (keepServantAlive s servantInfo (ms request.nextHeartBeatInMs.toNat) now).1
      let service := service.rollout nowTokens nextDaemonToken
      -- the location of the request, not the one that was observed
      let r := notifyServantRunningTasks s request.location request.runningTasks
      ((service, r.dispatcher),
        .ok { tokens := service.activeDaemonTokens, expiredTasks := r.unknownTasks })

/-! ### The other handlers -/

/-- `GetConfig`, for a request with this token: `daemon_token` is the token in use. -/
def getConfig (service : SchedulerServiceImpl) (token : String) (now : TimePoint)
    (nextDaemonToken : String) : SchedulerServiceImpl × Except Status String :=
  if !service.userTokenVerifier.verify token then
    (service, .error { code := .permissionDenied, message := "Token验证失败" })
  else
    let service := service.rollout now nextDaemonToken
    (service, .ok (service.activeDaemonTokens.getD 1 ""))

/-- `KeepTaskAlive` of the service: one call of the dispatcher for each id, the `i`-th of them at
the clock reading `now i`. -/
def keepTaskAliveRpc (service : SchedulerServiceImpl) (s : TaskDispatcher) (token : String)
    (taskGrantIds : List UInt64) (nextKeepAliveInMs : UInt32) (now : ℕ → TimePoint) :
    TaskDispatcher × Except Status (List Bool) :=
  if !service.userTokenVerifier.verify token then
    (s, .error { code := .permissionDenied, message := "Token验证失败" })
  else if ms nextKeepAliveInMs.toNat > sec 30 then
    (s, .error { code := .invalidArgument, message := "时间过长" })
  else
    let r := taskGrantIds.zipIdx.foldl (fun (r : TaskDispatcher × List Bool) call =>
      let kept := keepTaskAlive r.1 call.1 (ms nextKeepAliveInMs.toNat) (now call.2)
      (kept.1, r.2 ++ [kept.2])) (s, [])
    (r.1, .ok r.2)

/-- `FreeTask` of the service: one call of the dispatcher for each id. -/
def freeTaskRpc (service : SchedulerServiceImpl) (s : TaskDispatcher) (token : String)
    (taskGrantIds : List UInt64) : TaskDispatcher × Status :=
  if !service.userTokenVerifier.verify token then
    (s, { code := .permissionDenied, message := "Token验证失败" })
  else
    (taskGrantIds.foldl (fun s taskId => (freeTask s taskId).1) s, .OK)

/-- `GetRunningTasks` of the service. -/
def getRunningTasksRpc (s : TaskDispatcher) : List RunningTask :=
  s.runningTaskBookkeeper.getRunningTasks

/-! ### What keeping alive touches -/

theorem lookup_keepTaskAlive_of_ne {taskId id : UInt64} (h : id ≠ taskId) (s : TaskDispatcher)
    (expireTime : Duration) (now : TimePoint) :
    (keepTaskAlive s taskId expireTime now).1.tasks.lookup id = s.tasks.lookup id := by
  rw [keepTaskAlive]
  split
  · rfl
  · split
    · rfl
    · exact AList.lookup_insert_ne h

/-- A request to keep tasks alive leaves all other tasks as they are. -/
theorem lookup_keepTaskAliveRpc {id : UInt64} {taskGrantIds : List UInt64} (h : id ∉ taskGrantIds)
    (service : SchedulerServiceImpl) (s : TaskDispatcher) (token : String)
    (nextKeepAliveInMs : UInt32) (now : ℕ → TimePoint) :
    (keepTaskAliveRpc service s token taskGrantIds nextKeepAliveInMs now).1.tasks.lookup id =
      s.tasks.lookup id := by
  have hloop : ∀ (calls : List (UInt64 × ℕ)) (r : TaskDispatcher × List Bool),
      (∀ call ∈ calls, id ≠ call.1) →
      (calls.foldl (fun (r : TaskDispatcher × List Bool) call =>
        let kept := keepTaskAlive r.1 call.1 (ms nextKeepAliveInMs.toNat) (now call.2)
        (kept.1, r.2 ++ [kept.2])) r).1.tasks.lookup id = r.1.tasks.lookup id := by
    intro calls
    induction calls with
    | nil => exact fun r _ => rfl
    | cons call calls ih =>
        intro r hne
        rw [List.foldl_cons, ih _ fun other hother => hne other (List.mem_cons_of_mem _ hother)]
        exact lookup_keepTaskAlive_of_ne (hne call List.mem_cons_self) ..
  rw [keepTaskAliveRpc]
  split
  · rfl
  · split
    · rfl
    · refine hloop _ _ fun call hcall heq => h ?_
      rw [heq]
      exact List.fst_mem_of_mem_zipIdx hcall

/-! ### What a heartbeat has passed -/

/-- **An accepted heartbeat** carries an accepted token and two addresses that can be read, and it
is about the servant at the observed address with the reported port. -/
theorem heartBeatServant_ok {service : SchedulerServiceImpl} {peer : String}
    {request : HeartBeatRequest} {servantInfo : ServantInfo}
    (h : heartBeatServant service peer request = .ok servantInfo) :
    (service.userTokenVerifier.verify request.token = true ∨
      service.servantTokenVerifier.verify request.token = true) ∧
    ∃ reported observed, tryParseIPv4 request.location = some reported ∧
      tryParseGrpcIPv4 peer = some observed ∧
      servantInfo = recordedInfo service request (observed.1 ++ ":" ++ reported.2) := by
  unfold heartBeatServant at h
  split at h
  · cases h
  next htoken =>
    split at h
    · cases h
    · split at h
      · cases h
      · split at h
        · cases h
        next reported hreported =>
          split at h
          · cases h
          next observed hobserved =>
            cases h
            refine ⟨?_, reported, observed, hreported, hobserved, rfl⟩
            by_contra hnot
            rw [not_or, Bool.not_eq_true, Bool.not_eq_true] at hnot
            exact htoken (by rw [hnot.1, hnot.2]; rfl)

/-- **A positive concurrency** is recorded only for a servant with a servant's token, that reports
the address it is observed at, and that announces its next heartbeat. -/
theorem concurrency_pos {service : SchedulerServiceImpl} {request : HeartBeatRequest}
    {observedLocation : String}
    (h : 0 < (recordedInfo service request observedLocation).concurrency) :
    service.servantTokenVerifier.verify request.token = true ∧
      request.location = observedLocation ∧ request.nextHeartBeatInMs ≠ 0 := by
  change 0 < recordedConcurrency service request observedLocation at h
  unfold recordedConcurrency at h
  by_cases hnext : request.nextHeartBeatInMs = 0
  · rw [if_pos hnext] at h
    exact absurd h (UInt64.lt_irrefl 0)
  rw [if_neg hnext] at h
  cases htoken : service.servantTokenVerifier.verify request.token with
  | false =>
      rw [htoken, Bool.not_false, if_pos rfl] at h
      exact absurd h (UInt64.lt_irrefl 0)
  | true =>
      rw [htoken, Bool.not_true, if_neg Bool.false_ne_true] at h
      by_cases hnat : observedLocation ≠ request.location
      · rw [if_pos hnat] at h
        exact absurd h (UInt64.lt_irrefl 0)
      · exact ⟨rfl, (not_not.1 hnat).symm, hnext⟩

end Scheduler
