/-
**What a request says of its sender, and what becomes of it.**

`WaitForStaringTask` tells the dispatcher two things about the daemon that asks: where it is, so
that its own machine is used last, and the oldest daemon it can work with.  Neither arrives as it
should.

* `requester_ip` is filled with `context->peer()`, which is of the form `ipv4:IP:PORT`.  The
  locations of the servants begin with a digit, so the test whether a servant runs on the same
  machine fails for all of them, and the own machine is chosen like any other.
* The filter drops the servants whose version is *greater* than `min_version`.

With `Distribuild/SchedulerChoice.lean` it is known which servant is chosen, so the module can say
exactly when the two requirements are met all the same.

Main definitions:

* `Scheduler.lookFor` — the look at the servants that a request makes;
* `Scheduler.chosen` — whose turn it is;
* `Scheduler.OwnMachineLast`, `Scheduler.VersionFloor` — the two requirements.

Main results:

* `Scheduler.granted_iff_chosen` — **who is granted**;
* `Scheduler.allocation_grants_by_look` — the grants of a response come of such looks;
* `Scheduler.not_sameIp_peer` — no servant is found on the machine of a peer;
* `Scheduler.own_machine_last_iff` — when the requester's machine is the last resort;
* `Scheduler.version_floor_iff` — when the version of the requester is respected.
-/

import Distribuild.SchedulerChoice
import Distribuild.SchedulerHeartbeat

set_option relaxedAutoImplicit false
set_option autoImplicit false

namespace Scheduler

/-! ### Who is granted -/

/-- Whose turn it is among the free servants: the first dedicated one that is half free, or else the
first one, the servant on the requester's machine being set aside; and that one if no other is
left. -/
def chosen (s : TaskDispatcher) (freeServants : List ServantPtr) (requestorIp : String) :
    Option ServantPtr :=
  (firstChoice s (remaining s freeServants requestorIp) isDedicated).or
    (freeServants.find? fun p => sameIp requestorIp (s.locationOf p))

theorem firstChoice_eq_none {s : TaskDispatcher} {servants : List ServantPtr}
    {filter : Servant → Bool} : firstChoice s servants filter = none ↔ servants = [] := by
  cases servants with
  | nil => simp [firstChoice]
  | cons p ps => simp [firstChoice]

/-- The two picks in a row, from a list of free servants. -/
theorem unsafePickUpFreeServant_eq_chosen {s : TaskDispatcher} {freeServants : List ServantPtr}
    (h : ∀ p ∈ freeServants, (s.heap p).runningTasks < (s.infoOf p).concurrency)
    (requestorIp : String) :
    (unsafePickUpFreeServant s freeServants requestorIp).1 = chosen s freeServants requestorIp := by
  have hrest : ∀ filter, unsafePickUpServant s (remaining s freeServants requestorIp) filter =
      firstChoice s (remaining s freeServants requestorIp) filter := fun filter =>
    unsafePickUpServant_of_free fun p hp => h p (List.mem_of_mem_eraseP hp)
  simp only [unsafePickUpFreeServant, chosen]
  rw [← remaining, hrest, hrest]
  cases hfirst : firstChoice s (remaining s freeServants requestorIp) isDedicated with
  | some p => rfl
  | none =>
      -- no servant is left, so the second pick is empty-handed as well
      rw [firstChoice_eq_none.2 (firstChoice_eq_none.1 hfirst)]
      cases freeServants.find? fun p => sameIp requestorIp (s.locationOf p) with
      | some p => rfl
      | none => rfl

theorem lt_concurrency_of_mem_free {s : TaskDispatcher} {taskInfo : TaskInfo} :
    ∀ p ∈ freeServantsFor s taskInfo, (s.heap p).runningTasks < (s.infoOf p).concurrency :=
  fun _ hp => lt_concurrency_of_isFree (mem_freeServantsFor.1 hp).2.2

/-- **A task is granted on the servant whose turn it is**, and on no other. -/
theorem granted_iff_chosen {s : TaskDispatcher} (taskInfo : TaskInfo) (expiresIn : Duration)
    (prefetching : Bool) (now : TimePoint) {p : ServantPtr} :
    (∃ added, (waitForStartingNewTask s taskInfo expiresIn prefetching now).2 = .granted added p) ↔
      chosen s (freeServantsFor s taskInfo) taskInfo.requesterIp = some p := by
  rw [← unsafePickUpFreeServant_eq_chosen lt_concurrency_of_mem_free]
  rcases waitForStartingNewTask_cases s taskInfo expiresIn prefetching now with
    ⟨henv, heq⟩ | ⟨-, hfree, heq⟩ | ⟨q, -, hpick, heq⟩
  · have hfree : freeServantsFor s taskInfo = [] := by
      rw [freeServantsFor, henv]
      rfl
    rw [heq, hfree]
    refine iff_of_false ?_ fun h => by cases h
    rintro ⟨added, hadded⟩
    cases hadded
  · rw [heq, hfree]
    refine iff_of_false ?_ fun h => by cases h
    rintro ⟨added, hadded⟩
    cases hadded
  · rw [heq, hpick]
    constructor
    · rintro ⟨added, hadded⟩
      cases hadded
      rfl
    · intro hq
      cases hq
      exact ⟨_, rfl⟩

/-- One look at the servants on behalf of a request. -/
def lookFor (peer : String) (request : WaitForStaringTaskRequest) (prefetching : Bool)
    (now : TimePoint) : SchedulerEvent :=
  .op (.waitForStartingNewTask (requestedTask peer request) (ms request.nextKeepAliveInMs.toNat)
    prefetching now) rfl

/-- What a look that is granted a task has found, and what it tells. -/
theorem lookFor_granted {service : SchedulerServiceImpl} {s : TaskDispatcher} {peer : String}
    {request : WaitForStaringTaskRequest} {prefetching : Bool} {now : TimePoint}
    {added : TaskAllocation} {p : ServantPtr}
    (h : (scheduler service).out s (lookFor peer request prefetching now) =
      .done (.started (.granted added p))) :
    chosen s (freeServantsFor s (requestedTask peer request)) peer = some p ∧
      p ∈ freeServantsFor s (requestedTask peer request) ∧
      added.servantLocation = s.locationOf p := by
  have hstart : (waitForStartingNewTask s (requestedTask peer request)
      (ms request.nextKeepAliveInMs.toNat) prefetching now).2 = .granted added p := by
    simpa only [scheduler, Machine.out, lookFor, schedulerStep, exec, SchedulerReply.done.injEq,
      Output.started.injEq] using h
  obtain ⟨hmem, hloc, -⟩ := grant_sound (Prod.ext rfl hstart)
  exact ⟨(granted_iff_chosen ..).1 ⟨added, hstart⟩, hmem, hloc⟩

/-- The servant whose turn it is is granted the task. -/
theorem lookFor_of_chosen {s : TaskDispatcher} {peer : String}
    {request : WaitForStaringTaskRequest} {p : ServantPtr}
    (h : chosen s (freeServantsFor s (requestedTask peer request)) peer = some p)
    (service : SchedulerServiceImpl) (prefetching : Bool) (now : TimePoint) :
    ∃ added, (scheduler service).out s (lookFor peer request prefetching now) =
      .done (.started (.granted added p)) := by
  obtain ⟨added, hstart⟩ := (granted_iff_chosen (requestedTask peer request)
    (ms request.nextKeepAliveInMs.toNat) prefetching now).2 h
  refine ⟨added, ?_⟩
  simp only [scheduler, Machine.out, lookFor, schedulerStep, exec, hstart]

/-! ### What the handler is granted -/

section Handler

variable {service : SchedulerServiceImpl} {peer : String} {request : WaitForStaringTaskRequest}

/-- The arguments with which the handler calls the dispatcher. -/
def IsOwnRequest (peer : String) (request : WaitForStaringTaskRequest) (r : WaitRequest) : Prop :=
  r.taskInfo = requestedTask peer request ∧ r.expiresIn = ms request.nextKeepAliveInMs.toNat

/-- The handler sleeps with its own request. -/
def AsksForItself (peer : String) (request : WaitForStaringTaskRequest) (a : Allocation) : Prop :=
  ∀ w, a.waiting.waiting 0 = some w → IsOwnRequest peer request w.request

/-- Whatever happens in the dispatcher, the handler goes on sleeping with its own request. -/
theorem AsksForItself.next {a a' : Allocation} (h : AsksForItself peer request a) {e : WaitEvent}
    (hcall : ∀ r deadline now, e = .call 0 r deadline now → IsOwnRequest peer request r)
    (hwaiting : a'.waiting = blocking.next a.waiting e) : AsksForItself peer request a' := by
  intro w hw
  rw [hwaiting] at hw
  rcases Monitor.waiting_next hw with ⟨w₀, hw₀, hreq⟩ | ⟨deadline, now, he⟩
  · rw [← hreq]
    exact h w₀ hw₀
  · exact hcall _ deadline now he

variable (service) in
/-- What the handler is granted in the dispatcher is what a look on behalf of its request finds. -/
theorem AsksForItself.look_of_granted {a : Allocation} (h : AsksForItself peer request a)
    {e : WaitEvent} (h0 : e.caller? = some 0)
    (hcall : ∀ r deadline now, e = .call 0 r deadline now → IsOwnRequest peer request r)
    {added : TaskAllocation} {p : ServantPtr}
    (hout : blocking.out a.waiting e = .answered (.granted added p)) :
    ∃ prefetching now, (scheduler service).out a.waiting.shared
      (lookFor peer request prefetching now) = .done (.started (.granted added p)) := by
  obtain ⟨caller, r, now, hcaller, hasked, hanswer⟩ := Monitor.out_eq_answered hout
  cases h0.symm.trans hcaller
  have hown : IsOwnRequest peer request r := by
    rcases hasked with ⟨deadline, he⟩ | ⟨-, w, hw, rfl⟩
    · exact hcall r deadline now he
    · exact h w hw
  refine ⟨r.prefetching, now, ?_⟩
  have hstart : (waitForStartingNewTask a.waiting.shared r.taskInfo r.expiresIn r.prefetching
      now).2 = .granted added p := by
    change (attemptToStart a.waiting.shared r now).2 = _ at hanswer
    unfold attemptToStart at hanswer
    split at hanswer
    · cases hanswer
    next s' result _ heq =>
      rw [heq]
      exact Option.some_inj.1 hanswer
  rw [hown.1, hown.2] at hstart
  simp only [scheduler, Machine.out, lookFor, schedulerStep, exec, hstart]

/-- What the handler makes of a reply: at most one more grant. -/
theorem grants_receive (a : Allocation) (reply : WaitReply) :
    (a.receive reply).grants = a.grants ∨
      ∃ added p, reply = .answered (.granted added p) ∧
        (a.receive reply).grants = a.grants ++ [added] := by
  unfold Allocation.receive
  split
  · exact Or.inr ⟨_, _, rfl, rfl⟩
  · exact Or.inl rfl
  · exact Or.inl rfl
  · exact Or.inr ⟨_, _, rfl, rfl⟩
  · exact Or.inl rfl
  · exact Or.inl rfl
  · exact Or.inl rfl

/-- Of one step of the handler: it adds no grant to the response, or one that a look on behalf of
its request finds in the state of the dispatcher at this moment. -/
def GrantsByLook (service : SchedulerServiceImpl) (peer : String)
    (request : WaitForStaringTaskRequest) (a : Allocation) (step : AllocationStep) : Prop :=
  (allocationStep service peer request a step).grants = a.grants ∨
    ∃ added p prefetching now,
      (allocationStep service peer request a step).grants = a.grants ++ [added] ∧
      (scheduler service).out a.waiting.shared (lookFor peer request prefetching now) =
        .done (.started (.granted added p))

/-- A step inside the dispatcher. -/
theorem AsksForItself.enter {a : Allocation} (h : AsksForItself peer request a) {e : WaitEvent}
    (h0 : e.caller? = some 0)
    (hcall : ∀ r deadline now, e = .call 0 r deadline now → IsOwnRequest peer request r) :
    AsksForItself peer request (a.enter e) ∧
      ((a.enter e).grants = a.grants ∨ ∃ added p prefetching now,
        (a.enter e).grants = a.grants ++ [added] ∧
        (scheduler service).out a.waiting.shared (lookFor peer request prefetching now) =
          .done (.started (.granted added p))) := by
  refine ⟨h.next hcall (enter_waiting a e), ?_⟩
  rcases grants_receive { a with
      waiting := blocking.next a.waiting e
      created := a.created ++ drawn a.waiting.shared (blocking.next a.waiting e).shared }
      (blocking.out a.waiting e) with hsame | ⟨added, p, hout, hgrants⟩
  · exact Or.inl hsame
  · obtain ⟨prefetching, now, hlook⟩ := h.look_of_granted service h0 hcall hout
    exact Or.inr ⟨added, p, prefetching, now, hgrants, hlook⟩

theorem asksForItself_step {a : Allocation} (h : AsksForItself peer request a)
    (step : AllocationStep) :
    AsksForItself peer request (allocationStep service peer request a step) ∧
      GrantsByLook service peer request a step := by
  have hrequest (prefetching : Bool) (wait : Duration) (now : TimePoint) : ∀ r deadline now',
      requestCall peer request a prefetching wait now = .call 0 r deadline now' →
        IsOwnRequest peer request r := by
    intro r deadline now' heq
    cases heq
    exact ⟨rfl, rfl⟩
  unfold GrantsByLook
  cases step with
  | arrive now =>
      simp only [allocationStep]
      split
      · split
        · exact ⟨h, Or.inl rfl⟩
        · exact ⟨h, Or.inl rfl⟩
      · exact ⟨h, Or.inl rfl⟩
  | proceed now =>
      simp only [allocationStep]
      split
      · split
        · exact ⟨h, Or.inl rfl⟩
        · exact h.enter rfl (hrequest _ _ _)
      · split
        · exact ⟨h, Or.inl rfl⟩
        · exact h.enter rfl (hrequest _ _ _)
      · exact ⟨h, Or.inl rfl⟩
  | wake timedOut now =>
      simp only [allocationStep]
      split
      · exact h.enter rfl fun _ _ _ heq => by cases heq
      · exact h.enter rfl fun _ _ _ heq => by cases heq
      · exact ⟨h, Or.inl rfl⟩
  | other e he =>
      refine ⟨h.next (fun r deadline now heq => ?_) rfl, Or.inl rfl⟩
      rw [heq] at he
      exact absurd rfl he

/-- **Every grant of a response comes of a look on behalf of its request**, whatever the other
threads do. -/
theorem allocation_grants_by_look (service : SchedulerServiceImpl) (peer : String)
    (request : WaitForStaringTaskRequest) (minMemory : UInt64) (steps : List AllocationStep) :
    (allocation service peer request).Along (GrantsByLook service peer request) (.init minMemory)
      steps := by
  refine Machine.along_of_invariant (M := allocation service peer request)
    (C := fun _ _ => True) (P := AsksForItself peer request)
    (fun a step _ h => (asksForItself_step h step).1)
    (fun a step _ h => (asksForItself_step h step).2) (fun w hw => by cases hw) ?_
  exact Machine.along_iff.2 fun _ _ _ _ => trivial

end Handler

/-! ### Where a requester is -/

/-- What `inet_pton` accepts begins with a digit. -/
theorem inetPton_digit {ip : List Char} (h : inetPton ip = true) :
    ∃ c cs, ip = c :: cs ∧ c.isDigit = true := by
  cases ip with
  | nil => cases h
  | cons c cs =>
      refine ⟨c, cs, rfl, ?_⟩
      by_contra hnot
      simp [inetPton, scanIPv4, hnot] at h

/-- So does an address that can be read. -/
theorem tryParseIPv4_digit {location : String} {r : String × String}
    (h : tryParseIPv4 location = some r) : ∃ c cs, r.1.toList = c :: cs ∧ c.isDigit = true := by
  simp only [tryParseIPv4] at h
  split at h
  · cases h
  · split at h
    · cases h
    next hpton =>
      split at h
      · cases h
      · cases h
        rw [Bool.not_eq_true', Bool.not_eq_false] at hpton
        obtain ⟨c, cs, hcstr, hdigit⟩ := inetPton_digit hpton
        -- what the C function sees is an initial part of the address
        rw [String.toList_ofList]
        generalize location.toList.takeWhile (· != ':') = ip at hcstr ⊢
        cases ip with
        | nil => cases hcstr
        | cons c' cs' =>
            refine ⟨c', cs', rfl, ?_⟩
            rw [cStr, List.takeWhile_cons] at hcstr
            split at hcstr
            · cases hcstr
              exact hdigit
            · cases hcstr

theorem tryParseGrpcIPv4_digit {peer : String} {r : String × String}
    (h : tryParseGrpcIPv4 peer = some r) : ∃ c cs, r.1.toList = c :: cs ∧ c.isDigit = true := by
  simp only [tryParseGrpcIPv4] at h
  split at h
  · cases h
  · exact tryParseIPv4_digit h

/-- The location of a servant begins with a digit. -/
theorem location_digit (service : SchedulerServiceImpl) (minMemory : UInt64)
    (events : List SchedulerEvent) :
    let s := (scheduler service).run (.init minMemory) events
    ∀ p ∈ s.servants, ∃ c cs, (s.locationOf p).toList = c :: cs ∧ c.isDigit = true := by
  intro s p hp
  obtain ⟨peer, beat, -, hbeat⟩ := traced_run service minMemory events p hp
  obtain ⟨-, reported, observed, -, hobserved, hinfo⟩ := heartBeatServant_ok hbeat
  obtain ⟨c, cs, hip, hdigit⟩ := tryParseGrpcIPv4_digit hobserved
  have hloc : s.locationOf p = observed.1 ++ ":" ++ reported.2 := by
    rw [TaskDispatcher.locationOf, hinfo]
    rfl
  refine ⟨c, cs ++ (":".toList ++ reported.2.toList), ?_, hdigit⟩
  rw [hloc, String.toList_append, String.toList_append, hip]
  simp

/-- The peer of a call over IPv4. -/
def ipv4Peer (ip port : String) : String := "ipv4:" ++ ip ++ ":" ++ port

/-- **No servant is found on the machine of a peer**, since the peer is not an address. -/
theorem not_sameIp_peer {location : String} {c : Char} {cs : List Char}
    (hloc : location.toList = c :: cs) (hdigit : c.isDigit = true) (ip port : String) :
    sameIp (ipv4Peer ip port) location = false := by
  have hpeer : (ipv4Peer ip port).toList =
      'i' :: ("pv4:".toList ++ (ip.toList ++ (":".toList ++ port.toList))) := by
    simp [ipv4Peer, String.toList_append]
  have hne : 'i' ≠ c := by
    rintro rfl
    cases hdigit
  simp only [sameIp, hpeer, hloc, List.isPrefixOf_cons_cons]
  simp [hne]

/-- **The requester's own machine is the last resort**: in the state `s`, a look on behalf of a
request from the address `ip` names a servant there only if every servant that is free for the
request is there. -/
def OwnMachineLast (service : SchedulerServiceImpl) (s : TaskDispatcher) (ip peer : String)
    (request : WaitForStaringTaskRequest) : Prop :=
  ∀ prefetching now added p,
    (scheduler service).out s (lookFor peer request prefetching now) =
      .done (.started (.granted added p)) →
    sameIp ip added.servantLocation = true →
    ∀ q ∈ freeServantsFor s (requestedTask peer request), sameIp ip (s.locationOf q) = true

/-- Nothing is set aside for a peer. -/
theorem chosen_peer {s : TaskDispatcher} {freeServants : List ServantPtr} {ip port : String}
    (h : ∀ p ∈ freeServants, sameIp (ipv4Peer ip port) (s.locationOf p) = false) :
    chosen s freeServants (ipv4Peer ip port) = firstChoice s freeServants isDedicated := by
  have hrest : remaining s freeServants (ipv4Peer ip port) = freeServants :=
    List.eraseP_of_forall_not fun p hp => by rw [h p hp]; decide
  have hself : (freeServants.find? fun p => sameIp (ipv4Peer ip port) (s.locationOf p)) = none :=
    List.find?_eq_none.2 fun p hp => by rw [h p hp]; decide
  rw [chosen, hrest, hself, Option.or_none]

/-- **When the requester's own machine is the last resort.**  In every state that a run of the
scheduler reaches, and for every request from a peer `ipv4:IP:PORT`, it is so if and only if the
first dedicated servant among the free ones that is half free, or else the first free one, is not on
that machine unless all free servants are. -/
theorem own_machine_last_iff (service : SchedulerServiceImpl) (minMemory : UInt64)
    (events : List SchedulerEvent) (ip port : String) (request : WaitForStaringTaskRequest) :
    let s := (scheduler service).run (.init minMemory) events
    let free := freeServantsFor s (requestedTask (ipv4Peer ip port) request)
    OwnMachineLast service s ip (ipv4Peer ip port) request ↔
      ∀ p, firstChoice s free isDedicated = some p → sameIp ip (s.locationOf p) = true →
        ∀ q ∈ free, sameIp ip (s.locationOf q) = true := by
  intro s free
  have hchosen : chosen s free (ipv4Peer ip port) = firstChoice s free isDedicated := by
    refine chosen_peer fun p hp => ?_
    obtain ⟨c, cs, hloc, hdigit⟩ :=
      location_digit service minMemory events p (mem_freeServantsFor.1 hp).1
    exact not_sameIp_peer hloc hdigit ip port
  constructor
  · intro hlast p hp hown
    obtain ⟨added, hout⟩ := lookFor_of_chosen (hchosen.trans hp) service false 0
    refine hlast false 0 added p hout ?_
    rw [(lookFor_granted hout).2.2]
    exact hown
  · intro hfirst prefetching now added p hout hown
    obtain ⟨hturn, -, hloc⟩ := lookFor_granted hout
    refine hfirst p (hchosen.symm.trans hturn) ?_
    rw [← hloc]
    exact hown

/-- A heartbeat of a servant at this address, over IPv4. -/
def sampleBeatFrom (ip : String) (version : UInt32) : SchedulerEvent :=
  .heartBeat (ipv4Peer ip "5555") { sampleHeartBeat (ip ++ ":8080") with version := version } 0

/-- **The own machine comes first**: it has registered before another one, and both are free, but
the task is granted on it. -/
theorem own_machine_first :
    let s := (scheduler sampleService).run (.init 0)
      [sampleBeatFrom "10.0.0.9" 1, sampleBeatFrom "10.0.0.1" 1]
    let peer := ipv4Peer "10.0.0.9" "40000"
    (scheduler sampleService).out s (lookFor peer sampleRequest false 0) =
        .done (.started (.granted { taskId := 0, servantLocation := "10.0.0.9:8080" } 0)) ∧
      sameIp "10.0.0.9" "10.0.0.9:8080" = true ∧
      (1 : ServantPtr) ∈ freeServantsFor s (requestedTask peer sampleRequest) ∧
      sameIp "10.0.0.9" (s.locationOf 1) = false ∧
      ¬OwnMachineLast sampleService s "10.0.0.9" peer sampleRequest := by
  intro s peer
  have hout : (scheduler sampleService).out s (lookFor peer sampleRequest false 0) =
      .done (.started (.granted { taskId := 0, servantLocation := "10.0.0.9:8080" } 0)) := by
    decide +kernel
  have hfree : (1 : ServantPtr) ∈ freeServantsFor s (requestedTask peer sampleRequest) := by
    decide +kernel
  have hother : sameIp "10.0.0.9" (s.locationOf 1) = false := by decide +kernel
  refine ⟨hout, by decide +kernel, hfree, hother, fun hlast => ?_⟩
  have hown := hlast false 0 _ 0 hout (by decide +kernel) 1 hfree
  rw [hother] at hown
  cases hown

/-! ### Versions -/

/-- **The version of the requester is a floor**: after the history `tr`, in the state `s`, a look on
behalf of the request names a servant only if the last heartbeat that was accepted for its location
reported at least `min_version`, and no servant that has the compiler and accepts tasks is passed
over although its version is high enough. -/
structure VersionFloor (service : SchedulerServiceImpl)
    (tr : List (SchedulerEvent × SchedulerReply)) (s : TaskDispatcher) (peer : String)
    (request : WaitForStaringTaskRequest) : Prop where
  granted : ∀ prefetching now added p,
    (scheduler service).out s (lookFor peer request prefetching now) =
      .done (.started (.granted added p)) →
    ∃ sender beat, lastAccepted added.servantLocation tr = some (sender, beat) ∧
      request.minVersion ≤ beat.version
  offered : ∀ p ∈ s.servants, findEnv (s.infoOf p) (requestedTask peer request) = true →
    0 < (s.infoOf p).concurrency → request.minVersion ≤ (s.infoOf p).version →
    p ∈ unsafeGetServantsHasEnv s (requestedTask peer request)

/-- A servant with the compiler that accepts tasks is eligible exactly if its version is at most
`min_version`. -/
theorem mem_hasEnv_iff_version {s : TaskDispatcher} {taskInfo : TaskInfo} {p : ServantPtr}
    (hp : p ∈ s.servants) (henv : findEnv (s.infoOf p) taskInfo = true)
    (hconc : 0 < (s.infoOf p).concurrency) :
    p ∈ unsafeGetServantsHasEnv s taskInfo ↔ (s.infoOf p).version ≤ taskInfo.minVersion := by
  rw [mem_unsafeGetServantsHasEnv, hasEnv_iff]
  simp only [findEnv, List.any_eq_true, beq_iff_eq] at henv
  exact ⟨fun h => h.2.2.2, fun hversion => ⟨hp, henv, hconc, hversion⟩⟩

/-- **When the version of the requester is respected.**  In every state that a run of the scheduler
reaches and for every request, it is so if and only if no servant that has the compiler and accepts
tasks is newer than `min_version`, and the servant whose turn it is is not older. -/
theorem version_floor_iff (service : SchedulerServiceImpl) (minMemory : UInt64)
    (events : List SchedulerEvent) (peer : String) (request : WaitForStaringTaskRequest) :
    let s := (scheduler service).run (.init minMemory) events
    let task := requestedTask peer request
    VersionFloor service ((scheduler service).trace (.init minMemory) events) s peer request ↔
      (∀ p ∈ s.servants, findEnv (s.infoOf p) task = true → 0 < (s.infoOf p).concurrency →
        (s.infoOf p).version ≤ request.minVersion) ∧
      ∀ p, chosen s (freeServantsFor s task) peer = some p →
        request.minVersion ≤ (s.infoOf p).version := by
  intro s task
  -- the version that is recorded is that of the last heartbeat
  have hlast : ∀ p ∈ s.servants, ∃ sender beat,
      lastAccepted (s.locationOf p) ((scheduler service).trace (.init minMemory) events) =
        some (sender, beat) ∧ beat.version = (s.infoOf p).version := by
    intro p hp
    obtain ⟨sender, beat, haccepted, hbeat⟩ := traced_run service minMemory events p hp
    obtain ⟨-, reported, observed, -, -, hinfo⟩ := heartBeatServant_ok hbeat
    refine ⟨sender, beat, haccepted, ?_⟩
    rw [hinfo]
    rfl
  constructor
  · intro hfloor
    refine ⟨fun p hp henv hconc => ?_, fun p hp => ?_⟩
    · rcases UInt32.le_total (s.infoOf p).version request.minVersion with hle | hge
      · exact hle
      · exact (mem_hasEnv_iff_version hp henv hconc).1 (hfloor.offered p hp henv hconc hge)
    · obtain ⟨added, hout⟩ := lookFor_of_chosen hp service false 0
      obtain ⟨-, hmem, hloc⟩ := lookFor_granted hout
      obtain ⟨sender, beat, haccepted, hge⟩ := hfloor.granted false 0 added p hout
      obtain ⟨sender', beat', haccepted', hversion⟩ := hlast p (mem_freeServantsFor.1 hmem).1
      rw [hloc] at haccepted
      cases haccepted.symm.trans haccepted'
      rw [← hversion]
      exact hge
  · rintro ⟨hnone, hturn⟩
    refine ⟨fun prefetching now added p hout => ?_, fun p hp henv hconc _ => ?_⟩
    · obtain ⟨hchosen, hmem, hloc⟩ := lookFor_granted hout
      obtain ⟨sender, beat, haccepted, hversion⟩ := hlast p (mem_freeServantsFor.1 hmem).1
      refine ⟨sender, beat, hloc ▸ haccepted, ?_⟩
      rw [hversion]
      exact hturn p hchosen
    · exact (mem_hasEnv_iff_version hp henv hconc).2 (hnone p hp henv hconc)

/-- **The version of the requester is a ceiling**: of two servants with versions `1` and `3`, a
request for version `2` or later is granted the older one, and the newer one is passed over. -/
theorem old_version_granted :
    let s := (scheduler sampleService).run (.init 0)
      [sampleBeatFrom "10.0.0.1" 1, sampleBeatFrom "10.0.0.3" 3]
    let request := { sampleRequest with minVersion := 2 }
    (scheduler sampleService).out s (lookFor samplePeer request false 0) =
        .done (.started (.granted { taskId := 0, servantLocation := "10.0.0.1:8080" } 0)) ∧
      (s.infoOf 0).version = 1 ∧ (s.infoOf 1).version = 3 ∧
      ¬VersionFloor sampleService ((scheduler sampleService).trace (.init 0)
        [sampleBeatFrom "10.0.0.1" 1, sampleBeatFrom "10.0.0.3" 3]) s samplePeer request := by
  intro s request
  refine ⟨by decide +kernel, by decide +kernel, by decide +kernel, fun hfloor => ?_⟩
  have hmem := hfloor.offered 1 (by decide +kernel) (by decide +kernel) (by decide +kernel)
    (by decide +kernel)
  exact absurd hmem (by decide +kernel)

end Scheduler
