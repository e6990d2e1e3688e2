/-
**Grants, fetched ahead and handed out.**

A daemon may run a compile in the cloud only with a grant of the scheduler.  `TaskGrantKeeper` keeps
grants in stock, for each compiler in a keeper of its own: a queue, a mutex, two condition
variables, and a thread that fetches.  A call of `Get` takes the first grant of the queue.  If there
is none, it counts itself among the `waiters`, tells the fetcher, and sleeps on `available_cv` until
there is one or its time is over.  The fetcher sleeps on `need_more_cv` while the queue is not
empty; otherwise it asks the scheduler for as many grants as there are waiters and one more, without
the mutex, and puts what it gets at the end of the queue.

This module embeds `daemon/local/task_grant_keeper.cpp` as a machine.  Its inputs are the critical
sections: what a thread does from the moment it has the mutex of a keeper until it gives it up.
Between two of them anything may happen, and a thread may also wake up for no reason.  The first
block of `Get`, which finds the keeper or makes it under another mutex, is an input of its own.  The
thread pool is taken to have a thread for every fetcher.

The module ends with what can be said about one keeper and its history: the queue is a queue.

Main definitions:

* `Local.EnvGrantKeeper` — a keeper with the threads in it, `Local.TaskGrantKeeper` — all of them;
* `Local.discardExpired` — the loop of `Get` over the grants that have expired;
* `Local.grantMachine` — the machine;
* `Local.historyAt` — the history of one keeper;
* `Local.collectAt`, `Local.collect` — the grants in the history of one keeper, and of all: those
  that came (`KeeperReply.received`), those that left the queue (`KeeperReply.popped`), and those
  that a call of `Get` has returned (`KeeperReply.taken`).

Main results:

* `Local.grant_cases`, `Local.keeper_cases` — what one step can do, to all keepers and to one;
* `Local.keeper_invariant` — the invariant rule for keepers and their histories;
* `Local.kept_run` — **in every run the grants received are those that have left the queue and those
  still in it, in this order**;
* `Local.grants_handed_out_once` — **no grant is handed out twice**, or for another compiler, or out
  of order, and the waiters are counted, as long as there are fewer than `2 ^ 32`;
* `Local.waiters_wrap` — beyond that they are not.
-/

import Distribuild.Monitor
import Distribuild.SchedulerAllocate
import Distribuild.LocalPerform

set_option relaxedAutoImplicit false
set_option autoImplicit false

namespace Local

open Scheduler (TimePoint Duration ms sec EnviromentDesc WaitForStaringTaskRequest)

/-! ### One keeper -/

/-- A grant in the queue of a keeper: `TaskGrantKeeper::GrantDesc`. -/
structure QueuedGrant extends GrantDesc where
  expireTp : TimePoint
  /-- History: what the clock read when the grant was put into the queue. -/
  arrivedTp : TimePoint
deriving DecidableEq, Repr

def kMaxWait : Duration := sec 5

def kNetworkDelayTolerance : Duration := sec 5

def kExpiresIn : Duration := sec 15

/-- Where the fetcher of a keeper is. -/
inductive Fetcher
  /-- At the head of its loop. -/
  | looping
  /-- Asleep on `need_more_cv`; whether it has been notified since it fell asleep. -/
  | asleep (notified : Bool)
  /-- In the call of the scheduler, without the mutex. -/
  | calling (request : WaitForStaringTaskRequest)
  /-- The loop has been left. -/
  | exited
deriving DecidableEq, Repr

/-- `need_more_cv.notify_all()`. -/
def Fetcher.notify : Fetcher → Fetcher
  | .asleep _ => .asleep true
  | fetcher => fetcher

/-- `EnvGrantKeeper`, with the position of its fetcher and the calls of `Get` that sleep on
`available_cv`, each with its deadline. -/
structure EnvGrantKeeper where
  envDesc : EnviromentDesc
  waiters : UInt32 := 0
  remaining : List QueuedGrant := []
  fetcher : Fetcher := .looping
  blocked : Table ℕ TimePoint := ∅

/-- What a thread does with the mutex of a keeper. -/
inductive KeeperEvent
  /-- A call of `Get` comes in.  `clock i` is what it reads when it looks at the grant behind `i`
  others. -/
  | get (call : ℕ) (deadline : TimePoint) (clock : ℕ → TimePoint)
  /-- A sleep of a call of `Get` ends. -/
  | wakeGet (call : ℕ) (timedOut : Bool) (now : TimePoint)
  /-- The fetcher tests the condition of its wait, at first or because its sleep has ended. -/
  | fetch
  /-- The call of the scheduler has returned, with grants, each with what the clock reads when it is
  stored, or with an error. -/
  | answer (response : Option (List (GrantDesc × TimePoint)))

inductive KeeperReply
  /-- `Get` returns, after it has discarded these grants, each at this clock reading. -/
  | returned (discarded : List (QueuedGrant × TimePoint)) (result : Option QueuedGrant)
  /-- `Get` goes to sleep, after it has discarded these grants. -/
  | blocked (discarded : List (QueuedGrant × TimePoint))
  /-- The scheduler is called. -/
  | requested (request : WaitForStaringTaskRequest)
  /-- The fetcher puts these grants into the queue. -/
  | stored (grants : List QueuedGrant)
  /-- The thread goes on waiting, or leaves its loop, or the call of the scheduler has failed. -/
  | silent
  /-- The event cannot happen in this state, and nothing does. -/
  | disabled
deriving DecidableEq, Repr

/-- The loop of `Get` over the expired grants at the front of the queue: what it discards, at which
clock reading, and what is left. -/
def discardExpired (clock : ℕ → TimePoint) :
    List QueuedGrant → List (QueuedGrant × TimePoint) × List QueuedGrant
  | [] => ([], [])
  | grant :: queue =>
      if grant.expireTp < clock 0 then
        let r := discardExpired (fun i => clock (i + 1)) queue
        ((grant, clock 0) :: r.1, r.2)
      else ([], grant :: queue)

namespace EnvGrantKeeper

/-- `Get`, up to its return or its wait. -/
def get (k : EnvGrantKeeper) (call : ℕ) (deadline : TimePoint) (clock : ℕ → TimePoint) :
    EnvGrantKeeper × KeeperReply :=
  match discardExpired clock k.remaining with
  | (discarded, grant :: queue) => ({ k with remaining := queue }, .returned discarded (some grant))
  | (discarded, []) =>
      ({ k with
          remaining := []
          waiters := k.waiters + 1
          fetcher := k.fetcher.notify
          blocked := k.blocked.insert call deadline }, .blocked discarded)

/-- `Get`, from the end of a sleep on.  Whether the counter is `0` after the decrement is only
logged. -/
def wakeGet (k : EnvGrantKeeper) (call : ℕ) (deadline : TimePoint) (timedOut : Bool)
    (now : TimePoint) : EnvGrantKeeper × KeeperReply :=
  match Monitor.waitFor (!k.remaining.isEmpty) deadline now timedOut with
  | .satisfied =>
      ({ k with
          remaining := k.remaining.tail
          waiters := k.waiters - 1
          blocked := k.blocked.erase call }, .returned [] k.remaining.head?)
  | .timedOut =>
      ({ k with waiters := k.waiters - 1, blocked := k.blocked.erase call }, .returned [] none)
  | .asleep => (k, .silent)

/-- The request that the fetcher makes. -/
def request (k : EnvGrantKeeper) (token : String) : WaitForStaringTaskRequest where
  token := token
  millsToWait := UInt32.ofNat (kMaxWait / ms 1)
  nextKeepAliveInMs := UInt32.ofNat (kExpiresIn / ms 1)
  envDesc := k.envDesc
  immeadiateReqs := k.waiters
  prefetchReqs := 1
  minVersion := 1

/-- The fetcher tests the condition of its wait and goes on, or sleeps. -/
def fetch (k : EnvGrantKeeper) (token : String) (leaving : Bool) : EnvGrantKeeper × KeeperReply :=
  if leaving then ({ k with fetcher := .exited }, .silent)
  else if k.remaining.isEmpty then
    ({ k with fetcher := .calling (k.request token) }, .requested (k.request token))
  else ({ k with fetcher := .asleep false }, .silent)

/-- A grant as the fetcher stores it. -/
def store (grant : GrantDesc × TimePoint) : QueuedGrant where
  toGrantDesc := grant.1
  expireTp := grant.2 + kMaxWait - kNetworkDelayTolerance
  arrivedTp := grant.2

/-- The end of a pass through the loop of the fetcher. -/
def answer (k : EnvGrantKeeper) (response : Option (List (GrantDesc × TimePoint))) :
    EnvGrantKeeper × KeeperReply :=
  match response with
  | some grants =>
      ({ k with remaining := k.remaining ++ grants.map store, fetcher := .looping },
        .stored (grants.map store))
  | none => ({ k with fetcher := .looping }, .silent)

/-- One step of a keeper. -/
def step (token : String) (leaving : Bool) (k : EnvGrantKeeper) :
    KeeperEvent → EnvGrantKeeper × KeeperReply
  | .get call deadline clock =>
      match k.blocked.lookup call with
      | none => k.get call deadline clock
      | some _ => (k, .disabled)
  | .wakeGet call timedOut now =>
      match k.blocked.lookup call with
      | some deadline => k.wakeGet call deadline timedOut now
      | none => (k, .disabled)
  | .fetch =>
      match k.fetcher with
      | .looping => k.fetch token leaving
      | .asleep _ => k.fetch token leaving
      | _ => (k, .disabled)
  | .answer response =>
      match k.fetcher with
      | .calling _ => k.answer response
      | _ => (k, .disabled)

end EnvGrantKeeper

/-! ### All keepers -/

structure TaskGrantKeeper where
  leaving : Bool := false
  keepers : Table String EnvGrantKeeper := ∅

inductive GrantEvent
  /-- The first block of `Get`. -/
  | findKeeper (desc : EnviromentDesc)
  /-- A thread has the mutex of the keeper of a compiler. -/
  | withKeeper (digest : String) (event : KeeperEvent)
  | free (grantId : UInt64)
  | stop

inductive GrantReply
  | done (reply : KeeperReply)
  /-- This grant was passed to `Free`. -/
  | freed (grantId : UInt64)
  | silent
  | disabled
deriving DecidableEq, Repr

def TaskGrantKeeper.step (token : String) (s : TaskGrantKeeper) :
    GrantEvent → TaskGrantKeeper × GrantReply
  | .findKeeper desc =>
      match s.keepers.lookup desc.compilerDigest with
      | some _ => (s, .silent)
      | none =>
          ({ s with keepers := s.keepers.insert desc.compilerDigest { envDesc := desc } }, .silent)
  | .withKeeper digest event =>
      match s.keepers.lookup digest with
      | none => (s, .disabled)
      | some k =>
          let r := k.step token s.leaving event
          ({ s with keepers := s.keepers.insert digest r.1 }, .done r.2)
  | .free grantId => (s, .freed grantId)
  | .stop =>
      ({ leaving := true
         keepers := s.keepers.mapVal fun k => { k with fetcher := k.fetcher.notify } }, .silent)

/-- **The grant keeper as a machine**, for a value of `FLAGS_scheduler_token`. -/
def grantMachine (token : String) : Machine TaskGrantKeeper GrantEvent GrantReply :=
  ⟨TaskGrantKeeper.step token⟩

/-- What one step of all keepers can do. -/
inductive GrantCase (token : String) (s : TaskGrantKeeper) :
    GrantEvent → GrantReply → TaskGrantKeeper → Prop
  | found {desc : EnviromentDesc} : s.keepers.lookup desc.compilerDigest ≠ none →
      GrantCase token s (.findKeeper desc) .silent s
  | made {desc : EnviromentDesc} : s.keepers.lookup desc.compilerDigest = none →
      GrantCase token s (.findKeeper desc) .silent
        { s with keepers := s.keepers.insert desc.compilerDigest { envDesc := desc } }
  | absent {digest : String} {event : KeeperEvent} : s.keepers.lookup digest = none →
      GrantCase token s (.withKeeper digest event) .disabled s
  | acted {digest : String} {event : KeeperEvent} {k : EnvGrantKeeper} :
      s.keepers.lookup digest = some k →
      GrantCase token s (.withKeeper digest event) (.done (k.step token s.leaving event).2)
        { s with keepers := s.keepers.insert digest (k.step token s.leaving event).1 }
  | freed {grantId : UInt64} : GrantCase token s (.free grantId) (.freed grantId) s
  | stopped :
      GrantCase token s .stop .silent
        { leaving := true
          keepers := s.keepers.mapVal fun k => { k with fetcher := k.fetcher.notify } }

theorem grant_cases (token : String) (s : TaskGrantKeeper) (e : GrantEvent) :
    GrantCase token s e ((grantMachine token).out s e) ((grantMachine token).next s e) := by
  cases e with
  | findKeeper desc =>
      rw [Machine.next, Machine.out]
      cases hlook : s.keepers.lookup desc.compilerDigest with
      | some k =>
          simp only [grantMachine, TaskGrantKeeper.step, hlook]
          exact .found (by rw [hlook]; exact Option.some_ne_none k)
      | none =>
          simp only [grantMachine, TaskGrantKeeper.step, hlook]
          exact .made hlook
  | withKeeper digest event =>
      rw [Machine.next, Machine.out]
      cases hlook : s.keepers.lookup digest with
      | some k =>
          simp only [grantMachine, TaskGrantKeeper.step, hlook]
          exact .acted hlook
      | none =>
          simp only [grantMachine, TaskGrantKeeper.step, hlook]
          exact .absent hlook
  | free grantId => exact .freed
  | stop => exact .stopped

/-! ### What one step of a keeper can do -/

/-- What is discarded and what is left make up the queue. -/
theorem discardExpired_append {clock : ℕ → TimePoint} {queue left : List QueuedGrant}
    {discarded : List (QueuedGrant × TimePoint)}
    (h : discardExpired clock queue = (discarded, left)) :
    discarded.map Prod.fst ++ left = queue := by
  induction queue generalizing clock discarded with
  | nil =>
      cases h
      rfl
  | cons grant queue ih =>
      rw [discardExpired] at h
      split at h
      next =>
        cases h
        rw [List.map_cons, List.cons_append, ih rfl]
      next =>
        cases h
        rfl

/-- What a step makes of a keeper, and what comes of it. -/
inductive KeeperCase (token : String) (leaving : Bool) (k : EnvGrantKeeper) :
    KeeperEvent → EnvGrantKeeper → KeeperReply → Prop
  /-- Nothing changes: the event is not possible, or a call of `Get` goes on sleeping. -/
  | idle {e : KeeperEvent} {reply : KeeperReply} (h : reply = .disabled ∨ reply = .silent)
      (hget : ∀ call deadline clock, e = .get call deadline clock → call ∈ k.blocked)
      (hwake : ∀ call timedOut now, e = .wakeGet call timedOut now → call ∈ k.blocked →
        k.remaining = []) : KeeperCase token leaving k e k reply
  /-- A call of `Get` finds a grant. -/
  | took {call : ℕ} {deadline : TimePoint} {clock : ℕ → TimePoint}
      {discarded : List (QueuedGrant × TimePoint)} {grant : QueuedGrant} {queue : List QueuedGrant}
      (hcall : call ∉ k.blocked)
      (h : discardExpired clock k.remaining = (discarded, grant :: queue)) :
      KeeperCase token leaving k (.get call deadline clock) { k with remaining := queue }
        (.returned discarded (some grant))
  /-- A call of `Get` finds none and goes to sleep. -/
  | slept {call : ℕ} {deadline : TimePoint} {clock : ℕ → TimePoint}
      {discarded : List (QueuedGrant × TimePoint)} (hcall : call ∉ k.blocked)
      (h : discardExpired clock k.remaining = (discarded, [])) :
      KeeperCase token leaving k (.get call deadline clock)
        { k with
          remaining := []
          waiters := k.waiters + 1
          fetcher := k.fetcher.notify
          blocked := k.blocked.insert call deadline } (.blocked discarded)
  /-- A call of `Get` wakes up and finds a grant. -/
  | woke {call : ℕ} {timedOut : Bool} {now : TimePoint} {grant : QueuedGrant}
      {queue : List QueuedGrant} (hcall : call ∈ k.blocked) (h : k.remaining = grant :: queue) :
      KeeperCase token leaving k (.wakeGet call timedOut now)
        { k with
          remaining := queue
          waiters := k.waiters - 1
          blocked := k.blocked.erase call } (.returned [] (some grant))
  /-- The time of a call of `Get` is over. -/
  | gaveUp {call : ℕ} {timedOut : Bool} {now : TimePoint} (hcall : call ∈ k.blocked)
      (h : k.remaining = []) :
      KeeperCase token leaving k (.wakeGet call timedOut now)
        { k with waiters := k.waiters - 1, blocked := k.blocked.erase call } (.returned [] none)
  /-- The fetcher leaves its loop. -/
  | left (h : leaving = true) :
      KeeperCase token leaving k .fetch { k with fetcher := .exited } .silent
  /-- The fetcher calls the scheduler. -/
  | called (hleaving : leaving = false) (h : k.remaining = []) :
      KeeperCase token leaving k .fetch { k with fetcher := .calling (k.request token) }
        (.requested (k.request token))
  /-- The fetcher goes to sleep. -/
  | dozed (hleaving : leaving = false) (h : k.remaining ≠ []) :
      KeeperCase token leaving k .fetch { k with fetcher := .asleep false } .silent
  /-- The fetcher stores what the scheduler has granted. -/
  | stored {request : WaitForStaringTaskRequest} (grants : List (GrantDesc × TimePoint))
      (h : k.fetcher = .calling request) :
      KeeperCase token leaving k (.answer (some grants))
        { k with remaining := k.remaining ++ grants.map EnvGrantKeeper.store, fetcher := .looping }
        (.stored (grants.map EnvGrantKeeper.store))
  /-- The call of the scheduler has failed. -/
  | failed {request : WaitForStaringTaskRequest} (h : k.fetcher = .calling request) :
      KeeperCase token leaving k (.answer none) { k with fetcher := .looping } .silent

section Cases

variable (token : String) (leaving : Bool) (k : EnvGrantKeeper)

theorem keeperCase_fetch :
    KeeperCase token leaving k .fetch (k.fetch token leaving).1 (k.fetch token leaving).2 := by
  unfold EnvGrantKeeper.fetch
  cases leaving with
  | true => exact .left rfl
  | false =>
      simp only [Bool.false_eq_true, if_false]
      split
      next hempty => exact .called rfl (List.isEmpty_iff.1 hempty)
      next hempty => exact .dozed rfl fun h => hempty (List.isEmpty_iff.2 h)

theorem keeperCase_wakeGet {call : ℕ} (hcall : call ∈ k.blocked) (deadline : TimePoint)
    (timedOut : Bool) (now : TimePoint) :
    KeeperCase token leaving k (.wakeGet call timedOut now)
      (k.wakeGet call deadline timedOut now).1 (k.wakeGet call deadline timedOut now).2 := by
  unfold EnvGrantKeeper.wakeGet
  cases hqueue : k.remaining with
  | cons grant queue =>
      simp only [List.isEmpty_cons, Bool.not_false, Monitor.waitFor, if_true, List.tail_cons,
        List.head?_cons]
      exact .woke hcall hqueue
  | nil =>
      simp only [List.isEmpty_nil, Bool.not_true, Monitor.waitFor, Bool.false_eq_true, if_false]
      cases hlate : timedOut && decide (deadline ≤ now) with
      | true =>
          have hcase := @KeeperCase.gaveUp token leaving k call timedOut now hcall hqueue
          rw [hqueue] at hcase
          exact hcase
      | false =>
          refine .idle (Or.inr rfl) (fun _ _ _ h => by cases h) fun _ _ _ _ _ => hqueue

/-- A step of the fetcher that is not possible. -/
theorem keeperCase_disabled {e : KeeperEvent} (h : e = .fetch ∨ ∃ response, e = .answer response) :
    KeeperCase token leaving k e k .disabled := by
  rcases h with rfl | ⟨response, rfl⟩
  · exact .idle (Or.inl rfl) (fun _ _ _ h => by cases h) fun _ _ _ h => by cases h
  · exact .idle (Or.inl rfl) (fun _ _ _ h => by cases h) fun _ _ _ h => by cases h

/-- **Every step of a keeper** is one of these. -/
theorem keeper_cases (e : KeeperEvent) :
    KeeperCase token leaving k e (k.step token leaving e).1 (k.step token leaving e).2 := by
  cases e with
  | get call deadline clock =>
      cases hcall : k.blocked.lookup call with
      | some deadline' =>
          simp only [EnvGrantKeeper.step, hcall]
          refine .idle (Or.inl rfl) (fun call' _ _ heq => ?_) fun _ _ _ h => by cases h
          cases heq
          exact Table.mem_iff_lookup.2 ⟨deadline', hcall⟩
      | none =>
          have hnot : call ∉ k.blocked := AList.lookup_eq_none.1 hcall
          simp only [EnvGrantKeeper.step, hcall, EnvGrantKeeper.get]
          cases hdiscard : discardExpired clock k.remaining with
          | mk discarded queue =>
              cases queue with
              | cons grant queue => exact .took hnot hdiscard
              | nil => exact .slept hnot hdiscard
  | wakeGet call timedOut now =>
      cases hcall : k.blocked.lookup call with
      | none =>
          simp only [EnvGrantKeeper.step, hcall]
          refine .idle (Or.inl rfl) (fun _ _ _ h => by cases h) fun call' _ _ heq hmem => ?_
          cases heq
          exact absurd hmem (AList.lookup_eq_none.1 hcall)
      | some deadline =>
          simp only [EnvGrantKeeper.step, hcall]
          exact keeperCase_wakeGet token leaving k (Table.mem_iff_lookup.2 ⟨deadline, hcall⟩)
            deadline timedOut now
  | fetch =>
      cases hfetcher : k.fetcher with
      | looping =>
          simp only [EnvGrantKeeper.step, hfetcher]
          exact keeperCase_fetch token leaving k
      | asleep notified =>
          simp only [EnvGrantKeeper.step, hfetcher]
          exact keeperCase_fetch token leaving k
      | calling request =>
          simp only [EnvGrantKeeper.step, hfetcher]
          exact keeperCase_disabled token leaving k (Or.inl rfl)
      | exited =>
          simp only [EnvGrantKeeper.step, hfetcher]
          exact keeperCase_disabled token leaving k (Or.inl rfl)
  | answer response =>
      cases hfetcher : k.fetcher with
      | calling request =>
          simp only [EnvGrantKeeper.step, hfetcher]
          cases response with
          | some grants => exact .stored grants hfetcher
          | none => exact .failed hfetcher
      | looping =>
          simp only [EnvGrantKeeper.step, hfetcher]
          exact keeperCase_disabled token leaving k (Or.inr ⟨response, rfl⟩)
      | asleep notified =>
          simp only [EnvGrantKeeper.step, hfetcher]
          exact keeperCase_disabled token leaving k (Or.inr ⟨response, rfl⟩)
      | exited =>
          simp only [EnvGrantKeeper.step, hfetcher]
          exact keeperCase_disabled token leaving k (Or.inr ⟨response, rfl⟩)

end Cases

/-! ### Histories -/

/-- The history of the keeper of one compiler. -/
def historyAt (digest : String) (tr : List (GrantEvent × GrantReply)) :
    List (KeeperEvent × KeeperReply) :=
  tr.filterMap fun e =>
    match e with
    | (.withKeeper d event, .done reply) => if d = digest then some (event, reply) else none
    | _ => none

theorem historyAt_concat (digest : String) (tr : List (GrantEvent × GrantReply))
    (e : GrantEvent × GrantReply) :
    historyAt digest (tr ++ [e]) = historyAt digest tr ++ historyAt digest [e] :=
  List.filterMap_append

section Invariant

variable {token : String}
  {I : String → List (KeeperEvent × KeeperReply) → EnvGrantKeeper → Prop}

/-- Every keeper has `I` with its history, and a keeper that is not there has none. -/
def AllKeepers (I : String → List (KeeperEvent × KeeperReply) → EnvGrantKeeper → Prop)
    (tr : List (GrantEvent × GrantReply)) (s : TaskGrantKeeper) : Prop :=
  ∀ digest, (s.keepers.lookup digest = none → historyAt digest tr = []) ∧
    ∀ k, s.keepers.lookup digest = some k → I digest (historyAt digest tr) k

theorem allKeepers_next
    (hnew : ∀ desc : EnviromentDesc, I desc.compilerDigest [] { envDesc := desc })
    (hstep : ∀ digest h k leaving e, I digest h k →
      I digest (h ++ [(e, (k.step token leaving e).2)]) (k.step token leaving e).1)
    (hnotify : ∀ digest h k, I digest h k → I digest h { k with fetcher := k.fetcher.notify })
    {tr : List (GrantEvent × GrantReply)} {s : TaskGrantKeeper} (h : AllKeepers I tr s)
    (e : GrantEvent) :
    AllKeepers I (tr ++ [(e, (grantMachine token).out s e)]) ((grantMachine token).next s e) := by
  intro digest
  rw [historyAt_concat]
  have hcase := grant_cases token s e
  generalize (grantMachine token).next s e = s' at hcase ⊢
  generalize (grantMachine token).out s e = reply at hcase ⊢
  cases hcase with
  | found | absent | freed =>
      rw [show historyAt digest [_] = [] from rfl, List.append_nil]
      exact h digest
  | @made desc hlook =>
      rw [show historyAt digest [_] = [] from rfl, List.append_nil]
      by_cases hdigest : digest = desc.compilerDigest
      · subst hdigest
        simp only [AList.lookup_insert, reduceCtorEq, false_imp_iff, true_and, Option.some.injEq]
        rintro k rfl
        rw [(h _).1 hlook]
        exact hnew desc
      · simp only [AList.lookup_insert_ne hdigest]
        exact h digest
  | @acted d event k hlook =>
      by_cases hdigest : digest = d
      · subst hdigest
        simp only [AList.lookup_insert, reduceCtorEq, false_imp_iff, true_and, Option.some.injEq]
        rintro k' rfl
        have hone : historyAt digest [(.withKeeper digest event,
            .done (k.step token s.leaving event).2)] =
              [(event, (k.step token s.leaving event).2)] := by
          simp [historyAt]
        rw [hone]
        exact hstep digest _ k s.leaving event ((h digest).2 k hlook)
      · have hnone : historyAt digest [(.withKeeper d event,
            .done (k.step token s.leaving event).2)] = [] := by
          simp [historyAt, Ne.symm hdigest]
        simp only [AList.lookup_insert_ne hdigest, hnone, List.append_nil]
        exact h digest
  | stopped =>
      rw [show historyAt digest [_] = [] from rfl, List.append_nil]
      simp only [Table.lookup_mapVal, Option.map_eq_none_iff, Option.map_eq_some_iff]
      refine ⟨(h digest).1, ?_⟩
      rintro k' ⟨k, hlook, rfl⟩
      exact hnotify digest _ k ((h digest).2 k hlook)

/-- **The invariant rule for keepers**: what holds of a new keeper and is kept by its steps and by a
notification holds of every keeper in every run. -/
theorem keeper_invariant
    (hnew : ∀ desc : EnviromentDesc, I desc.compilerDigest [] { envDesc := desc })
    (hstep : ∀ digest h k leaving e, I digest h k →
      I digest (h ++ [(e, (k.step token leaving e).2)]) (k.step token leaving e).1)
    (hnotify : ∀ digest h k, I digest h k → I digest h { k with fetcher := k.fetcher.notify })
    (events : List GrantEvent) :
    AllKeepers I ((grantMachine token).trace {} events) ((grantMachine token).run {} events) :=
  Machine.trace_invariant (M := grantMachine token) (P := AllKeepers I)
    (fun _ => ⟨fun _ => rfl, fun k hk => by cases hk⟩)
    (fun _ _ e h => allKeepers_next hnew hstep hnotify h e) events

end Invariant

/-! ### The queue is a queue -/

/-- The grants that come with a reply. -/
def KeeperReply.received : KeeperReply → List QueuedGrant
  | .stored grants => grants
  | _ => []

/-- The grants that have been discarded. -/
def KeeperReply.discarded : KeeperReply → List QueuedGrant
  | .returned discarded _ => discarded.map Prod.fst
  | .blocked discarded => discarded.map Prod.fst
  | _ => []

/-- The grant that a call of `Get` has returned. -/
def KeeperReply.taken : KeeperReply → List QueuedGrant
  | .returned _ (some grant) => [grant]
  | _ => []

/-- What a history of a keeper comes to, in the order of its steps. -/
def collectAt (grants : KeeperReply → List QueuedGrant) (h : List (KeeperEvent × KeeperReply)) :
    List QueuedGrant :=
  h.flatMap fun e => grants e.2

theorem collectAt_append (grants : KeeperReply → List QueuedGrant)
    (h h' : List (KeeperEvent × KeeperReply)) :
    collectAt grants (h ++ h') = collectAt grants h ++ collectAt grants h' :=
  List.flatMap_append

theorem collectAt_concat (grants : KeeperReply → List QueuedGrant)
    (h : List (KeeperEvent × KeeperReply)) (e : KeeperEvent) (reply : KeeperReply) :
    collectAt grants (h ++ [(e, reply)]) = collectAt grants h ++ grants reply := by
  rw [collectAt_append]
  exact congrArg _ (List.flatMap_singleton _ _)

/-- The grants that have left the queue: first those that were discarded, then the one that was
returned. -/
def KeeperReply.popped (reply : KeeperReply) : List QueuedGrant := reply.discarded ++ reply.taken

/-- The number of calls of `Get` between the increment and the decrement of `waiters`. -/
def EnvGrantKeeper.numBlocked (k : EnvGrantKeeper) : ℕ := k.blocked.tally fun _ => true

/-- **The invariant of a keeper and its history.** -/
structure Kept (digest : String) (h : List (KeeperEvent × KeeperReply)) (k : EnvGrantKeeper) :
    Prop where
  /-- What was received has left the queue or is still in it, in this order. -/
  queue : collectAt KeeperReply.received h = collectAt KeeperReply.popped h ++ k.remaining
  /-- The keeper is that of its compiler. -/
  env : k.envDesc.compilerDigest = digest
  /-- So are its requests. -/
  requests : ∀ e request, (e, .requested request) ∈ h → request.envDesc.compilerDigest = digest
  /-- The counter, up to its width. -/
  counted : k.waiters = UInt32.ofNat k.numBlocked
  /-- Every grant expires at a fixed time after its arrival. -/
  stamped : ∀ grant ∈ k.remaining,
    grant.expireTp = grant.arrivedTp + kMaxWait - kNetworkDelayTolerance

theorem kept_new (desc : EnviromentDesc) : Kept desc.compilerDigest [] { envDesc := desc } where
  queue := rfl
  env := rfl
  requests := fun _ _ h => absurd h List.not_mem_nil
  counted := rfl
  stamped := fun _ h => absurd h List.not_mem_nil

/-- A blocked call is one more that is counted. -/
theorem counted_insert {k : EnvGrantKeeper} {call : ℕ} (hcall : call ∉ k.blocked)
    (h : k.waiters = UInt32.ofNat k.numBlocked) (deadline : TimePoint) :
    k.waiters + 1 = UInt32.ofNat (Table.tally (fun _ => true) (k.blocked.insert call deadline)) := by
  rw [Table.tally_insert hcall, if_pos rfl, h, UInt32.ofNat_add]
  rfl

/-- A call that returns is one less. -/
theorem counted_erase {k : EnvGrantKeeper} {call : ℕ} (hcall : call ∈ k.blocked)
    (h : k.waiters = UInt32.ofNat k.numBlocked) :
    k.waiters - 1 = UInt32.ofNat (Table.tally (fun _ => true) (k.blocked.erase call)) := by
  obtain ⟨deadline, hlook⟩ := Table.mem_iff_lookup.1 hcall
  rw [h, EnvGrantKeeper.numBlocked, Table.tally_erase hlook, if_pos rfl, UInt32.ofNat_add]
  grind

/-- The last request in a history that has grown. -/
theorem requests_concat {digest : String} {h : List (KeeperEvent × KeeperReply)}
    (hreq : ∀ e request, (e, .requested request) ∈ h → request.envDesc.compilerDigest = digest)
    {event : KeeperEvent} {reply : KeeperReply}
    (hreply : ∀ request, reply = .requested request → request.envDesc.compilerDigest = digest) :
    ∀ e request, (e, .requested request) ∈ h ++ [(event, reply)] →
      request.envDesc.compilerDigest = digest := by
  intro e request hmem
  rcases List.mem_append.1 hmem with hold | hnew
  · exact hreq e request hold
  · have heq := List.mem_singleton.1 hnew
    exact hreply request (congrArg Prod.snd heq).symm

theorem kept_step {token digest : String} {h : List (KeeperEvent × KeeperReply)}
    {k : EnvGrantKeeper} (leaving : Bool) (e : KeeperEvent) (hk : Kept digest h k) :
    Kept digest (h ++ [(e, (k.step token leaving e).2)]) (k.step token leaving e).1 := by
  have hcase := keeper_cases token leaving k e
  generalize (k.step token leaving e).1 = k' at hcase ⊢
  generalize (k.step token leaving e).2 = reply at hcase ⊢
  -- only two of the fields depend on what was popped; the others are settled case by case
  refine ⟨?_, ?_, requests_concat hk.requests fun request hreq => ?_, ?_, ?_⟩
  · simp only [collectAt_concat, hk.queue, KeeperReply.popped]
    cases hcase with
    | idle hreply =>
        rcases hreply with rfl | rfl <;>
        simp [KeeperReply.received, KeeperReply.discarded, KeeperReply.taken]
    | took hcall hdiscard =>
        have hqueue := discardExpired_append hdiscard
        simp [KeeperReply.received, KeeperReply.discarded, KeeperReply.taken, ← hqueue]
    | slept hcall hdiscard =>
        have hqueue := discardExpired_append hdiscard
        simp [KeeperReply.received, KeeperReply.discarded, KeeperReply.taken, ← hqueue]
    | woke hcall hqueue =>
        simp [KeeperReply.received, KeeperReply.discarded, KeeperReply.taken, hqueue]
    | _ => simp [KeeperReply.received, KeeperReply.discarded, KeeperReply.taken]
  · cases hcase <;> exact hk.env
  · cases hcase with
    | idle hreply => rcases hreply with rfl | rfl <;> cases hreq
    | called hleaving hempty =>
        cases hreq
        exact hk.env
    | _ => cases hreq
  · cases hcase with
    | slept hcall hdiscard => exact counted_insert hcall hk.counted _
    | woke hcall hqueue => exact counted_erase hcall hk.counted
    | gaveUp hcall hqueue => exact counted_erase hcall hk.counted
    | _ => exact hk.counted
  · cases hcase with
    | took hcall hdiscard =>
        have hqueue := discardExpired_append hdiscard
        intro grant hmem
        refine hk.stamped grant ?_
        rw [← hqueue]
        exact List.mem_append_right _ (List.mem_cons_of_mem _ hmem)
    | slept hcall hdiscard => exact fun _ hmem => absurd hmem List.not_mem_nil
    | woke hcall hqueue =>
        intro grant hmem
        exact hk.stamped grant (hqueue ▸ List.mem_cons_of_mem _ hmem)
    | stored grants hfetcher =>
        intro grant hmem
        rcases List.mem_append.1 hmem with hold | hnew
        · exact hk.stamped grant hold
        · obtain ⟨g, -, rfl⟩ := List.mem_map.1 hnew
          rfl
    | _ => exact hk.stamped

theorem kept_notify {digest : String} {h : List (KeeperEvent × KeeperReply)} {k : EnvGrantKeeper}
    (hk : Kept digest h k) : Kept digest h { k with fetcher := k.fetcher.notify } :=
  ⟨hk.queue, hk.env, hk.requests, hk.counted, hk.stamped⟩

/-- **In every run, every keeper is what its history says.** -/
theorem kept_run (token : String) (events : List GrantEvent) :
    AllKeepers Kept ((grantMachine token).trace {} events)
      ((grantMachine token).run {} events) :=
  keeper_invariant kept_new (fun _ _ _ leaving e hk => kept_step leaving e hk)
    (fun _ _ _ hk => kept_notify hk) events

/-! ### Handing out grants -/

/-- What the history of all keepers comes to, each grant with the compiler of its keeper. -/
def collect (grants : KeeperReply → List QueuedGrant) (tr : List (GrantEvent × GrantReply)) :
    List (String × QueuedGrant) :=
  tr.flatMap fun e =>
    match e with
    | (.withKeeper digest _, .done reply) => (grants reply).map (Prod.mk digest)
    | _ => []

/-- Of all grants, those of one keeper. -/
theorem filter_collect (grants : KeeperReply → List QueuedGrant) (digest : String)
    (tr : List (GrantEvent × GrantReply)) :
    ((collect grants tr).filter fun x => decide (x.1 = digest)) =
      (collectAt grants (historyAt digest tr)).map (Prod.mk digest) := by
  induction tr with
  | nil => rfl
  | cons e tr ih =>
      have hsplit : collect grants (e :: tr) = collect grants [e] ++ collect grants tr := by
        simp [collect]
      have hhistory : historyAt digest (e :: tr) = historyAt digest [e] ++ historyAt digest tr :=
        List.filterMap_append (l := [e])
      have hone : ((collect grants [e]).filter fun x => decide (x.1 = digest)) =
          (collectAt grants (historyAt digest [e])).map (Prod.mk digest) := by
        rcases e with ⟨event, reply⟩
        cases event with
        | withKeeper d keeperEvent =>
            cases reply with
            | done keeperReply =>
                by_cases hd : d = digest
                · simp [collect, collectAt, historyAt, hd, List.filter_map, Function.comp_def]
                · simp [collect, collectAt, historyAt, hd, List.filter_map, Function.comp_def]
            | _ => rfl
        | _ => rfl
      rw [hsplit, List.filter_append, ih, hone, hhistory, collectAt_append, List.map_append]

/-- A list that has no more of each kind than another has no more at all. -/
theorem subperm_of_filter {α κ : Type} [DecidableEq α] [DecidableEq κ] (kind : α → κ)
    {l l' : List α}
    (h : ∀ d, (l.filter fun x => decide (kind x = d)).Sublist
      (l'.filter fun x => decide (kind x = d))) : l.Subperm l' := by
  refine List.subperm_ext_iff.2 fun x _ => ?_
  have hcount := (h (kind x)).count_le x
  rwa [List.count_filter (by simp), List.count_filter (by simp)] at hcount

/-- What a keeper has returned has left its queue. -/
theorem taken_sublist_popped (h : List (KeeperEvent × KeeperReply)) :
    (collectAt KeeperReply.taken h).Sublist (collectAt KeeperReply.popped h) := by
  induction h with
  | nil => exact List.Sublist.slnil
  | cons e h ih => exact (List.sublist_append_right e.2.discarded e.2.taken).append ih

/-- **In each keeper grants are returned in the order received.** -/
theorem taken_sublist_received (token : String) (events : List GrantEvent) (digest : String) :
    (collectAt KeeperReply.taken
        (historyAt digest ((grantMachine token).trace {} events))).Sublist
      (collectAt KeeperReply.received
        (historyAt digest ((grantMachine token).trace {} events))) := by
  have hall := kept_run token events digest
  cases hlook : ((grantMachine token).run {} events).keepers.lookup digest with
  | none =>
      rw [hall.1 hlook]
      exact List.Sublist.slnil
  | some k =>
      rw [(hall.2 k hlook).queue]
      exact (taken_sublist_popped _).trans (List.sublist_append_left _ _)

/-- All in all no more is returned than was received. -/
theorem collect_taken_subperm (token : String) (events : List GrantEvent) :
    (collect KeeperReply.taken ((grantMachine token).trace {} events)).Subperm
      (collect KeeperReply.received ((grantMachine token).trace {} events)) := by
  refine subperm_of_filter Prod.fst fun digest => ?_
  rw [filter_collect, filter_collect]
  exact (taken_sublist_received token events digest).map _

/-- The counter of a keeper that fewer than `2 ^ 32` calls wait in. -/
theorem Kept.waiters_eq {digest : String} {h : List (KeeperEvent × KeeperReply)}
    {k : EnvGrantKeeper} (hk : Kept digest h k) (hlt : k.numBlocked < 2 ^ 32) :
    k.waiters.toNat = k.numBlocked := by
  rw [hk.counted]
  exact UInt32.toNat_ofNat_of_lt' hlt

/-- A keeper that some call waits in has a positive number of them. -/
theorem numBlocked_pos {k : EnvGrantKeeper} {call : ℕ} (h : call ∈ k.blocked) :
    0 < k.numBlocked := by
  obtain ⟨deadline, hlook⟩ := Table.mem_iff_lookup.1 h
  exact Table.tally_pos hlook rfl

/-- **No grant is handed out twice.**  In every run in which the scheduler issues distinct ids: no
id is returned by two calls of `Get`; a call for one compiler returns only what the keeper of this
compiler has received, and that keeper asks for this compiler only; each keeper returns its grants
in the order it received them; and as long as fewer than `2 ^ 32` calls wait in a keeper, its
`waiters` is their number, so that no call decrements it below `0`. -/
theorem grants_handed_out_once (token : String) (events : List GrantEvent)
    (hdistinct : ((collect KeeperReply.received ((grantMachine token).trace {} events)).map
      fun x => x.2.grantId).Nodup) :
    let tr := (grantMachine token).trace {} events
    let s := (grantMachine token).run {} events
    ((collect KeeperReply.taken tr).map fun x => x.2.grantId).Nodup ∧
      (∀ x ∈ collect KeeperReply.taken tr, x ∈ collect KeeperReply.received tr) ∧
      (∀ digest e request, (e, .requested request) ∈ historyAt digest tr →
        request.envDesc.compilerDigest = digest) ∧
      (∀ digest, (collectAt KeeperReply.taken (historyAt digest tr)).Sublist
        (collectAt KeeperReply.received (historyAt digest tr))) ∧
      ∀ digest k, s.keepers.lookup digest = some k → k.numBlocked < 2 ^ 32 →
        k.waiters.toNat = k.numBlocked ∧ ∀ call ∈ k.blocked, 0 < k.waiters.toNat := by
  intro tr s
  have hsub := collect_taken_subperm token events
  refine ⟨?_, fun x hx => hsub.subset hx, ?_, taken_sublist_received token events, ?_⟩
  · obtain ⟨l, hperm, hl⟩ := hsub
    exact (hperm.map _).nodup_iff.1 (hdistinct.sublist (hl.map _))
  · intro digest e request hmem
    have hall := kept_run token events digest
    cases hlook : s.keepers.lookup digest with
    | none =>
        rw [hall.1 hlook] at hmem
        cases hmem
    | some k => exact (hall.2 k hlook).requests e request hmem
  · intro digest k hlook hlt
    have hk := (kept_run token events digest).2 k hlook
    refine ⟨hk.waiters_eq hlt, fun call hcall => ?_⟩
    rw [hk.waiters_eq hlt]
    exact numBlocked_pos hcall

/-- Two calls wait for grants of one compiler, and the scheduler grants two. -/
def pairOfGets : List GrantEvent :=
  [.findKeeper ⟨"gcc"⟩, .withKeeper "gcc" (.get 0 100 fun _ => 0),
    .withKeeper "gcc" (.get 1 100 fun _ => 0), .withKeeper "gcc" .fetch,
    .withKeeper "gcc" (.answer (some [(⟨7, "10.0.0.1:8335"⟩, 10), (⟨8, "10.0.0.2:8335"⟩, 10)])),
    .withKeeper "gcc" (.wakeGet 1 false 11), .withKeeper "gcc" (.wakeGet 0 false 12)]

/-- They are handed out in the order received, to whichever call is first. -/
theorem grants_handed_out_pair :
    ((collect KeeperReply.taken ((grantMachine "").trace {} pairOfGets)).map
        fun x => x.2.grantId) = [7, 8] ∧
      ((collect KeeperReply.taken ((grantMachine "").trace {} pairOfGets)).map
        fun x => x.2.grantId).Nodup :=
  ⟨by decide, (grants_handed_out_once "" pairOfGets (by decide)).1⟩

/-! ### Beyond the wrap-around -/

/-- `n` calls wait for a grant of one compiler. -/
def crowd (n : ℕ) : List GrantEvent :=
  .findKeeper ⟨"gcc"⟩ :: (List.range n).map fun call => .withKeeper "gcc" (.get call 0 fun _ => 0)

/-- The calls `0`, …, `n - 1` wait in the keeper, and there is no grant. -/
structure Crowded (n : ℕ) (k : EnvGrantKeeper) : Prop where
  empty : k.remaining = []
  number : k.numBlocked = n
  fresh : ∀ call, n ≤ call → call ∉ k.blocked

theorem Crowded.get {n : ℕ} {k : EnvGrantKeeper} (h : Crowded n k) (token : String)
    (leaving : Bool) :
    Crowded (n + 1) (k.step token leaving (.get n 0 fun _ => 0)).1 ∧
      (k.step token leaving (.get n 0 fun _ => 0)).2 = .blocked [] := by
  have hcall : n ∉ k.blocked := h.fresh n (Nat.le_refl n)
  have hstep : k.step token leaving (.get n 0 fun _ => 0) =
      ({ k with
          remaining := []
          waiters := k.waiters + 1
          fetcher := k.fetcher.notify
          blocked := k.blocked.insert n 0 }, .blocked []) := by
    simp only [EnvGrantKeeper.step, AList.lookup_eq_none.2 hcall, EnvGrantKeeper.get, h.empty,
      discardExpired]
  rw [hstep]
  refine ⟨⟨rfl, ?_, fun call hle hmem => ?_⟩, rfl⟩
  · change Table.tally (fun _ => true) (k.blocked.insert n 0) = n + 1
    rw [Table.tally_insert hcall, if_pos rfl]
    exact congrArg (· + 1) h.number
  · rcases (AList.mem_insert _).1 hmem with heq | hold
    · omega
    · exact h.fresh call (by omega) hold

theorem crowded_run (n : ℕ) :
    collect KeeperReply.received ((grantMachine "").trace {} (crowd n)) = [] ∧
      ∃ k, ((grantMachine "").run {} (crowd n)).keepers.lookup "gcc" = some k ∧ Crowded n k := by
  induction n with
  | zero => exact ⟨rfl, { envDesc := ⟨"gcc"⟩ }, rfl, rfl, rfl, fun _ _ h => by cases h⟩
  | succ n ih =>
      obtain ⟨hnone, k, hlook, hk⟩ := ih
      have hcrowd : crowd (n + 1) = crowd n ++ [.withKeeper "gcc" (.get n 0 fun _ => 0)] := by
        simp [crowd, List.range_succ]
      set s := (grantMachine "").run {} (crowd n) with hs
      obtain ⟨hk', hreply⟩ := hk.get "" s.leaving
      have hstep : (grantMachine "").step s (.withKeeper "gcc" (.get n 0 fun _ => 0)) =
          ({ s with keepers :=
              s.keepers.insert "gcc" (k.step "" s.leaving (.get n 0 fun _ => 0)).1 },
            .done (.blocked [])) := by
        simp only [grantMachine, TaskGrantKeeper.step, hlook, hreply]
      rw [hcrowd, Machine.trace_concat, Machine.run_concat, ← hs]
      simp only [Machine.next, Machine.out, hstep]
      refine ⟨?_, _, AList.lookup_insert _, hk'⟩
      rw [collect, List.flatMap_append]
      exact congrArg (· ++ []) hnone

/-- **Beyond that the waiters are not counted**: with `2 ^ 32` calls of `Get` in one keeper, its
`waiters` is `0`. -/
theorem waiters_wrap :
    ∃ events : List GrantEvent,
      ((collect KeeperReply.received ((grantMachine "").trace {} events)).map
        fun x => x.2.grantId).Nodup ∧
      ∃ k, ((grantMachine "").run {} events).keepers.lookup "gcc" = some k ∧
        k.numBlocked = 2 ^ 32 ∧ k.waiters.toNat = 0 := by
  obtain ⟨hnone, k, hlook, hk⟩ := crowded_run (2 ^ 32)
  refine ⟨crowd (2 ^ 32), ?_, k, hlook, hk.number, ?_⟩
  · rw [hnone]
    exact List.nodup_nil
  · rw [((kept_run "" (crowd (2 ^ 32)) "gcc").2 k hlook).counted, hk.number]
    rfl

end Local
