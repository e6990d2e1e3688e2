/-
**The tokens that daemons show to each other.**

The scheduler keeps three tokens: one about to expire, one in use and one being deployed.  A servant
receives all three with the answer to its heartbeat, and accepts them from then on; a local daemon
receives the one in use with its configuration, and shows it to the servants.  When the rollout
interval has passed, the next call of `ActiveDaemonTokens` drops the first token and draws a new
one; however long nobody called, it is one step only.

Scheduler, servants and local daemons therefore hold snapshots of one sequence of tokens
`t₀, t₁, t₂, …`, taken at different times.  After `n` rotations the scheduler holds
`tₙ, tₙ₊₁, tₙ₊₂`.  The module runs the three parties with answers in flight that may be late, lost
or overtaken, and relates every snapshot to that sequence.

Main definitions:

* `Scheduler.TokenWorld`, `Scheduler.tokenRun` — the parties and their machine;
* `Scheduler.window` — the three tokens after a number of rotations;
* `Scheduler.Windowed` — every snapshot is one of the sequence.

Main results:

* `Scheduler.windowed_step`, `Scheduler.windowed_run` — the invariant;
* `Scheduler.token_accepted` — **rotation locks nobody out** whose snapshots are one rotation apart
  at most.
-/

import Distribuild.SchedulerHeartbeat

set_option relaxedAutoImplicit false
set_option autoImplicit false

namespace Scheduler

/-! ### The parties -/

/-- The part of a servant's `DaemonServiceImpl` that is about tokens. -/
structure ServantTokens where
  tokenVerifier : TokenVerifier := {}
  /-- History: after how many rotations the tokens installed last were given out. -/
  installedAfter : Option ℕ := none
deriving DecidableEq, Repr

/-- `DaemonServiceImpl::IsTokenAcceptable`. -/
def ServantTokens.isTokenAcceptable (servant : ServantTokens) (token : String) : Bool :=
  servant.tokenVerifier.verify token

/-- `DaemonServiceImpl::UpdateTokens`. -/
def ServantTokens.updateTokens (tokens : List String) (rotations : ℕ) : ServantTokens where
  tokenVerifier := { recognizedTokens := tokens }
  installedAfter := some rotations

/-- The `ConfigKeeper` of a local daemon. -/
structure ConfigKeeper where
  servingDaemonToken : String := ""
  /-- History: after how many rotations the token was given out. -/
  obtainedAfter : Option ℕ := none
deriving DecidableEq, Repr

/-- The end of `ConfigKeeper::OnTimerFetchConfig`. -/
def ConfigKeeper.fetched (daemonToken : String) (rotations : ℕ) : ConfigKeeper where
  servingDaemonToken := daemonToken
  obtainedAfter := some rotations

/-- An answer of the scheduler on its way, with the number of rotations it was given after. -/
inductive Answer
  /-- The tokens of a `HeartBeatResponse`. -/
  | heartBeat (servant : ℕ) (tokens : List String) (rotations : ℕ)
  /-- A `GetConfigResponse`. -/
  | config (daemon : ℕ) (daemonToken : String) (rotations : ℕ)
deriving DecidableEq, Repr

/-- The scheduler, the servants and the local daemons. -/
structure TokenWorld where
  service : SchedulerServiceImpl
  inFlight : List Answer := []
  servants : ℕ → ServantTokens := fun _ => {}
  daemons : ℕ → ConfigKeeper := fun _ => {}
  /-- History: how often the tokens have been rotated. -/
  rotations : ℕ := 0
  /-- History: all the tokens that have been drawn. -/
  drawn : List String

/-- What can happen next.  `nextDaemonToken` is what `NextDaemonToken` would draw. -/
inductive TokenEvent
  /-- A servant's heartbeat is answered. -/
  | heartBeat (servant : ℕ) (peer : String) (request : HeartBeatRequest) (now : TimePoint)
      (nextDaemonToken : String)
  /-- A daemon's `GetConfig` is answered. -/
  | getConfig (daemon : ℕ) (token : String) (now : TimePoint) (nextDaemonToken : String)
  /-- An answer arrives: `UpdateTokens`, or the end of `OnTimerFetchConfig`. -/
  | deliver (i : ℕ)
  /-- An answer is lost. -/
  | lose (i : ℕ)

/-- `ActiveDaemonTokens`, with the history. -/
def TokenWorld.activate (w : TokenWorld) (now : TimePoint) (nextDaemonToken : String) :
    TokenWorld :=
  { w with
    service := w.service.rollout now nextDaemonToken
    rotations := if w.service.rolloutDue now then w.rotations + 1 else w.rotations
    drawn := if w.service.rolloutDue now then w.drawn ++ [nextDaemonToken] else w.drawn }

def TokenWorld.send (w : TokenWorld) (answer : Answer) : TokenWorld :=
  { w with inFlight := w.inFlight ++ [answer] }

/-- An answer is taken in by the party it is for. -/
def TokenWorld.receive (w : TokenWorld) : Answer → TokenWorld
  | .heartBeat servant tokens rotations =>
      { w with servants :=
          Function.update w.servants servant (ServantTokens.updateTokens tokens rotations) }
  | .config daemon daemonToken rotations =>
      { w with daemons :=
          Function.update w.daemons daemon (ConfigKeeper.fetched daemonToken rotations) }

def tokenStep (w : TokenWorld) : TokenEvent → TokenWorld
  | .heartBeat servant peer request now nextDaemonToken =>
      match heartBeatServant w.service peer request with
      | .error _ => w
      | .ok _ =>
          let w := w.activate now nextDaemonToken
          w.send (.heartBeat servant w.service.activeDaemonTokens w.rotations)
  | .getConfig daemon token now nextDaemonToken =>
      match (getConfig w.service token now nextDaemonToken).2 with
      | .error _ => w
      | .ok daemonToken =>
          let w := w.activate now nextDaemonToken
          w.send (.config daemon daemonToken w.rotations)
  | .deliver i =>
      match w.inFlight[i]? with
      | none => w
      | some answer => { w with inFlight := w.inFlight.eraseIdx i }.receive answer
  | .lose i => { w with inFlight := w.inFlight.eraseIdx i }

/-- **The parties as a machine.** -/
def tokenRun : Machine TokenWorld TokenEvent Unit := ⟨fun w e => (tokenStep w e, ())⟩

/-- The scheduler has just been started. -/
def TokenWorld.init (service : SchedulerServiceImpl) : TokenWorld where
  service := service
  drawn := service.activeDaemonTokens

/-! ### Snapshots of the sequence of tokens -/

/-- The three tokens in use after `n` rotations. -/
def window (drawn : List String) (n : ℕ) : List String := (drawn.drop n).take 3

/-- What was in use stays what it was when further tokens are drawn. -/
theorem window_append {drawn : List String} {n : ℕ} (h : n + 3 ≤ drawn.length)
    (more : List String) : window (drawn ++ more) n = window drawn n := by
  have hlen : 3 ≤ (drawn.drop n).length := by
    rw [List.length_drop]
    omega
  rw [window, window, List.drop_append_of_le_length (by omega), List.take_append_of_le_length hlen]

/-- The tokens of a window are three consecutive ones. -/
theorem mem_window {drawn : List String} {n i : ℕ} {token : String} (h : drawn[i]? = some token)
    (hlo : n ≤ i) (hhi : i < n + 3) : token ∈ window drawn n := by
  have hget : (window drawn n)[i - n]? = some token := by
    rw [window, List.getElem?_take_of_lt (by omega), List.getElem?_drop, Nat.add_sub_cancel' hlo]
    exact h
  exact List.mem_of_getElem? hget

/-- An answer tells the truth about the tokens after its number of rotations. -/
def Answer.Genuine (drawn : List String) : Answer → Prop
  | .heartBeat _ tokens rotations =>
      rotations + 3 ≤ drawn.length ∧ tokens = window drawn rotations
  | .config _ daemonToken rotations => drawn[rotations + 1]? = some daemonToken

theorem Answer.Genuine.append {drawn : List String} {answer : Answer} (h : answer.Genuine drawn)
    (more : List String) : answer.Genuine (drawn ++ more) := by
  cases answer with
  | heartBeat servant tokens rotations =>
      obtain ⟨hlen, htokens⟩ := h
      refine ⟨?_, ?_⟩
      · rw [List.length_append]
        omega
      · rw [window_append hlen]
        exact htokens
  | config daemon daemonToken rotations =>
      obtain ⟨hlt, -⟩ := List.getElem?_eq_some_iff.1 h
      change (drawn ++ more)[rotations + 1]? = _
      rw [List.getElem?_append_left hlt]
      exact h

/-- **Every snapshot is one of the sequence.** -/
structure Windowed (w : TokenWorld) : Prop where
  length : w.drawn.length = w.rotations + 3
  active : w.service.activeDaemonTokens = window w.drawn w.rotations
  inFlight : ∀ answer ∈ w.inFlight, answer.Genuine w.drawn
  servants : ∀ k n, (w.servants k).installedAfter = some n →
    (Answer.heartBeat k (w.servants k).tokenVerifier.recognizedTokens n).Genuine w.drawn
  daemons : ∀ d n, (w.daemons d).obtainedAfter = some n →
    (Answer.config d (w.daemons d).servingDaemonToken n).Genuine w.drawn

theorem windowed_init (userTokenVerifier servantTokenVerifier : TokenVerifier)
    (minDaemonVersion : UInt32) (tokenRolloutInterval : ℤ) (now : TimePoint)
    (expiring active deploying : String) :
    Windowed (.init (.construct userTokenVerifier servantTokenVerifier minDaemonVersion
      tokenRolloutInterval now expiring active deploying)) where
  length := rfl
  active := rfl
  inFlight := fun answer h => by cases h
  servants := fun k n h => by cases h
  daemons := fun d n h => by cases h

/-- `ActiveDaemonTokens` moves the window by one, or not at all. -/
theorem Windowed.activate {w : TokenWorld} (h : Windowed w) (now : TimePoint)
    (nextDaemonToken : String) : Windowed (w.activate now nextDaemonToken) := by
  by_cases hdue : w.service.rolloutDue now = true
  · have hrot : (w.activate now nextDaemonToken).rotations = w.rotations + 1 := if_pos hdue
    have hdrawn : (w.activate now nextDaemonToken).drawn = w.drawn ++ [nextDaemonToken] :=
      if_pos hdue
    have hactive : (w.activate now nextDaemonToken).service.activeDaemonTokens =
        w.service.activeDaemonTokens.tail ++ [nextDaemonToken] := by
      simp only [TokenWorld.activate, SchedulerServiceImpl.rollout, if_pos hdue]
    have hlen := h.length
    constructor
    · rw [hrot, hdrawn, List.length_append, List.length_singleton]
      omega
    · -- the window is the end of the sequence, without its first token and with the new one
      have hwindow : window w.drawn w.rotations = w.drawn.drop w.rotations := by
        rw [window, List.take_of_length_le]
        rw [List.length_drop]
        omega
      rw [hactive, h.active, hwindow, List.tail_drop, hrot, hdrawn, window,
        List.drop_append_of_le_length (by omega), List.take_of_length_le]
      rw [List.length_append, List.length_drop, List.length_singleton]
      omega
    · intro answer hmem
      rw [hdrawn]
      exact (h.inFlight answer hmem).append _
    · intro k n hk
      rw [hdrawn]
      exact (h.servants k n hk).append _
    · intro d n hd
      rw [hdrawn]
      exact (h.daemons d n hd).append _
  · have hsame : w.activate now nextDaemonToken = w := by
      simp only [TokenWorld.activate, SchedulerServiceImpl.rollout, if_neg hdue]
    rw [hsame]
    exact h

/-- A genuine answer may be sent. -/
theorem Windowed.send {w : TokenWorld} (h : Windowed w) {answer : Answer}
    (hgenuine : answer.Genuine w.drawn) : Windowed (w.send answer) where
  length := h.length
  active := h.active
  inFlight := by
    intro a ha
    rcases List.mem_append.1 ha with ha | ha
    · exact h.inFlight a ha
    · rw [List.mem_singleton.1 ha]
      exact hgenuine
  servants := h.servants
  daemons := h.daemons

/-- A genuine answer may be taken in. -/
theorem Windowed.receive {w : TokenWorld} (h : Windowed w) {answer : Answer}
    (hgenuine : answer.Genuine w.drawn) : Windowed (w.receive answer) := by
  cases answer with
  | heartBeat servant tokens rotations =>
      refine ⟨h.length, h.active, h.inFlight, fun k n hk => ?_, h.daemons⟩
      simp only [TokenWorld.receive] at hk ⊢
      by_cases hks : k = servant
      · rw [hks, Function.update_self] at hk ⊢
        cases hk
        exact hgenuine
      · rw [Function.update_of_ne hks] at hk ⊢
        exact h.servants k n hk
  | config daemon daemonToken rotations =>
      refine ⟨h.length, h.active, h.inFlight, h.servants, fun d n hd => ?_⟩
      simp only [TokenWorld.receive] at hd ⊢
      by_cases hdd : d = daemon
      · rw [hdd, Function.update_self] at hd ⊢
        cases hd
        exact hgenuine
      · rw [Function.update_of_ne hdd] at hd ⊢
        exact h.daemons d n hd

/-- Answers may be forgotten. -/
theorem Windowed.forget {w : TokenWorld} (h : Windowed w) (i : ℕ) :
    Windowed { w with inFlight := w.inFlight.eraseIdx i } where
  length := h.length
  active := h.active
  inFlight := fun answer hmem => h.inFlight answer (List.mem_of_mem_eraseIdx hmem)
  servants := h.servants
  daemons := h.daemons

/-- What the scheduler answers is genuine. -/
theorem Windowed.genuine_tokens {w : TokenWorld} (h : Windowed w) (servant : ℕ) :
    (Answer.heartBeat servant w.service.activeDaemonTokens w.rotations).Genuine w.drawn :=
  ⟨Nat.le_of_eq h.length.symm, h.active⟩

theorem Windowed.genuine_config {w : TokenWorld} (h : Windowed w) (daemon : ℕ) :
    (Answer.config daemon (w.service.activeDaemonTokens.getD 1 "") w.rotations).Genuine
      w.drawn := by
  have hlt : w.rotations + 1 < w.drawn.length := by
    rw [h.length]
    omega
  change w.drawn[w.rotations + 1]? = _
  rw [h.active, window, List.getD_eq_getElem?_getD, List.getElem?_take_of_lt (by omega),
    List.getElem?_drop, List.getElem?_eq_getElem hlt]
  rfl

/-- **One step keeps the snapshots in the sequence.** -/
theorem windowed_step {w : TokenWorld} (h : Windowed w) (e : TokenEvent) :
    Windowed (tokenStep w e) := by
  cases e with
  | heartBeat servant peer request now nextDaemonToken =>
      simp only [tokenStep]
      split
      · exact h
      · have hactive := h.activate now nextDaemonToken
        exact hactive.send (hactive.genuine_tokens servant)
  | getConfig daemon token now nextDaemonToken =>
      simp only [tokenStep]
      split
      · exact h
      next daemonToken hconfig =>
        have hactive := h.activate now nextDaemonToken
        have htoken : daemonToken =
            (w.activate now nextDaemonToken).service.activeDaemonTokens.getD 1 "" := by
          unfold getConfig at hconfig
          split at hconfig
          · cases hconfig
          · cases hconfig
            rfl
        rw [htoken]
        exact hactive.send (hactive.genuine_config daemon)
  | deliver i =>
      simp only [tokenStep]
      split
      · exact h
      next answer hget =>
        exact (h.forget i).receive (h.inFlight answer (List.mem_of_getElem? hget))
  | lose i => exact h.forget i

/-! ### Nobody is locked out -/

section

variable (userTokenVerifier servantTokenVerifier : TokenVerifier) (minDaemonVersion : UInt32)
  (tokenRolloutInterval : ℤ) (started : TimePoint) (expiring active deploying : String)

theorem windowed_run (events : List TokenEvent) :
    Windowed (tokenRun.run (.init (.construct userTokenVerifier servantTokenVerifier
      minDaemonVersion tokenRolloutInterval started expiring active deploying)) events) :=
  Machine.run_invariant (M := tokenRun) (P := Windowed) (fun _ e h => windowed_step h e)
    (windowed_init ..) events

/-- **Rotation locks nobody out.**  In every run of heartbeats and configuration requests at any
clock readings, three tokens are active; and a servant accepts the token of a local daemon whenever
the answers the two hold were given at most one rotation apart. -/
theorem token_accepted (events : List TokenEvent) :
    let w := tokenRun.run (.init (.construct userTokenVerifier servantTokenVerifier
      minDaemonVersion tokenRolloutInterval started expiring active deploying)) events
    w.service.activeDaemonTokens.length = 3 ∧
    ∀ daemon servant r s, (w.daemons daemon).obtainedAfter = some r →
      (w.servants servant).installedAfter = some s → r ≤ s + 1 → s ≤ r + 1 →
        (w.servants servant).isTokenAcceptable (w.daemons daemon).servingDaemonToken = true := by
  intro w
  have h : Windowed w := windowed_run ..
  constructor
  · have hlen := h.length
    rw [h.active, window, List.length_take, List.length_drop]
    omega
  · intro daemon servant r s hr hs hle hge
    have hconfig := h.daemons daemon r hr
    obtain ⟨-, htokens⟩ := h.servants servant s hs
    have hmem := mem_window (n := s) hconfig (by omega) (by omega)
    rw [← htokens] at hmem
    exact List.contains_iff_mem.2 hmem

end

/-- A daemon fetches its token, the tokens are rotated, and a servant installs the new ones: it
still accepts the token of the daemon. -/
theorem token_accepted_one_apart :
    let w := tokenRun.run (.init (.construct { recognizedTokens := ["user"] }
        { recognizedTokens := ["servant"] } 0 1000 0 "a" "b" "c"))
      [.getConfig 0 "user" 0 "d",
        .heartBeat 0 "ipv4:10.0.0.1:5555" (sampleHeartBeat "10.0.0.1:8080") 2000 "e",
        .deliver 0, .deliver 0]
    (w.daemons 0).obtainedAfter = some 0 ∧ (w.servants 0).installedAfter = some 1 ∧
      (w.servants 0).isTokenAcceptable (w.daemons 0).servingDaemonToken = true := by
  refine ⟨by decide, by decide, ?_⟩
  exact (token_accepted { recognizedTokens := ["user"] } { recognizedTokens := ["servant"] } 0 1000 0
    "a" "b" "c" _).2 0 0 0 1 (by decide) (by decide) (by omega) (by omega)

end Scheduler
