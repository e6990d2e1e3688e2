/-
**Whose grants a daemon keeps alive.**

A grant of the scheduler runs out unless it is kept alive, and `OnTimerKeepAlive` of the local
dispatcher puts the grants of the tasks that are under way into a request.  A task that has joined a
compile has no grant: `TryGetExistedResult` writes `0` into `task_grant_id`, and the timer puts that
`0` into the request like any other id.  But the scheduler counts from `0` on, so `0` is also the
first grant that it issues.  While that grant lives, a task that has joined keeps it alive, whoever
holds it; and otherwise the scheduler does not know the id, and the task is aborted after a minute.

The daemon and the scheduler are put side by side here.  The scheduler issues grants to the daemon
and to others, `TaskGrantKeeper` holds those of the daemon until `Get` returns one of them to a
task, and a request of the timer is handled by the scheduler some time after it was made, or never,
and perhaps only when the daemon has given up waiting for the answer.

Main definitions:

* `Local.Network`, `Local.network` — the daemon and the scheduler, as one machine;
* `Local.Got` — `Get` has returned a grant to a task in a run;
* `Local.TaskDesc.joined` — the task has joined a compile;
* `Local.RenewsOwn` — only own grants are renewed;
* `Local.NoneJoined` — the condition on a step.

Main results:

* `Local.attributed_run` — where the id in a task comes from;
* `Local.renewsOwn_iff` — **when only own grants are renewed**: exactly if no task that has joined
  is under way whenever the timer goes over the table;
* `Local.renewsOwn_not` — a task that has joined renews the first grant of the scheduler.
-/

import Distribuild.LocalDeadline
import Distribuild.SchedulerAccounting
import Distribuild.SchedulerService

set_option relaxedAutoImplicit false
set_option autoImplicit false

namespace Local

open Cloud (TimePoint minute)

/-! ### The daemon and the scheduler -/

/-- A daemon and the scheduler that it asks. -/
structure Network where
  daemon : TaskDispatcher := {}
  /-- `remaining`: the grants that `TaskGrantKeeper` holds. -/
  remaining : List GrantDesc := []
  scheduler : Scheduler.TaskDispatcher
  /-- The requests of `OnTimerKeepAlive` that are on their way. -/
  requests : List KeepAliveRequest := []
  /-- The answer to the request that the daemon waits for, on its way. -/
  answer : Option (List Bool) := none

/-- What happens to them. -/
inductive Event
  /-- A step of the dispatcher that takes nothing from the scheduler. -/
  | daemon (input : Input)
  /-- `TaskGrantKeeper::Get` returns a grant to the thread of a task. -/
  | get (desc : ℕ) (grant : GrantDesc)
  /-- `GrantFetcherProc` asks for a grant. -/
  | fetch (taskInfo : Scheduler.TaskInfo) (expiresIn : Scheduler.Duration) (prefetching : Bool)
      (now : TimePoint)
  /-- A grant has been held for too long. -/
  | discard (grant : GrantDesc)
  /-- The scheduler does something for others, or on its own. -/
  | scheduler (op : Scheduler.Op)
  /-- The scheduler handles a request of `OnTimerKeepAlive`. -/
  | keepTaskAlive (request : ℕ) (service : Scheduler.SchedulerServiceImpl) (token : String)
      (now : ℕ → TimePoint)
  /-- Its answer arrives. -/
  | answered

/-- The step takes something from the scheduler. -/
def Input.awaits : Input → Bool
  | .perform _ (.getGrant (some _)) => true
  | .keptAlive (some _) => true
  | _ => false

namespace Network

/-- The thread of the task has called `Get`. -/
def asks (n : Network) (p : ℕ) : Bool := (n.daemon.descs[p]?).any fun desc => desc.phase == .asking

/-- A step of the dispatcher.  A new request is sent, and an answer is only waited for as long as
there is a request. -/
def onDaemon (n : Network) (input : Input) : Network :=
  { n with
    daemon := taskDispatcher.next n.daemon input
    requests :=
      if n.daemon.keepAlive.isSome then n.requests
      else n.requests ++ (taskDispatcher.next n.daemon input).keepAlive.toList
    answer := if (taskDispatcher.next n.daemon input).keepAlive.isSome then n.answer else none }

/-- A new grant is put into `remaining`. -/
def fetched (n : Network) : Scheduler.TaskDispatcher × Scheduler.StartResult → Network
  | (scheduler, .granted allocation _) =>
      { n with
        scheduler := scheduler
        remaining := n.remaining ++ [⟨allocation.taskId, allocation.servantLocation⟩] }
  | (scheduler, _) => { n with scheduler := scheduler }

/-- The scheduler has handled a request.  An answer that nobody waits for is dropped. -/
def handled (n : Network) (k : ℕ) (request : KeepAliveRequest)
    (r : Scheduler.TaskDispatcher × Except Scheduler.Status (List Bool)) : Network :=
  { n with
    scheduler := r.1
    requests := n.requests.eraseIdx k
    answer :=
      match r.2 with
      | .ok statues => if n.daemon.keepAlive = some request then some statues else n.answer
      | .error _ => n.answer }

/-- `next_keep_alive_in_ms` of the request. -/
def nextKeepAliveInMs : UInt32 := 10000

/-- `Get` returns a grant that is there to a thread that has called it. -/
def get (n : Network) (p : ℕ) (grant : GrantDesc) : Network :=
  if grant ∈ n.remaining ∧ n.asks p = true then
    { n.onDaemon (.perform p (.getGrant (some grant))) with remaining := n.remaining.erase grant }
  else n

/-- The scheduler handles one of the requests that are on their way. -/
def keepTaskAlive (n : Network) (k : ℕ) (service : Scheduler.SchedulerServiceImpl) (token : String)
    (now : ℕ → TimePoint) : Network :=
  match n.requests[k]? with
  | some request =>
      n.handled k request (Scheduler.keepTaskAliveRpc service n.scheduler token request.taskGrantIds
        nextKeepAliveInMs now)
  | none => n

/-- The answer arrives, if there is one. -/
def answered (n : Network) : Network :=
  match n.answer with
  | some statues => n.onDaemon (.keptAlive (some statues))
  | none => n

/-- The step of the dispatcher that an event is. -/
def input (n : Network) : Event → Option Input
  | .daemon input => if input.awaits then none else some input
  | .get p grant =>
      if grant ∈ n.remaining ∧ n.asks p = true then some (.perform p (.getGrant (some grant)))
      else none
  | .answered => n.answer.map fun statues => .keptAlive (some statues)
  | _ => none

end Network

/-- **The daemon and the scheduler as one machine.** -/
def network : Machine Network Event Unit where
  step n event :=
    (match event with
      | .daemon input => if input.awaits then n else n.onDaemon input
      | .get p grant => n.get p grant
      | .fetch taskInfo expiresIn prefetching now =>
          n.fetched (Scheduler.waitForStartingNewTask n.scheduler taskInfo expiresIn prefetching now)
      | .discard grant => { n with remaining := n.remaining.erase grant }
      | .scheduler op => { n with scheduler := Scheduler.dispatcher.next n.scheduler op }
      | .keepTaskAlive k service token now => n.keepTaskAlive k service token now
      | .answered => n.answered, ())

/-- Both at their start, for a value of `FLAGS_min_memory_for_new_task`. -/
def Network.init (minMemoryForNewTask : UInt64) : Network where
  scheduler := Scheduler.TaskDispatcher.init minMemoryForNewTask

/-- `Get` has returned the grant to the task at a place, in a run. -/
def Got (n : Network) (is : List Event) (p : ℕ) (grantId : UInt64) : Prop :=
  ∃ js grant ks, is = js ++ .get p grant :: ks ∧ grant.grantId = grantId ∧
    grant ∈ (network.run n js).remaining ∧ (network.run n js).asks p = true

/-- What an event does to the daemon. -/
theorem network_next_daemon (n : Network) (event : Event) :
    (network.next n event).daemon = (n.input event).elim n.daemon (taskDispatcher.next n.daemon) := by
  cases event with
  | daemon input =>
      show (if input.awaits then n else n.onDaemon input).daemon = _
      rw [Network.input]
      split <;> rfl
  | get p grant =>
      show (n.get p grant).daemon = _
      rw [Network.get, Network.input]
      split <;> rfl
  | fetch taskInfo expiresIn prefetching now =>
      show (n.fetched _).daemon = n.daemon
      unfold Network.fetched
      split <;> rfl
  | discard grant => rfl
  | scheduler op => rfl
  | keepTaskAlive k service token now =>
      show (n.keepTaskAlive k service token now).daemon = n.daemon
      rw [Network.keepTaskAlive]
      split <;> rfl
  | answered =>
      show n.answered.daemon = _
      rw [Network.answered, Network.input]
      cases n.answer with
      | none => rfl
      | some statues => rfl

/-- A request that is on its way was so before, or the daemon has just made it. -/
theorem mem_network_next_requests {n : Network} {event : Event} {request : KeepAliveRequest}
    (h : request ∈ (network.next n event).requests) :
    request ∈ n.requests ∨ ∃ input, n.input event = some input ∧ n.daemon.keepAlive = none ∧
      (taskDispatcher.next n.daemon input).keepAlive = some request := by
  have hstep : ∀ input, request ∈ (n.onDaemon input).requests → request ∈ n.requests ∨
      n.daemon.keepAlive = none ∧ (taskDispatcher.next n.daemon input).keepAlive = some request := by
    intro input hmem
    rw [Network.onDaemon] at hmem
    cases hbusy : n.daemon.keepAlive with
    | some other =>
        rw [hbusy] at hmem
        exact Or.inl hmem
    | none =>
        rw [hbusy] at hmem
        rcases List.mem_append.1 hmem with hold | hnew
        · exact Or.inl hold
        · exact Or.inr ⟨rfl, Option.mem_toList.1 hnew⟩
  cases event with
  | daemon input =>
      have hmem : request ∈ (if input.awaits then n else n.onDaemon input).requests := h
      rw [Network.input]
      split at hmem
      · exact Or.inl hmem
      · next hawaits =>
          rw [if_neg hawaits]
          exact (hstep input hmem).imp_right fun hnew => ⟨input, rfl, hnew⟩
  | get p grant =>
      have hmem : request ∈ (n.get p grant).requests := h
      rw [Network.get] at hmem
      rw [Network.input]
      split at hmem
      · next hready =>
          rw [if_pos hready]
          exact (hstep _ hmem).imp_right fun hnew => ⟨_, rfl, hnew⟩
      · exact Or.inl hmem
  | fetch taskInfo expiresIn prefetching now =>
      have hmem : request ∈ (n.fetched _).requests := h
      unfold Network.fetched at hmem
      split at hmem <;> exact Or.inl hmem
  | discard grant => exact Or.inl h
  | scheduler op => exact Or.inl h
  | keepTaskAlive k service token now =>
      have hmem : request ∈ (n.keepTaskAlive k service token now).requests := h
      rw [Network.keepTaskAlive] at hmem
      split at hmem
      · exact Or.inl (List.mem_of_mem_eraseIdx hmem)
      · exact Or.inl hmem
  | answered =>
      have hmem : request ∈ n.answered.requests := h
      rw [Network.answered] at hmem
      rw [Network.input]
      cases hanswer : n.answer with
      | none =>
          rw [hanswer] at hmem
          exact Or.inl hmem
      | some statues =>
          rw [hanswer] at hmem
          exact (hstep _ hmem).imp_right fun hnew => ⟨_, rfl, hnew⟩

/-! ### Where the id in a task comes from -/

/-- The grant that the thread holds. -/
def Phase.grant : Phase → Option GrantDesc
  | .holding grant => some grant
  | .submitting grant => some grant
  | .waiting _ taskGrant => taskGrant
  | .polling _ taskGrant => taskGrant
  | .finishing taskGrant => taskGrant
  | _ => none

/-- A thread keeps the grant that it holds, and gets one from `Get` only. -/
theorem Phase.Next.grant {op : PerformOp} {phase phase' : Phase} (h : phase.Next op phase')
    (hop : ∀ grant, op ≠ .getGrant (some grant)) : phase'.grant = phase.grant := by
  cases h with
  | gets => exact absurd rfl (hop _)
  | _ => rfl

namespace TaskDesc

/-- The task has joined a compile: it is dispatched, and its thread holds no grant. -/
def joined (desc : TaskDesc) : Bool := desc.state == .dispatched && desc.phase.grant.isNone

/-- The id in a task is that of a grant that it got, if its thread holds one. -/
structure Attributed (got : UInt64 → Prop) (desc : TaskDesc) : Prop where
  fits : desc.phase.Fits desc.state
  grantless : desc.phase.grant = none → desc.phase ≠ .ended →
    desc.state ≠ .ready ∧ ∀ grantId, ¬ got grantId
  granted : ∀ grant, desc.phase.grant = some grant →
    got grant.grantId ∧ (desc.state ≠ .pending → desc.taskGrantId = grant.grantId)

variable {got : UInt64 → Prop} {now : TimePoint} {desc desc' : TaskDesc} {op : PerformOp}

theorem Attributed.not_ended (h : desc.Attributed got) (hdone : desc.state ≠ .done) :
    desc.phase ≠ .ended := by
  intro hended
  exact hdone (fits_of h.fits hended)

theorem joined_iff :
    desc.joined = true ↔ desc.state = .dispatched ∧ desc.phase.grant = none := by
  rw [joined, Bool.and_eq_true, beq_iff_eq, Option.isNone_iff_eq_none]

/-- A task that is under way and has not joined has a grant of its own. -/
theorem Attributed.owns (h : desc.Attributed got) (hunderway : desc.underway = true)
    (hjoined : desc.joined ≠ true) : got desc.taskGrantId := by
  rw [underway, Bool.and_eq_true, Bool.and_eq_true, bne_iff_ne, bne_iff_ne] at hunderway
  obtain ⟨⟨hpending, hdone⟩, -⟩ := hunderway
  cases hgrant : desc.phase.grant with
  | some grant =>
      obtain ⟨hgot, hid⟩ := h.granted grant hgrant
      rwa [hid hpending]
  | none =>
      have hready := (h.grantless hgrant (h.not_ended hdone)).1
      refine absurd (joined_iff.2 ⟨?_, hgrant⟩) hjoined
      cases hstate : desc.state with
      | dispatched => rfl
      | pending => exact absurd hstate hpending
      | ready => exact absurd hstate hready
      | done => exact absurd hstate hdone

/-- A task that has joined has never got a grant. -/
theorem Attributed.not_got (h : desc.Attributed got) (hjoined : desc.joined = true)
    (grantId : UInt64) : ¬ got grantId := by
  obtain ⟨hstate, hgrant⟩ := joined_iff.1 hjoined
  exact (h.grantless hgrant (h.not_ended (by rw [hstate]; exact TaskState.noConfusion))).2 grantId

theorem Attributed.congr {got' : UInt64 → Prop} (h : desc.Attributed got)
    (hgot : ∀ grantId, got' grantId ↔ got grantId) : desc.Attributed got' where
  fits := h.fits
  grantless := fun hgrant hne =>
    ⟨(h.grantless hgrant hne).1, fun id hid => (h.grantless hgrant hne).2 id ((hgot id).1 hid)⟩
  granted := fun grant hgrant => ⟨(hgot _).2 (h.granted grant hgrant).1, (h.granted grant hgrant).2⟩

/-- A thread that gets a grant is still `Pending`. -/
theorem Attributed.holding (h : desc.Attributed got) (hphase : desc.phase = .asking)
    {got' : UInt64 → Prop} {grant : GrantDesc} (hgot : got' grant.grantId) :
    { desc with phase := .holding grant }.Attributed got' := by
  have hpending : desc.state = .pending := fits_of h.fits hphase
  refine ⟨hpending, fun hnone => (by cases hnone), fun other hother => ?_⟩
  obtain rfl := Option.some_inj.1 hother
  exact ⟨hgot, fun hne => absurd hpending hne⟩

theorem Moved.attributed (h : Moved now desc op desc')
    (hop : ∀ grant, op ≠ .getGrant (some grant)) (ha : desc.Attributed got) :
    desc'.Attributed got := by
  cases h with
  | stays => exact ha
  | proceeds output hnext =>
      have hne : desc.phase ≠ .ended := by
        intro hended
        rw [hended] at hnext
        cases hnext.runs.1
      refine ⟨hnext.fits ha.fits, fun hgrant _ => ?_, fun grant hgrant => ?_⟩
      · exact ha.grantless ((hnext.grant hop).symm.trans hgrant) hne
      · exact ha.granted grant ((hnext.grant hop).symm.trans hgrant)
  | joins runningTask hphase =>
      have hnone := ha.grantless (by rw [hphase]; rfl) (by rw [hphase]; exact Phase.noConfusion)
      exact ⟨rfl, fun _ _ => ⟨TaskState.noConfusion, hnone.2⟩, fun grant hgrant => by cases hgrant⟩
  | @readies grant hphase =>
      have hgot := ha.granted grant (by rw [hphase]; rfl)
      refine ⟨rfl, fun hnone => (by cases hnone), fun other hother => ?_⟩
      obtain rfl := Option.some_inj.1 hother
      exact ⟨hgot.1, fun _ => rfl⟩
  | @dispatches grant taskId hphase =>
      have hgot := ha.granted grant (by rw [hphase]; rfl)
      have hready : desc.state = .ready := fits_of ha.fits hphase
      refine ⟨rfl, fun hnone => (by cases hnone), fun other hother => ?_⟩
      obtain rfl := Option.some_inj.1 hother
      exact ⟨hgot.1, fun _ => hgot.2 (by rw [hready]; exact TaskState.noConfusion)⟩
  | completes hphase htask =>
      exact ⟨rfl, fun _ hne => absurd rfl hne, fun grant hgrant => by cases hgrant⟩

end TaskDesc

theorem Change.attributed {s : TaskDispatcher} {input : Input} {p : ℕ} {desc desc' : TaskDesc}
    {got : UInt64 → Prop} (h : Change s input p desc desc')
    (hinput : ∀ grant, input ≠ .perform p (.getGrant (some grant))) (ha : desc.Attributed got) :
    desc'.Attributed got := by
  cases h with
  | inserted hphase =>
      have hpending : desc.state = .pending := TaskDesc.fits_of ha.fits hphase
      have hnone := ha.grantless (by rw [hphase]; rfl) (by rw [hphase]; exact Phase.noConfusion)
      exact ⟨hpending, fun _ _ => hnone, fun grant hgrant => by cases hgrant⟩
  | performed op =>
      refine (desc.perform_moved s.clock op).attributed (fun grant hop => ?_) ha
      rw [hop] at hinput
      exact hinput grant rfl
  | _ => exact ⟨ha.fits, ha.grantless, ha.granted⟩

/-! ### Runs -/

section Runs

variable {n : Network} {is : List Event} {event : Event} {p : ℕ} {grantId : UInt64}

theorem got_concat_iff :
    Got n (is ++ [event]) p grantId ↔ Got n is p grantId ∨
      ∃ grant, event = .get p grant ∧ grant.grantId = grantId ∧
        grant ∈ (network.run n is).remaining ∧ (network.run n is).asks p = true := by
  constructor
  · rintro ⟨js, grant, ks, his, hid, hmem, hasks⟩
    rcases List.eq_nil_or_concat ks with rfl | ⟨ks, last, rfl⟩
    · obtain ⟨rfl, hevent⟩ := List.append_inj' his rfl
      exact Or.inr ⟨grant, (List.cons_eq_cons.1 hevent).1, hid, hmem, hasks⟩
    · rw [List.concat_eq_append, ← List.cons_append, ← List.append_assoc] at his
      obtain ⟨rfl, -⟩ := List.append_inj' his rfl
      exact Or.inl ⟨js, grant, ks, rfl, hid, hmem, hasks⟩
  · rintro (⟨js, grant, ks, rfl, hid, hmem, hasks⟩ | ⟨grant, rfl, hid, hmem, hasks⟩)
    · exact ⟨js, grant, ks ++ [event], by rw [List.append_assoc, List.cons_append], hid, hmem, hasks⟩
    · exact ⟨is, grant, [], rfl, hid, hmem, hasks⟩

/-- Objects are only added. -/
theorem length_network_next (n : Network) (event : Event) :
    n.daemon.descs.length ≤ (network.next n event).daemon.descs.length := by
  rw [network_next_daemon]
  cases n.input event with
  | none => exact le_rfl
  | some input =>
      show _ ≤ (taskDispatcher.next n.daemon input).descs.length
      rw [length_next]
      omega

theorem Got.lt (h : Got n is p grantId) : p < (network.run n is).daemon.descs.length := by
  induction is using List.reverseRecOn with
  | nil =>
      obtain ⟨js, grant, ks, his, -⟩ := h
      cases js <;> cases his
  | append_singleton is event ih =>
      rw [Machine.run_concat]
      refine lt_of_lt_of_le ?_ (length_network_next _ event)
      rcases got_concat_iff.1 h with hgot | ⟨grant, -, -, -, hasks⟩
      · exact ih hgot
      · obtain ⟨desc, hp, -⟩ := (Option.any_eq_true _ _).1 hasks
        exact (List.getElem?_eq_some_iff.1 hp).1

/-- What the dispatcher takes from the scheduler comes by the two events for it. -/
theorem input_cases {input : Input} (h : n.input event = some input) :
    (event = .daemon input ∧ input.awaits = false) ∨
    (∃ p grant, event = .get p grant ∧ input = .perform p (.getGrant (some grant)) ∧
      grant ∈ n.remaining ∧ n.asks p = true) ∨
    (event = .answered ∧ ∃ statues, input = .keptAlive (some statues)) := by
  cases event with
  | daemon other =>
      rw [Network.input] at h
      split at h
      · cases h
      · next hawaits =>
          obtain rfl := Option.some_inj.1 h
          exact Or.inl ⟨rfl, Bool.not_eq_true _ ▸ hawaits⟩
  | get q grant =>
      rw [Network.input] at h
      split at h
      · next hready => exact Or.inr (Or.inl ⟨q, grant, rfl, (Option.some_inj.1 h).symm, hready⟩)
      · cases h
  | answered =>
      obtain ⟨statues, -, heq⟩ := Option.map_eq_some_iff.1 h
      exact Or.inr (Or.inr ⟨rfl, statues, heq.symm⟩)
  | fetch | discard | scheduler | keepTaskAlive => cases h

/-- A thread that has called `Get` and gets a grant holds it. -/
theorem next_getGrant {s : TaskDispatcher} {desc : TaskDesc} (grant : GrantDesc)
    (hp : s.descs[p]? = some desc) (hphase : desc.phase = .asking) :
    (taskDispatcher.next s (.perform p (.getGrant (some grant)))).descs[p]? =
      some { desc with phase := .holding grant } := by
  show (s.modifyWhere _ _).descs[p]? = _
  rw [TaskDispatcher.getElem?_modifyWhere, hp, Option.map_some, if_pos (beq_self_eq_true p)]
  simp only [TaskDesc.perform, hphase]

/-- **Where the id in a task comes from**, in every run. -/
theorem attributed_run {m : UInt64} {desc : TaskDesc}
    (hp : (network.run (.init m) is).daemon.descs[p]? = some desc) :
    desc.Attributed (Got (.init m) is p) := by
  induction is using List.reverseRecOn generalizing p desc with
  | nil => cases hp
  | append_singleton is event ih =>
      rw [Machine.run_concat, network_next_daemon] at hp
      -- nothing is got in this step, unless it is a call of `Get` for this task
      have hsame : (∀ grant, event ≠ .get p grant) → ∀ grantId,
          Got (.init m) (is ++ [event]) p grantId ↔ Got (.init m) is p grantId := by
        intro hne grantId
        rw [got_concat_iff]
        refine or_iff_left ?_
        rintro ⟨grant, heq, -⟩
        exact hne grant heq
      cases hinput : (network.run (.init m) is).input event with
      | none =>
          rw [hinput] at hp
          refine (ih hp).congr fun grantId => ?_
          rw [got_concat_iff]
          refine or_iff_left ?_
          rintro ⟨grant, rfl, -, hmem, hasks⟩
          rw [Network.input, if_pos ⟨hmem, hasks⟩] at hinput
          cases hinput
      | some input =>
          rw [hinput] at hp
          rcases next_descs_cases hp with ⟨desc₀, hp₀, hchange⟩ | ⟨rfl, task, startDeadline, rfl, rfl⟩
          · by_cases hget : ∃ grant, event = .get p grant
            · obtain ⟨grant, rfl⟩ := hget
              rcases input_cases hinput with ⟨hevent, -⟩ | ⟨q, grant', hevent, rfl, hready⟩ | ⟨hevent, -⟩
              · cases hevent
              swap
              · cases hevent
              obtain ⟨rfl, rfl⟩ := Event.get.inj hevent
              obtain ⟨other, hother, hphase⟩ := (Option.any_eq_true _ _).1 hready.2
              obtain rfl := Option.some_inj.1 (hp₀.symm.trans hother)
              have hholding := next_getGrant grant hp₀ (eq_of_beq hphase)
              obtain rfl := Option.some_inj.1 (hholding.symm.trans hp)
              refine (ih hp₀).holding (eq_of_beq hphase) ?_
              exact got_concat_iff.2 (Or.inr ⟨grant, rfl, rfl, hready⟩)
            · have hne : ∀ grant, event ≠ .get p grant := fun grant heq => hget ⟨grant, heq⟩
              refine (hchange.attributed (fun grant heq => ?_) (ih hp₀)).congr (hsame hne)
              rcases input_cases hinput with ⟨-, hawaits⟩ | ⟨q, grant', hevent, hget', -⟩ | ⟨-, _, hkept⟩
              · rw [heq] at hawaits
                cases hawaits
              · obtain ⟨rfl, -⟩ := Input.perform.inj (heq.symm.trans hget')
                exact hne grant' hevent
              · cases heq.symm.trans hkept
          · refine ⟨rfl, fun _ _ => ⟨TaskState.noConfusion, fun grantId hgot => ?_⟩,
              fun grant hgrant => by cases hgrant⟩
            -- there was no object at this place to get a grant
            rcases got_concat_iff.1 hgot with hgot | ⟨grant, -, -, -, hasks⟩
            · exact absurd hgot.lt (lt_irrefl _)
            · obtain ⟨desc, hdesc, -⟩ := (Option.any_eq_true _ _).1 hasks
              exact absurd (List.getElem?_eq_some_iff.1 hdesc).1 (lt_irrefl _)

end Runs

/-! ### Keeping alive -/

/-- **Only own grants are renewed**, in a run.  What `OnTimerKeepAlive` puts into its request for a
task is a grant that `Get` returned to that task; what the scheduler renews for the daemon is a
grant that `Get` returned to some task of the daemon; and `OnTimerKeepAlive` does not abort a task
that has joined a compile. -/
structure RenewsOwn (n : Network) (is : List Event) : Prop where
  own : ∀ (js : List Event) (now : TimePoint) (ks : List Event) (p : ℕ) (desc : TaskDesc),
    is = js ++ .daemon (.onTimerKeepAlive now) :: ks → (network.run n js).daemon.keepAlive = none →
    p ∈ (network.run n js).daemon.collected (min now (network.run n js).daemon.clock) →
    (network.run n js).daemon.descs[p]? = some desc → Got n js p desc.taskGrantId
  renewed : ∀ (js : List Event) (k : ℕ) (service : Scheduler.SchedulerServiceImpl) (token : String)
    (now : ℕ → TimePoint) (ks : List Event) (grantId : UInt64),
    is = js ++ .keepTaskAlive k service token now :: ks →
    (network.next (network.run n js) (.keepTaskAlive k service token now)).scheduler.tasks.lookup
      grantId ≠ (network.run n js).scheduler.tasks.lookup grantId →
    ∃ p, Got n js p grantId
  joined : ∀ (js : List Event) (now : TimePoint) (ks : List Event) (p : ℕ) (desc : TaskDesc),
    is = js ++ .daemon (.onTimerKeepAlive now) :: ks →
    (network.run n js).daemon.descs[p]? = some desc → desc.joined = true →
    ¬ Aborts (network.run n js).daemon (.onTimerKeepAlive now) p

/-- Whenever `OnTimerKeepAlive` goes over the table, no task in it that is under way has joined. -/
def NoneJoined (n : Network) : Event → Prop
  | .daemon (.onTimerKeepAlive _) => n.daemon.keepAlive = none → ∀ taskId p desc,
      n.daemon.tasks.lookup taskId = some p → n.daemon.descs[p]? = some desc →
      desc.underway = true → desc.joined = false
  | _ => True

section KeepAlive

variable {s : TaskDispatcher} {input : Input} {now : TimePoint} {p : ℕ} {desc : TaskDesc}

theorem TaskDispatcher.mem_collected (now : TimePoint) (hp : s.descs[p]? = some desc) :
    p ∈ s.collected now ↔ s.listed p = true ∧ desc.renews now = true := by
  rw [collected, List.mem_filter, hp, Option.any_some, listed, List.any_eq_true, List.mem_map]
  simp only [beq_iff_eq]

theorem TaskDispatcher.mem_taskGrantIds {grantId : UInt64}
    (h : grantId ∈ (s.keepAliveRequest now).taskGrantIds) :
    ∃ (p : ℕ) (desc : TaskDesc), p ∈ s.collected now ∧ s.descs[p]? = some desc ∧
      desc.taskGrantId = grantId := by
  obtain ⟨p, hmem, hid⟩ := List.mem_filterMap.1 h
  obtain ⟨desc, hp, hid⟩ := Option.map_eq_some_iff.1 hid
  exact ⟨p, desc, hmem, hp, hid⟩

theorem next_onTimerKeepAlive (hbusy : s.keepAlive = none) (hp : s.descs[p]? = some desc)
    (hlisted : s.listed p = true) (hstale : desc.stale (min now s.clock) = true) :
    (taskDispatcher.next s (.onTimerKeepAlive now)).descs[p]? =
      some { desc with aborted := true } := by
  show (s.onTimerKeepAlive (min now s.clock)).descs[p]? = _
  rw [TaskDispatcher.onTimerKeepAlive, hbusy]
  show (s.modifyWhere _ _).descs[p]? = _
  rw [TaskDispatcher.getElem?_modifyWhere, hp, Option.map_some, if_pos hlisted, if_pos hstale]

/-- What `OnTimerKeepAlive` aborts is in the table, under way and stale. -/
theorem Aborts.stale (h : Aborts s (.onTimerKeepAlive now) p) (hp : s.descs[p]? = some desc) :
    s.keepAlive = none ∧ s.listed p = true ∧ desc.underway = true := by
  obtain ⟨desc₀, desc', hp₀, hchange, hfalse, htrue⟩ := h.change
  obtain rfl := Option.some_inj.1 (hp.symm.trans hp₀)
  cases hchange with
  | unchanged =>
      rw [hfalse] at htrue
      cases htrue
  | stale hlisted hbusy hstale =>
      rw [TaskDesc.stale, Bool.and_eq_true] at hstale
      exact ⟨hbusy, hlisted, hstale.1⟩

end KeepAlive

section Runs

variable {m : UInt64} {is : List Event}

/-- The ids of a request are own grants, if no task has joined that is under way. -/
theorem got_of_noneJoined {now : TimePoint} {p : ℕ} {desc : TaskDesc}
    (h : NoneJoined (network.run (.init m) is) (.daemon (.onTimerKeepAlive now)))
    (hbusy : (network.run (.init m) is).daemon.keepAlive = none)
    (hmem : p ∈ (network.run (.init m) is).daemon.collected
      (min now (network.run (.init m) is).daemon.clock))
    (hp : (network.run (.init m) is).daemon.descs[p]? = some desc) :
    Got (.init m) is p desc.taskGrantId := by
  obtain ⟨hlisted, hrenews⟩ := (TaskDispatcher.mem_collected _ hp).1 hmem
  rw [TaskDesc.renews, Bool.and_eq_true] at hrenews
  obtain ⟨taskId, hlook⟩ := TaskDispatcher.listed_iff.1 hlisted
  have hjoined := h hbusy taskId p desc hlook hp hrenews.1
  exact (attributed_run hp).owns hrenews.1 (by rw [hjoined]; exact Bool.false_ne_true)

theorem Got.concat {n : Network} {p : ℕ} {grantId : UInt64} (h : Got n is p grantId) (event : Event) :
    Got n (is ++ [event]) p grantId := got_concat_iff.2 (Or.inl h)

/-- The requests that are on their way have the ids of own grants. -/
theorem request_own (h : network.Along NoneJoined (.init m) is) {request : KeepAliveRequest}
    (hrequest : request ∈ (network.run (.init m) is).requests) {grantId : UInt64}
    (hmem : grantId ∈ request.taskGrantIds) : ∃ p, Got (.init m) is p grantId := by
  induction is using List.reverseRecOn with
  | nil => cases hrequest
  | append_singleton is event ih =>
      obtain ⟨halong, hevent⟩ := Machine.along_concat.1 h
      rw [Machine.run_concat] at hrequest
      rcases mem_network_next_requests hrequest with hold | ⟨input, hinput, hbusy, hmade⟩
      · obtain ⟨p, hgot⟩ := ih halong hold
        exact ⟨p, hgot.concat event⟩
      · rcases (next_frame (network.run (.init m) is).daemon input).2.2 with
          hsame | hnone | ⟨now, rfl, -, hnew⟩
        · cases hbusy.symm.trans (hsame.symm.trans hmade)
        · cases hnone.symm.trans hmade
        · obtain rfl := Option.some_inj.1 (hnew.symm.trans hmade)
          obtain ⟨p, desc, hcollected, hp, rfl⟩ := TaskDispatcher.mem_taskGrantIds hmem
          rcases input_cases hinput with ⟨rfl, -⟩ | ⟨_, _, -, hget, -⟩ | ⟨-, _, hkept⟩
          · exact ⟨p, (got_of_noneJoined hevent hbusy hcollected hp).concat _⟩
          · cases hget
          · cases hkept

theorem renewsOwn_of_along (h : network.Along NoneJoined (.init m) is) :
    RenewsOwn (.init m) is := by
  have hstep := Machine.along_iff.1 h
  constructor
  case own =>
    intro js now ks p desc his hbusy hmem hp
    exact got_of_noneJoined (hstep js _ ks his) hbusy hmem hp
  case renewed =>
    rintro js k service token now ks grantId rfl hchanged
    have hprefix := (Machine.along_append.1 h).1
    by_contra hnot
    refine hchanged ?_
    show ((network.run (.init m) js).keepTaskAlive k service token now).scheduler.tasks.lookup grantId = _
    rw [Network.keepTaskAlive]
    split
    · next request hrequest =>
        have hout : grantId ∉ request.taskGrantIds := fun hmem =>
          hnot (request_own hprefix (List.mem_of_getElem? hrequest) hmem)
        exact Scheduler.lookup_keepTaskAliveRpc hout ..
    · rfl
  case joined =>
    intro js now ks p desc his hp hjoined haborts
    obtain ⟨hbusy, hlisted, hunderway⟩ := haborts.stale hp
    obtain ⟨taskId, hlook⟩ := TaskDispatcher.listed_iff.1 hlisted
    have hnot := hstep js _ ks his hbusy taskId p desc hlook hp hunderway
    rw [hjoined] at hnot
    cases hnot

theorem along_of_renewsOwn (h : RenewsOwn (.init m) is) :
    network.Along NoneJoined (.init m) is := by
  refine Machine.along_iff.2 fun js event ks his => ?_
  cases event with
  | daemon input =>
      cases input with
      | onTimerKeepAlive now =>
          intro hbusy taskId p desc hlook hp hunderway
          have hlisted := TaskDispatcher.listed_iff.2 ⟨taskId, hlook⟩
          by_contra hne
          have hjoined : desc.joined = true := by simpa using hne
          cases hstale : desc.stale (min now (network.run (.init m) js).daemon.clock) with
          | true =>
              refine h.joined js now ks p desc his hp hjoined ⟨desc, _, hp,
                next_onTimerKeepAlive hbusy hp hlisted hstale, ?_, rfl⟩
              rw [TaskDesc.underway, Bool.and_eq_true, Bool.not_eq_true'] at hunderway
              exact hunderway.2
          | false =>
              rw [TaskDesc.stale, hunderway, Bool.true_and] at hstale
              have hrenews : desc.renews (min now (network.run (.init m) js).daemon.clock) = true := by
                rw [TaskDesc.renews, hunderway, hstale]
                rfl
              have hmem := (TaskDispatcher.mem_collected _ hp).2 ⟨hlisted, hrenews⟩
              exact (attributed_run hp).not_got hjoined _ (h.own js now ks p desc his hbusy hmem hp)
      | _ => trivial
  | _ => trivial

/-- **When only own grants are renewed**: exactly if no task that has joined a compile is under way
whenever `OnTimerKeepAlive` goes over the table. -/
theorem renewsOwn_iff (m : UInt64) (is : List Event) :
    RenewsOwn (.init m) is ↔ network.Along NoneJoined (.init m) is :=
  ⟨along_of_renewsOwn, renewsOwn_of_along⟩

end Runs

/-- A task joins a compile, and the timer makes a request for it. -/
def joining : List Event :=
  [.daemon (.newTask sampleTask (5 * minute)), .daemon (.insertTask 0), .daemon (.perform 0 .start),
    .daemon (.perform 0 (.tryReadCache (.ok none))),
    .daemon (.perform 0 (.tryGetExistedResult (some ⟨"10.0.0.2:8335", 1⟩))),
    .daemon (.onTimerKeepAlive 0)]

/-- Another daemon has got the first grant of the scheduler before. -/
def collision : List Event :=
  [.scheduler Scheduler.sampleRegister, .scheduler Scheduler.sampleGrant] ++ joining

/-- A scheduler that accepts the token of the daemon. -/
def sampleService : Scheduler.SchedulerServiceImpl where
  userTokenVerifier := { recognizedTokens := ["token"] }
  servantTokenVerifier := {}
  activeDaemonTokens := []

/-- The scheduler handles the request. -/
def served : Event := .keepTaskAlive 0 sampleService "token" fun _ => 1

/-- There is no grant, the scheduler says so, and the timer comes again after more than a minute. -/
def refusal : List Event :=
  joining ++ [served, .answered, .daemon (.tick (minute + 1)), .daemon (.onTimerKeepAlive (minute + 1))]

theorem not_got_collision (p : ℕ) (grantId : UInt64) : ¬ Got (.init 0) collision p grantId := by
  rintro ⟨js, grant, ks, his, -⟩
  have hmem : Event.get p grant ∈ collision := by
    rw [his]
    exact List.mem_append_right _ List.mem_cons_self
  simp [collision, joining] at hmem

/-- A task that has joined renews the first grant of the scheduler, which another daemon has; and
when there is none, it is aborted because the scheduler does not know the id. -/
theorem renewsOwn_not :
    (network.run (.init 0) collision).daemon.keepAlive = some ⟨0, [1], [0]⟩ ∧
    ¬ RenewsOwn (.init 0) (collision ++ [served]) ∧
    (network.run (.init 0) (joining ++ [served])).answer = some [false] ∧
    ¬ RenewsOwn (.init 0) refusal := by
  refine ⟨rfl, fun h => ?_, by decide, fun h => ?_⟩
  · have hrenewed : (network.next (network.run (.init 0) collision) served).scheduler.tasks.lookup 0 ≠
        (network.run (.init 0) collision).scheduler.tasks.lookup 0 := by
      decide
    obtain ⟨p, hgot⟩ := h.renewed collision 0 sampleService "token" (fun _ => 1) [] 0 rfl hrenewed
    exact not_got_collision p 0 hgot
  · exact h.joined (refusal.take 9) (minute + 1) [] 0 _ rfl rfl rfl ⟨_, _, rfl, rfl, rfl, rfl⟩

end Local
