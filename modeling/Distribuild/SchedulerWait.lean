/-
**Callers that wait for a free servant.**

`WaitForStartingNewTask` is the waiting loop of the scheduler's `TaskDispatcher`: its caller looks
at the servants, and sleeps on `alloc_cv_` until its deadline while all servants with the compiler
are busy.  The dispatcher with its sleeping callers is a monitor in the sense of
`Distribuild/Monitor.lean`.

`alloc_cv_` is notified in one place, at the end of `UnsafeFreeTask`.  So capacity that a free, a
cleared zombie or an expired servant leaves behind is announced; capacity that a heartbeat brings is
not.  A new machine, or one whose load has dropped or that has installed the compiler, goes unheard,
and since the timeout branch returns without another look, a caller may be refused while a servant
is free for it.  The second way to the same end is a caller that is notified and has timed out when
it takes the mutex again.  These two are all: in every run without them, a refusal by timeout is
justified.

Main definitions:

* `Scheduler.waitMonitor`, `Scheduler.blocking` — the dispatcher with its sleeping callers;
* `Scheduler.reportedServant` — a servant as a heartbeat is about to leave it;
* `Scheduler.WakeUpsHeard` — no capacity goes unheard in a step.

Main results:

* `Scheduler.blocking_simulates` — behind the mutex, every run is a run of the dispatcher;
* `Scheduler.attentive_of_heard` — every operation but the heartbeat announces the capacity it
  makes;
* `Scheduler.timeout_no_free_servant` — **no refusal by timeout is in vain** where capacity is
  heard;
* `Scheduler.timeout_with_free_servant` — it may be otherwise.
-/

import Distribuild.Monitor
import Distribuild.SchedulerGrant

set_option relaxedAutoImplicit false
set_option autoImplicit false

namespace Scheduler

/-! ### The dispatcher as a monitor -/

/-- The arguments of `WaitForStartingNewTask`, but for the deadline. -/
structure WaitRequest where
  taskInfo : TaskInfo
  expiresIn : Duration
  prefetching : Bool
deriving DecidableEq, Repr

/-- The operation is a request. -/
def Op.isRequest : Op → Bool
  | .waitForStartingNewTask .. => true
  | _ => false

/-- The operations that do not wait. -/
abbrev OtherOp := { op : Op // op.isRequest = false }

/-- One pass of the loop of `WaitForStartingNewTask`. -/
def attemptToStart (s : TaskDispatcher) (request : WaitRequest) (now : TimePoint) :
    TaskDispatcher × Option StartResult :=
  match waitForStartingNewTask s request.taskInfo request.expiresIn request.prefetching now with
  | (s', .noFreeServant) => (s', none)
  | (s', result) => (s', some result)

/-- Whether an operation reaches `alloc_cv_.notify_all()`. -/
def notifiesAll (s : TaskDispatcher) : OtherOp → Bool
  | ⟨.freeTask taskId, _⟩ => (freeTask s taskId).2
  | ⟨.notifyServantRunningTasks servantLocation tasks, _⟩ =>
      (notifyServantRunningTasks s servantLocation tasks).notified
  | ⟨.onTimerExpiration now, _⟩ => (onTimerExpiration s now).2
  | _ => false

/-- The dispatcher as a monitor.  A request can be served if a servant is free for it. -/
def waitMonitor : Monitor TaskDispatcher WaitRequest StartResult OtherOp Output where
  attempt := attemptToStart
  exec := fun s op => exec s op.1
  notifies := notifiesAll
  ready := fun s request => !(freeServantsFor s request.taskInfo).isEmpty

/-- The dispatcher with its callers, which are numbered. -/
abbrev Waiting := Monitor.State TaskDispatcher WaitRequest ℕ

abbrev WaitEvent := Monitor.Event WaitRequest OtherOp ℕ

abbrev WaitReply := Monitor.Reply StartResult Output

/-- **The dispatcher with sleeping callers, as a machine.** -/
def blocking : Machine Waiting WaitEvent WaitReply := waitMonitor.machine ℕ

def Waiting.init (minMemory : UInt64) : Waiting where
  shared := .init minMemory
  waiting := fun _ => none

theorem ready_eq_false {s : TaskDispatcher} {request : WaitRequest} :
    waitMonitor.ready s request = false ↔ freeServantsFor s request.taskInfo = [] := by
  simp [waitMonitor]

theorem freeServantsFor_eq_nil {s : TaskDispatcher} {taskInfo : TaskInfo} :
    freeServantsFor s taskInfo = [] ↔
      ∀ p ∈ unsafeGetServantsHasEnv s taskInfo,
        ¬(s.heap p).runningTasks < availableTasks s.minMemoryForNewTask (s.heap p) := by
  rw [freeServantsFor, unsafeGetFreeServants, List.filter_eq_nil_iff]
  simp only [isFree_iff]

/-! ### Behind the mutex -/

/-- One pass of the loop is the operation of the dispatcher. -/
theorem attemptToStart_eq (s : TaskDispatcher) (request : WaitRequest) (now : TimePoint) :
    (attemptToStart s request now).1 =
      (exec s (.waitForStartingNewTask request.taskInfo request.expiresIn request.prefetching
        now)).1 := by
  unfold attemptToStart
  split <;> simp only [exec, *]

/-- **Behind the mutex, every run is a run of the dispatcher.** -/
theorem blocking_simulates : dispatcher.Simulates blocking Monitor.State.shared := by
  intro s e
  rcases Monitor.next_cases (M := waitMonitor) s e with ⟨hnext, -⟩ |
    ⟨caller, w, now, -, -, -, hnext, -⟩ | ⟨caller, request, deadline, now, hnext, -⟩ |
    ⟨i, -, hnext, -⟩
  · exact ⟨[], (congrArg Monitor.State.shared hnext).symm⟩
  · exact ⟨[], (congrArg Monitor.State.shared hnext).symm⟩
  · refine ⟨[.waitForStartingNewTask request.taskInfo request.expiresIn request.prefetching now],
      ?_⟩
    have hshared := congrArg Monitor.State.shared hnext
    rw [Monitor.look_shared] at hshared
    exact (attemptToStart_eq s.shared request now).symm.trans hshared.symm
  · exact ⟨[i.1], (congrArg Monitor.State.shared hnext).symm⟩

/-- **What one pass of the loop ends with**: the compiler is missing, or no servant is free and the
caller goes to sleep, or a task is granted. -/
theorem attemptToStart_cases (s : TaskDispatcher) (request : WaitRequest) (now : TimePoint) :
    (unsafeGetServantsHasEnv s request.taskInfo = [] ∧
      attemptToStart s request now = (s, some .envNotFound)) ∨
    (freeServantsFor s request.taskInfo = [] ∧ attemptToStart s request now = (s, none)) ∨
    ∃ p ∈ freeServantsFor s request.taskInfo, attemptToStart s request now =
      ((startNewTask s p request.taskInfo request.expiresIn request.prefetching now).1,
        some (.granted (startNewTask s p request.taskInfo request.expiresIn request.prefetching
          now).2 p)) := by
  rcases waitForStartingNewTask_cases s request.taskInfo request.expiresIn request.prefetching now
    with ⟨henv, heq⟩ | ⟨-, hnone, heq⟩ | ⟨p, hp, -, heq⟩
  · exact Or.inl ⟨henv, by simp only [attemptToStart, heq]⟩
  · exact Or.inr (Or.inl ⟨hnone, by simp only [attemptToStart, heq]⟩)
  · exact Or.inr (Or.inr ⟨p, hp, by simp only [attemptToStart, heq]⟩)

/-- What a caller that goes through the loop once is told, and what it leaves behind the mutex. -/
theorem look_cases (w : Waiting) (caller : ℕ) (request : WaitRequest) (deadline now : TimePoint) :
    (unsafeGetServantsHasEnv w.shared request.taskInfo = [] ∧
      (waitMonitor.look w caller request deadline now).2 = .answered .envNotFound ∧
      (waitMonitor.look w caller request deadline now).1.shared = w.shared) ∨
    ((waitMonitor.look w caller request deadline now).2 = .asleep ∧
      (waitMonitor.look w caller request deadline now).1.shared = w.shared) ∨
    ∃ p, (waitMonitor.look w caller request deadline now).2 =
        .answered (.granted (startNewTask w.shared p request.taskInfo request.expiresIn
          request.prefetching now).2 p) ∧
      (waitMonitor.look w caller request deadline now).1.shared =
        (startNewTask w.shared p request.taskInfo request.expiresIn request.prefetching
          now).1 := by
  rcases attemptToStart_cases w.shared request now with ⟨henv, heq⟩ | ⟨-, heq⟩ | ⟨p, -, heq⟩
  · exact Or.inl ⟨henv, by simp only [Monitor.look, waitMonitor, heq, and_self]⟩
  · exact Or.inr (Or.inl (by simp only [Monitor.look, waitMonitor, heq, and_self]))
  · exact Or.inr (Or.inr ⟨p, by simp only [Monitor.look, waitMonitor, heq, and_self]⟩)

/-- A grant frees no servant for another request: it only makes the picked one busier. -/
theorem freeServantsFor_startNewTask {s : TaskDispatcher} {p : ServantPtr} {taskInfo : TaskInfo}
    (hp : p ∈ freeServantsFor s taskInfo) (expiresIn : Duration) (prefetching : Bool)
    (now : TimePoint) {other : TaskInfo} (h : freeServantsFor s other = []) :
    freeServantsFor (startNewTask s p taskInfo expiresIn prefetching now).1 other = [] := by
  rw [List.eq_nil_iff_forall_not_mem] at h ⊢
  intro q hq
  obtain ⟨hmem, henv, hfree⟩ := mem_freeServantsFor.1 hq
  rw [startNewTask_servants] at hmem
  rw [startNewTask_infoOf] at henv
  by_cases hqp : q = p
  · -- the picked servant was free already, so it has not got the compiler of the other request
    obtain ⟨-, -, hpfree⟩ := mem_freeServantsFor.1 hp
    subst hqp
    exact h q (mem_freeServantsFor.2 ⟨hmem, henv, hpfree⟩)
  · rw [startNewTask_heap, Function.update_of_ne hqp] at hfree
    exact h q (mem_freeServantsFor.2 ⟨hmem, henv, hfree⟩)

theorem waitMonitor_fairLoop : waitMonitor.FairLoop where
  asleep := by
    intro s request now h
    rw [ready_eq_false]
    change (attemptToStart s request now).2 = none at h
    change freeServantsFor (attemptToStart s request now).1 request.taskInfo = []
    rcases attemptToStart_cases s request now with ⟨-, heq⟩ | ⟨hnone, heq⟩ | ⟨p, -, heq⟩
    · rw [heq] at h
      cases h
    · rw [heq]
      exact hnone
    · rw [heq] at h
      cases h
  others := by
    intro s request now request' h
    rw [ready_eq_false] at h ⊢
    change freeServantsFor (attemptToStart s request now).1 request'.taskInfo = []
    rcases attemptToStart_cases s request now with ⟨-, heq⟩ | ⟨-, heq⟩ | ⟨p, hp, heq⟩
    · rw [heq]
      exact h
    · rw [heq]
      exact h
    · rw [heq]
      exact freeServantsFor_startNewTask hp _ _ _ h

/-! ### Which capacity is announced -/

/-- The servant that a heartbeat is about to leave behind: the one registered at its location with
the new information, or a new one.  (The times do not matter here.) -/
def reportedServant (s : TaskDispatcher) (servantInfo : ServantInfo) : Servant :=
  match s.findServant servantInfo.observedLocation with
  | some p => { s.heap p with servantInfo := servantInfo }
  | none => { servantInfo := servantInfo, discoveredTp := 0, expiresTp := 0 }

/-- **No capacity goes unheard in this step.**

A heartbeat does not leave its servant free for a request whose caller sleeps and has been offered
nothing; and no wait ends with a timeout after its caller has been notified while a servant was free
for it. -/
def WakeUpsHeard (s : Waiting) : WaitEvent → Prop
  | .op ⟨.keepServantAlive servantInfo _ _, _⟩ =>
      ∀ caller w, s.waiting caller = some w → w.offered = false →
        ¬(hasEnv servantInfo w.request.taskInfo = true ∧
          isFree s.shared.minMemoryForNewTask (reportedServant s.shared servantInfo) = true)
  | .wake caller true _ => ∀ w, s.waiting caller = some w → w.offered = false
  | _ => True

/-- Only the counter and the information of a servant decide whether it is free. -/
theorem isFree_congr {minMemory : UInt64} {servant servant' : Servant}
    (hinfo : servant.servantInfo = servant'.servantInfo)
    (hrun : servant.runningTasks = servant'.runningTasks) :
    isFree minMemory servant = isFree minMemory servant' := by
  simp only [isFree, availableTasks, hinfo, hrun]

/-- After a heartbeat, a servant that is free for a request was so before or is the one the
heartbeat was about. -/
theorem freeServantsFor_keepServantAlive {s : TaskDispatcher} {servantInfo : ServantInfo}
    {expireTime : Duration} {now : TimePoint} {taskInfo : TaskInfo} {p : ServantPtr}
    (h : p ∈ freeServantsFor (keepServantAlive s servantInfo expireTime now).1 taskInfo) :
    p ∈ freeServantsFor s taskInfo ∨
      (hasEnv servantInfo taskInfo = true ∧
        isFree s.minMemoryForNewTask (reportedServant s servantInfo) = true) := by
  obtain ⟨hmem, henv, hfree⟩ := mem_freeServantsFor.1 h
  have hfloor : (keepServantAlive s servantInfo expireTime now).1.minMemoryForNewTask =
      s.minMemoryForNewTask := by
    unfold keepServantAlive
    split <;> rfl
  rw [hfloor] at hfree
  by_cases hp : p = (keepServantAlive s servantInfo expireTime now).2
  · rw [hp, keepServantAlive_infoOf] at henv
    refine Or.inr ⟨henv, (isFree_congr ?_ ?_).trans (hp ▸ hfree)⟩
    · have hinfo := keepServantAlive_infoOf s servantInfo expireTime now
      refine Eq.trans ?_ hinfo.symm
      unfold reportedServant
      split <;> rfl
    · rcases keepServantAlive_written s servantInfo expireTime now with
        ⟨hfind, hrun⟩ | ⟨hfind, -, hrun⟩
      · rw [hrun, reportedServant, hfind]
      · rw [hrun, reportedServant, hfind]
  · rw [TaskDispatcher.infoOf, keepServantAlive_of_ne hp] at henv
    rw [keepServantAlive_of_ne hp] at hfree
    exact Or.inl (mem_freeServantsFor.2
      ⟨(mem_keepServantAlive.1 hmem).resolve_left hp, henv, hfree⟩)

/-- **Every operation but the heartbeat announces the capacity it makes**: it notifies, or it
changes neither the servants nor their counters. -/
theorem notifiesAll_or_same (s : TaskDispatcher) (op : OtherOp) :
    notifiesAll s op = true ∨ (∃ servantInfo expireTime now,
      op.1 = .keepServantAlive servantInfo expireTime now) ∨
    ∀ taskInfo, freeServantsFor (exec s op.1).1 taskInfo = freeServantsFor s taskInfo := by
  obtain ⟨op, hop⟩ := op
  cases op with
  | waitForStartingNewTask taskInfo expiresIn prefetching now => cases hop
  | keepTaskAlive taskId expireTime now =>
      refine Or.inr (Or.inr fun taskInfo => ?_)
      simp only [exec, keepTaskAlive]
      split
      · rfl
      · split <;> rfl
  | freeTask taskId =>
      cases htask : s.tasks.lookup taskId with
      | none =>
          refine Or.inr (Or.inr fun taskInfo => ?_)
          simp only [exec, freeTask, unsafeFreeTask, htask]
      | some task =>
          refine Or.inl ?_
          simp only [notifiesAll, freeTask, unsafeFreeTask, htask]
  | keepServantAlive servantInfo expireTime now =>
      exact Or.inr (Or.inl ⟨servantInfo, expireTime, now, rfl⟩)
  | notifyServantRunningTasks servantLocation tasks =>
      cases hfind : s.findServant servantLocation with
      | none =>
          refine Or.inr (Or.inr fun taskInfo => ?_)
          simp only [exec, notifyServantRunningTasks, hfind]
      | some p =>
          refine Or.inl ?_
          simp only [notifiesAll, notifyServantRunningTasks, hfind]
          exact (unsafeFreeTask_keysWhere s _).1
  | onTimerExpiration now =>
      refine Or.inl ?_
      simp only [notifiesAll, onTimerExpiration]
      exact (unsafeFreeTask_keysWhere (expireServants s now) _).1
  | rehash taskRank locationRank => exact Or.inr (Or.inr fun taskInfo => rfl)

theorem attentive_of_heard {s : Waiting} {op : OtherOp} (h : WakeUpsHeard s (.op op)) :
    waitMonitor.Attentive s op := by
  rcases notifiesAll_or_same s.shared op with hnot | ⟨servantInfo, expireTime, now, hop⟩ | hsame
  · exact Or.inl hnot
  · refine Or.inr fun caller w hw hoff hready => ?_
    obtain ⟨op, hreq⟩ := op
    subst hop
    rw [ready_eq_false] at hready ⊢
    rw [List.eq_nil_iff_forall_not_mem] at hready ⊢
    intro p hp
    rcases freeServantsFor_keepServantAlive hp with hold | hnew
    · exact hready p hold
    · exact h caller w hw hoff hnew
  · refine Or.inr fun caller w hw hoff hready => ?_
    rw [ready_eq_false] at hready ⊢
    exact (hsame _).trans hready

/-! ### Refusals by timeout -/

theorem settled_init (minMemory : UInt64) : waitMonitor.Settled (Waiting.init minMemory) := by
  intro caller w hw
  cases hw

/-- **No refusal by timeout is in vain**, in every run whose steps let no capacity go unheard: when
a call returns `WaitStatus::Timeout`, no registered servant has the compiler and a free slot. -/
theorem timeout_no_free_servant (minMemory : UInt64) (events : List WaitEvent)
    (hheard : blocking.Along WakeUpsHeard (.init minMemory) events) :
    ∀ pre e post, events = pre ++ e :: post →
      blocking.out (blocking.run (.init minMemory) pre) e = .timeout →
      ∃ caller w now, e = .wake caller true now ∧
        (blocking.run (.init minMemory) pre).waiting caller = some w ∧
        ∀ p ∈ unsafeGetServantsHasEnv (blocking.run (.init minMemory) pre).shared
            w.request.taskInfo,
          ¬((blocking.run (.init minMemory) pre).shared.heap p).runningTasks <
            availableTasks (blocking.run (.init minMemory) pre).shared.minMemoryForNewTask
              ((blocking.run (.init minMemory) pre).shared.heap p) := by
  intro pre e post hevents hout
  subst hevents
  obtain ⟨caller, w, now, he, hw, hready⟩ := Monitor.not_ready_of_timeout waitMonitor_fairLoop
    (C := WakeUpsHeard) (fun s op h => attentive_of_heard h)
    (fun s caller now w h hw => h w hw) (settled_init minMemory) hheard hout
  exact ⟨caller, w, now, he, hw, freeServantsFor_eq_nil.1 (ready_eq_false.1 hready)⟩

/-- A request of caller `caller`, with a deadline. -/
def sampleCall (caller : ℕ) (deadline : TimePoint) : WaitEvent :=
  .call caller { taskInfo := sampleTask, expiresIn := sec 10, prefetching := false } deadline 0

/-- A servant with one slot registers itself. -/
def sampleSmallServant (location : String) : WaitEvent :=
  .op ⟨.keepServantAlive { sampleInfo with
    observedLocation := location, reportedLocation := location, concurrency := 1 } (sec 10) 0, rfl⟩

/-- One servant with one slot, and two requests: the second is refused, and rightly so. -/
theorem timeout_no_free_servant_busy :
    let events := [sampleSmallServant "10.0.0.1:8080", sampleCall 0 0, sampleCall 1 5]
    blocking.out (blocking.run (.init 0) events) (.wake 1 true 5) = .timeout ∧
      ∃ w, (blocking.run (.init 0) events).waiting 1 = some w ∧
        ∀ p ∈ unsafeGetServantsHasEnv (blocking.run (.init 0) events).shared w.request.taskInfo,
          ¬((blocking.run (.init 0) events).shared.heap p).runningTasks <
            availableTasks (blocking.run (.init 0) events).shared.minMemoryForNewTask
              ((blocking.run (.init 0) events).shared.heap p) := by
  intro events
  have hheard : blocking.Along WakeUpsHeard (.init 0) (events ++ [.wake 1 true 5]) := by
    refine ⟨fun caller w hw => ?_, trivial, trivial, fun w hw => ?_, trivial⟩
    · cases hw
    · cases hw
      rfl
  obtain ⟨caller, w, now, he, hw, hbusy⟩ := timeout_no_free_servant 0 _ hheard events
    (.wake 1 true 5) [] rfl (by decide)
  cases he
  exact ⟨by decide, w, hw, hbusy⟩

/-- **A refusal in vain.**  The only servant is busy and the second caller sleeps; a second servant
registers itself, which nobody is told; and the caller is refused while that servant is free. -/
theorem timeout_with_free_servant :
    let events := [sampleSmallServant "10.0.0.1:8080", sampleCall 0 0, sampleCall 1 5,
      sampleSmallServant "10.0.0.2:8080"]
    let s := (blocking.run (.init 0) events).shared
    blocking.out (blocking.run (.init 0) events) (.wake 1 true 5) = .timeout ∧
      ((blocking.run (.init 0) events).waiting 1).map (fun w => w.request.taskInfo) =
        some sampleTask ∧
      (1 : ServantPtr) ∈ unsafeGetServantsHasEnv s sampleTask ∧
      (s.heap 1).runningTasks < availableTasks s.minMemoryForNewTask (s.heap 1) := by
  decide

end Scheduler
