/-
**How the end of a compile reaches those who wait for it.**

`wait` returns a pid.  `OnExitCallback` looks for it in `tasks_`, marks the object it finds as
completed, and sets its event; `WaitForTask` waits for that event.  Two things are lost on the way.
The event is one that the thread which waits for it resets, so a completion is seen by one call
only.  And a pid says less than it seems: an entry keeps its pid for a minute after its compile has
ended, while the operating system may give it to a new child at once, so the loop may find the entry
of an older compile.

Main definitions:

* `Cloud.waitsSince` — how many waits for an object have ended since its completion;
* `Cloud.ReachesOwnTask` — a callback completes the task of its child and no other;
* `Cloud.PidUnshared` — no entry that is visited before that of a task has a given pid.

Main results:

* `Cloud.flagged_run` — **the event is set exactly as long as no wait has ended since**;
* `Cloud.waitForTask_returns_iff` — **the first wait gets the result, and only the first**;
* `Cloud.exit_reaches_own_task_iff` — **a callback finds its task exactly if no entry before it has
  the pid**.
-/

import Distribuild.CloudProcesses

set_option relaxedAutoImplicit false
set_option autoImplicit false

namespace Cloud

variable {τ : Type}

/-! ### The event -/

/-- The completion event of an object is set. -/
def Executor.signalled (e : Executor τ) (p : TaskPtr) : Bool :=
  (e.heap p).any TaskDesc.completionEvent

/-- A change of one object that does not touch the event. -/
theorem signalled_modifyDesc (e : Executor τ) (p q : TaskPtr) {f : TaskDesc τ → TaskDesc τ}
    (hf : ∀ desc, (f desc).completionEvent = desc.completionEvent) :
    (e.modifyDesc p f).signalled q = e.signalled q := by
  unfold Executor.signalled
  rw [heap_modifyDesc]
  split
  next hq =>
    rw [hq, Option.any_map]
    exact congrArg (fun g => Option.any g (e.heap p)) (funext hf)
  next => rfl

/-- The operations that neither set an event nor wait for one. -/
def ExecutorOp.keepsEvents : ExecutorOp τ → Bool
  | .tryWait _ => false
  | .reportCompletion _ => false
  | _ => true

theorem signalled_exec {e : Executor τ} (hs : e.Sound) {op : ExecutorOp τ}
    (hop : op.keepsEvents = true) (p : TaskPtr) :
    (exec e op).1.signalled p = e.signalled p := by
  cases op with
  | tryQueueTask grantId userTask availMemory pid now =>
      rcases tryQueueTask_cases e grantId userTask availMemory pid now with
        ⟨n, -, heq⟩ | ⟨-, -, heq⟩
      · simp only [exec, heq]
        rfl
      · simp only [exec, heq, Executor.signalled, Executor.started]
        -- a new object begins with an event that is not set
        by_cases hp : p = e.heapTop
        · rw [hp, Function.update_self, hs.top e.heapTop (Nat.le_refl _)]
          rfl
        · rw [Function.update_of_ne hp]
  | tryAddTaskRef taskId =>
      simp only [exec, tryAddTaskRef]
      split
      · rfl
      · exact signalled_modifyDesc e _ p fun _ => rfl
  | freeTask taskId =>
      rcases freeTask_cases e taskId with ⟨-, heq⟩ | ⟨q, desc, -, -, ⟨-, heq⟩ | ⟨-, heq⟩⟩
      · simp only [exec, heq]
      · simp only [exec, heq]
        exact signalled_modifyDesc e q p fun _ => rfl
      · simp only [exec, heq]
        exact signalled_modifyDesc e q p fun _ => rfl
  | killTask q => rfl
  | waitForTask taskId => rfl
  | tryWait q => cases hop
  | killExpiredTasks expiredGrantIds => rfl
  | onExitCallback pid now =>
      simp only [exec, Executor.signalled, (onExitCallback_spec e pid now).2.2.2.2 p]
      split
      · rw [Option.any_map]
      · rfl
  | reportCompletion q => cases hop
  | onTimerClean now => rfl
  | stop => rfl
  | rehash rank => rfl

/-- A wait takes the event if it is set, and returns the task; else it times out. -/
theorem tryWait_spec {e : Executor τ} {p : TaskPtr} {desc : TaskDesc τ}
    (hdesc : e.heap p = some desc) (q : TaskPtr) :
    (tryWait e p).1.signalled q = (decide (q ≠ p) && e.signalled q) ∧
      (tryWait e p).2 = if e.signalled p then .unknown else .running := by
  have hsig : e.signalled p = desc.completionEvent := by
    unfold Executor.signalled
    rw [hdesc]
    rfl
  unfold tryWait
  simp only [hdesc, hsig]
  cases hevent : desc.completionEvent with
  | true =>
      refine ⟨?_, rfl⟩
      simp only [if_true, Executor.signalled]
      rw [heap_modifyDesc, hdesc]
      by_cases hq : q = p
      · simp [hq]
      · simp [hq]
  | false =>
      refine ⟨?_, rfl⟩
      by_cases hq : q = p
      · simp [hq, hsig, hevent]
      · simp [hq]

/-- The end of a callback sets the event of its object. -/
theorem signalled_reportCompletion {e : Executor τ} {p : TaskPtr} {desc : TaskDesc τ}
    (hdesc : e.heap p = some desc) (q : TaskPtr) :
    (reportCompletion e p).signalled q = (decide (q = p) || e.signalled q) := by
  unfold reportCompletion Executor.signalled
  rw [heap_modifyDesc, hdesc]
  by_cases hq : q = p
  · simp [hq]
  · simp [hq]

/-! ### Who gets a completion -/

/-- One more step: a completion starts the count anew, and a wait that ends adds to it. -/
def countWait (p : TaskPtr) (n : Option ℕ) : HostOutput τ → Option ℕ
  | .completed q => if q = p then some 0 else n
  | .waited q _ _ => if q = p then n.map (· + 1) else n
  | _ => n

/-- How many waits for an object have ended since it was completed, if it has been. -/
def waitsSince (p : TaskPtr) (tr : List (HostEvent τ × HostOutput τ)) : Option ℕ :=
  tr.foldl (fun n e => countWait p n e.2) none

theorem waitsSince_concat (p : TaskPtr) (tr : List (HostEvent τ × HostOutput τ))
    (e : HostEvent τ × HostOutput τ) :
    waitsSince p (tr ++ [e]) = countWait p (waitsSince p tr) e.2 := by
  simp [waitsSince]

/-- The event of an object is set exactly if it has been completed and nobody has waited since. -/
def Flagged (tr : List (HostEvent τ × HostOutput τ)) (h : Host τ) : Prop :=
  ∀ p, h.executor.signalled p = true ↔ waitsSince p tr = some 0

/-- A step that is neither a wait nor the end of a callback. -/
theorem Flagged.keep {tr : List (HostEvent τ × HostOutput τ)} {h : Host τ} (hf : Flagged tr h)
    (hs : h.Sound) {event : HostEvent τ} (hwait : ∀ i, event ≠ .tryWait i)
    (hreport : ∀ i, event ≠ .reportCompletion i) :
    Flagged (tr ++ [(event, (hostStep h event).2)]) (hostStep h event).1 := by
  have hout : ∀ p n, countWait p n (hostStep h event).2 = n := by
    intro p n
    have hanswer := answeredBy_hostStep h event
    revert hanswer
    cases (hostStep h event).2 with
    | waited q task status =>
        intro hanswer
        cases event with
        | tryWait i => exact absurd rfl (hwait i)
        | _ => cases hanswer
    | completed q =>
        intro hanswer
        cases event with
        | reportCompletion i => exact absurd rfl (hreport i)
        | _ => cases hanswer
    | _ => exact fun _ => rfl
  intro p
  rw [waitsSince_concat, hout, ← hf p, executor_hostStep]
  cases hoper : h.operation event with
  | none => exact Iff.rfl
  | some op =>
      have hop : op.keepsEvents = true := by
        cases op with
        | tryWait q =>
            obtain ⟨i, hi⟩ := comesFrom_of_operation hoper
            exact absurd hi (hwait i)
        | reportCompletion q =>
            obtain ⟨i, hi⟩ := comesFrom_of_operation hoper
            exact absurd hi (hreport i)
        | _ => rfl
      exact iff_of_eq (congrArg (· = true) (signalled_exec hs.executor hop p))

/-- **One step keeps events and history in step.** -/
theorem flagged_step {tr : List (HostEvent τ × HostOutput τ)} {h : Host τ} (hs : h.Sound)
    (hf : Flagged tr h) (event : HostEvent τ) :
    Flagged (tr ++ [(event, (hostStep h event).2)]) (hostStep h event).1 := by
  cases event with
  | tryWait i =>
      cases hp : h.callers[i]? with
      | none =>
          intro q
          rw [waitsSince_concat]
          simp only [hostStep, hp, countWait]
          exact hf q
      | some p =>
          obtain ⟨desc, hdesc⟩ := hs.callers p (List.mem_of_getElem? hp)
          intro q
          rw [waitsSince_concat]
          simp only [hostStep, hp, countWait, (tryWait_spec hdesc q).1]
          by_cases hq : q = p
          · simp [hq]
          · simp [hq, Ne.symm hq, hf q]
  | reportCompletion i =>
      cases hp : h.completing[i]? with
      | none =>
          intro q
          rw [waitsSince_concat]
          simp only [hostStep, hp, countWait]
          exact hf q
      | some p =>
          obtain ⟨desc, hdesc⟩ := hs.completing p (List.mem_of_getElem? hp)
          intro q
          rw [waitsSince_concat]
          simp only [hostStep, hp, countWait, signalled_reportCompletion hdesc q]
          by_cases hq : q = p
          · simp [hq]
          · simp [hq, Ne.symm hq, hf q]
  | _ => exact hf.keep hs (fun _ h => by cases h) (fun _ h => by cases h)

/-- **The event of an object is set exactly as long as no wait has ended since its completion.** -/
theorem flagged_run (flags : ExecutorFlags) (numCpuCores : UInt64)
    (events : List (HostEvent τ)) :
    Flagged ((host τ).trace (.init τ flags numCpuCores) events)
      ((host τ).run (.init τ flags numCpuCores) events) := by
  refine (Machine.trace_invariant (M := host τ) (P := fun tr h => h.Sound ∧ Flagged tr h)
    ⟨sound_init flags numCpuCores, fun p => ?_⟩ (fun tr h event hh => ?_) events).2
  · simp [Host.init, Executor.signalled, waitsSince]
  · exact ⟨hh.1.step event, flagged_step hh.1 hh.2 event⟩

/-- A thread in `WaitForTask` returns the task it waits for. -/
def ReturnsTask (h : Host τ) (thread : ℕ) (p : TaskPtr) : Prop :=
  ∃ desc, h.executor.heap p = some desc ∧
    (host τ).out h (.tryWait thread) = .waited p (some desc.task) .unknown

/-- **The first wait gets the result, and only the first.**  In every run, `WaitForTask` on the id
of an entry finds its object.  And when the object of a thread in `WaitForTask` has been completed,
the thread returns its task exactly if no other wait for it has ended since the completion. -/
theorem waitForTask_returns_iff (flags : ExecutorFlags) (numCpuCores : UInt64)
    (events : List (HostEvent τ)) :
    let h := (host τ).run (.init τ flags numCpuCores) events
    let tr := (host τ).trace (.init τ flags numCpuCores) events
    (∀ taskId p, h.executor.tasks.lookup taskId = some p →
      ((host τ).next h (.waitForTask taskId)).callers = h.callers ++ [p]) ∧
    ∀ thread p n, h.callers[thread]? = some p → waitsSince p tr = some n →
      (ReturnsTask h thread p ↔ n = 0) := by
  intro h tr
  have hs : h.Sound := sound_run flags numCpuCores events
  have hf : Flagged tr h := flagged_run flags numCpuCores events
  refine ⟨fun taskId p hlook => ?_, fun thread p n hcaller hsince => ?_⟩
  · simp only [host_next, hostStep, waitForTask, hlook, Option.toList_some]
  · obtain ⟨desc, hdesc⟩ := hs.callers p (List.mem_of_getElem? hcaller)
    have hstatus := (tryWait_spec hdesc p).2
    have hsig : h.executor.signalled p = true ↔ n = 0 := by
      rw [hf p, hsince, Option.some_inj]
    constructor
    · rintro ⟨desc', -, hout⟩
      simp only [host_out, hostStep, hcaller, hstatus] at hout
      by_contra hne
      rw [if_neg fun hset => hne (hsig.1 hset)] at hout
      simp at hout
    · intro hn
      refine ⟨desc, hdesc, ?_⟩
      simp only [host_out, hostStep, hcaller, hstatus, if_pos (hsig.2 hn), hdesc, if_true,
        Option.map_some]

/-- A compile runs to its end and one client fetches the result. -/
def fetchEvents : List (HostEvent Unit) :=
  [.tryQueueTask 7 () 10 100 0, .waiterProc, .waiterProc, .waiterProc, .reap 0, .onExitCallback 0 0,
    .reportCompletion 0, .waitForTask 1]

/-- The first client gets it. -/
theorem waitForTask_returns_first :
    let h := (host Unit).run (.init Unit (sampleFlags 1) 8) fetchEvents
    waitsSince 0 ((host Unit).trace (.init Unit (sampleFlags 1) 8) fetchEvents) = some 0 ∧
      ReturnsTask h 0 0 :=
  ⟨by decide, ((waitForTask_returns_iff (sampleFlags 1) 8 fetchEvents).2 0 0 0 (by decide)
    (by decide)).2 rfl⟩

/-- **A second client does not get it**: the event has been reset, and the wait times out although
the compile has been completed and is in `tasks_`. -/
theorem waitForTask_times_out :
    ¬∀ (flags : ExecutorFlags) (numCpuCores : UInt64) (events : List (HostEvent Unit))
      (taskId : UInt64) (p : TaskPtr) (n : ℕ),
      let h := (host Unit).run (.init Unit flags numCpuCores) events
      h.executor.tasks.lookup taskId = some p →
        waitsSince p ((host Unit).trace (.init Unit flags numCpuCores) events) = some n →
          ReturnsTask ((host Unit).next h (.waitForTask taskId)) h.callers.length p := by
  intro hall
  obtain ⟨desc, -, hout⟩ := hall (sampleFlags 1) 8 (fetchEvents ++ [.tryWait 0]) 1 0 1 (by decide)
    (by decide)
  have hrunning : (host Unit).out ((host Unit).next ((host Unit).run
      (.init Unit (sampleFlags 1) 8) (fetchEvents ++ [.tryWait 0])) (.waitForTask 1)) (.tryWait 0) =
      .waited 0 none .running := by decide
  cases hrunning.symm.trans hout

/-! ### Whose compile has ended -/

/-- The callback for the child of `t` completes `t`, if it is still in `tasks_`, and neither changes
nor completes another task. -/
structure ReachesOwnTask (h : Host τ) (thread : ℕ) (now : TimePoint) (t : TaskPtr) : Prop where
  own : ∀ taskId, h.executor.tasks.lookup taskId = some t →
    ((host τ).next h (.onExitCallback thread now)).executor.heap t = (h.executor.heap t).map
      (fun desc => { desc with completedTp := now, isRunning := false }) ∧
    ((host τ).next h (.onExitCallback thread now)).completing = h.completing ++ [t]
  unchanged : ∀ q, q ≠ t →
    ((host τ).next h (.onExitCallback thread now)).executor.heap q = h.executor.heap q
  uncompleted : ((host τ).next h (.onExitCallback thread now)).completing = h.completing ∨
    ((host τ).next h (.onExitCallback thread now)).completing = h.completing ++ [t]

/-- No entry that the loop visits before that of `t` has the pid; no entry at all, if `t` has left
`tasks_`. -/
def PidUnshared (e : Executor τ) (pid : Pid) (t : TaskPtr) : Prop :=
  ∀ entry ∈ e.all.takeWhile fun entry => decide (entry.2.1 ≠ t), entry.2.2.pid ≠ pid

instance (e : Executor τ) (pid : Pid) (t : TaskPtr) : Decidable (PidUnshared e pid t) :=
  inferInstanceAs (Decidable (∀ entry ∈ e.all.takeWhile fun entry => decide (entry.2.1 ≠ t),
    entry.2.2.pid ≠ pid))

/-- A search finds nothing that is not marked exactly if nothing before the first mark matches. -/
theorem find?_marked_iff {α : Type*} (matched marked : α → Bool) (l : List α)
    (himp : ∀ a ∈ l, marked a = true → matched a = true) :
    (∀ a, l.find? matched = some a → marked a = true) ↔
      ∀ a ∈ l.takeWhile (fun a => !marked a), matched a = false := by
  induction l with
  | nil => simp
  | cons b l ih =>
      have hrest : ∀ a ∈ l, marked a = true → matched a = true :=
        fun a ha => himp a (List.mem_cons_of_mem b ha)
      cases hmark : marked b with
      | true => simp [himp b List.mem_cons_self hmark, hmark]
      | false =>
          cases hmatch : matched b with
          | true => simp [hmatch, hmark]
          | false =>
              rw [List.find?_cons_of_neg (by simp [hmatch]), ih hrest]
              simp [hmark, hmatch]

/-- The loop finds nothing but `t` exactly if the pid is not shared. -/
theorem exitFound_eq_iff {e : Executor τ} {pid : Pid} {t : TaskPtr} {desc : TaskDesc τ}
    (hdesc : e.heap t = some desc) (hpid : desc.pid = pid) :
    (∀ q, exitFound e pid = some q → q = t) ↔ PidUnshared e pid t := by
  have hown : ∀ entry ∈ e.all, decide (entry.2.1 = t) = true →
      (entry.2.2.pid == pid) = true := by
    rintro ⟨taskId, q, desc'⟩ hmem hq
    obtain ⟨-, hdesc'⟩ := mem_all.1 hmem
    have hqt : q = t := of_decide_eq_true hq
    rw [hqt, hdesc] at hdesc'
    cases hdesc'
    exact beq_iff_eq.2 hpid
  have hfind := find?_marked_iff (fun entry : UInt64 × TaskPtr × TaskDesc τ => entry.2.2.pid == pid)
    (fun entry => decide (entry.2.1 = t)) e.all hown
  have hleft : (∀ q, exitFound e pid = some q → q = t) ↔
      ∀ entry, e.all.find? (fun entry => entry.2.2.pid == pid) = some entry →
        decide (entry.2.1 = t) = true := by
    unfold exitFound
    constructor
    · intro hq entry hentry
      exact decide_eq_true (hq entry.2.1 (by rw [hentry]; rfl))
    · intro hentry q hq
      obtain ⟨entry, hfound, rfl⟩ := Option.map_eq_some_iff.1 hq
      exact of_decide_eq_true (hentry entry hfound)
  rw [hleft, hfind, PidUnshared]
  simp only [ne_eq, decide_not, beq_eq_false_iff_ne]

/-- While `t` is in `tasks_`, the loop finds something. -/
theorem exitFound_ne_none {e : Executor τ} {pid : Pid} {t : TaskPtr} {desc : TaskDesc τ}
    {taskId : UInt64} (hlook : e.tasks.lookup taskId = some t) (hdesc : e.heap t = some desc)
    (hpid : desc.pid = pid) : exitFound e pid ≠ none := by
  intro hnone
  rw [exitFound, Option.map_eq_none_iff, List.find?_eq_none] at hnone
  exact hnone _ (mem_all.2 ⟨hlook, hdesc⟩) (beq_iff_eq.2 hpid)

/-- **A callback finds its task exactly if no entry before it has the pid.**  In every run, the
callback for the child of `t` completes `t` if it is still in `tasks_`, and leaves every other task
alone, exactly if no entry that the loop visits before that of `t` has the pid of the child. -/
theorem exit_reaches_own_task_iff (flags : ExecutorFlags) (numCpuCores : UInt64)
    (events : List (HostEvent τ)) (thread : ℕ) (pid : Pid) (t : TaskPtr) (now : TimePoint)
    (hexit : ((host τ).run (.init τ flags numCpuCores) events).exits[thread]? =
      some ⟨pid, some t⟩) :
    ReachesOwnTask ((host τ).run (.init τ flags numCpuCores) events) thread now t ↔
      PidUnshared ((host τ).run (.init τ flags numCpuCores) events).executor pid t := by
  set h := (host τ).run (.init τ flags numCpuCores) events
  have hs : h.Sound := sound_run flags numCpuCores events
  obtain ⟨desc, hdesc, hpid⟩ := hs.exit _ (List.mem_of_getElem? hexit) t rfl
  obtain ⟨hfound, -, -, -, hheap⟩ := onExitCallback_spec h.executor pid now
  have hcompleting : ((host τ).next h (.onExitCallback thread now)).completing =
      h.completing ++ (exitFound h.executor pid).toList := by
    simp only [host_next, hostStep, hexit, hfound]
  have hobjects : ∀ q, ((host τ).next h (.onExitCallback thread now)).executor.heap q =
      if exitFound h.executor pid = some q then
        (h.executor.heap q).map fun desc => { desc with completedTp := now, isRunning := false }
      else h.executor.heap q := by
    intro q
    simp only [host_next, hostStep, hexit, hheap q]
  rw [← exitFound_eq_iff hdesc hpid]
  constructor
  · -- what is found is reported as completed
    intro hreach q hq
    rcases hreach.uncompleted with hsame | hadded
    · rw [hcompleting, hq] at hsame
      exact absurd hsame (by simp)
    · rw [hcompleting, hq] at hadded
      simpa using hadded
  · intro hunshared
    refine ⟨fun taskId hlook => ?_, fun q hq => ?_, ?_⟩
    · obtain ⟨q, hq⟩ := Option.ne_none_iff_exists'.1 (exitFound_ne_none hlook hdesc hpid)
      have hqt := hunshared q hq
      subst hqt
      rw [hobjects, if_pos hq, hcompleting, hq]
      exact ⟨rfl, rfl⟩
    · rw [hobjects, if_neg fun hfq => hq (hunshared q hfq)]
    · cases hq : exitFound h.executor pid with
      | none =>
          refine Or.inl ?_
          rw [hcompleting, hq]
          exact List.append_nil _
      | some q =>
          refine Or.inr ?_
          rw [hcompleting, hq, hunshared q hq]
          rfl

/-- A compile ends, and the next one gets the same pid and ends as well. -/
def reuseEvents : List (HostEvent Unit) :=
  [.tryQueueTask 7 () 10 100 0, .waiterProc, .waiterProc, .waiterProc, .reap 0, .onExitCallback 0 0,
    .reportCompletion 0, .tryQueueTask 8 () 10 100 0, .waiterProc, .waiterProc, .waiterProc, .reap 0]

/-- When the newer entry is visited first, the callback finds it. -/
theorem exit_reaches_newer_task :
    ((host Unit).run (.init Unit (sampleFlags 1) 8) reuseEvents).exits[0]? =
        some ⟨100, some 1⟩ ∧
      ReachesOwnTask ((host Unit).run (.init Unit (sampleFlags 1) 8) reuseEvents) 0 0 1 :=
  ⟨by decide,
    (exit_reaches_own_task_iff (sampleFlags 1) 8 reuseEvents 0 100 1 0 (by decide)).2 (by decide)⟩

/-- A compile ends, and before its callback runs the next one gets the same pid. -/
def collisionEvents : List (HostEvent Unit) :=
  [.tryQueueTask 7 () 10 100 0, .waiterProc, .waiterProc, .waiterProc, .reap 0,
    .tryQueueTask 8 () 10 100 0]

/-- **The callback may complete another task**: here one that has just been started, while the
compile that has ended stays marked as running. -/
theorem exit_reaches_other_task :
    ¬∀ (flags : ExecutorFlags) (numCpuCores : UInt64) (events : List (HostEvent Unit)) (thread : ℕ)
      (pid : Pid) (t : TaskPtr) (now : TimePoint),
      ((host Unit).run (.init Unit flags numCpuCores) events).exits[thread]? =
        some ⟨pid, some t⟩ →
      ReachesOwnTask ((host Unit).run (.init Unit flags numCpuCores) events) thread now t := by
  intro hall
  have hreach := hall (sampleFlags 2) 8 collisionEvents 0 100 0 0 (by decide)
  have hcompleted := (hreach.own 1 (by decide)).2
  exact absurd hcompleted (by decide)

end Cloud
