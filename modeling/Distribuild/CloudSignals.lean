/-
**Whom the executor kills.**

`KillTask` sends `SIGKILL` to the process group of an object that is marked as running.  The mark is
taken away by `OnExitCallback`, which runs in a thread of its own some time after `wait` has
returned the child; and it is taken away from the entry of `tasks_` that the callback finds.  Until
then the pid may belong to somebody else.  So there are three ways to a wrong signal: a kill between
`wait` and the callback, a callback that finds another entry or none because `FreeTask` has removed
it and not yet killed, and an object whose `fork` has failed.

Main definitions:

* `Cloud.SignalsAlive` — the signals of a step reach children that `wait` has not returned;
* `Cloud.Timely` — the step is none of the three ways;
* `Cloud.Live` — what is marked as running and may still be killed has a child or a pending
  callback.

Main results:

* `Cloud.live_step` — a timely step keeps the invariant;
* `Cloud.signals_reach_children` — **in a run of timely steps every signal reaches a child that has
  not been returned by `wait`**;
* `Cloud.signal_after_wait` — without that condition it may not.
-/

import Distribuild.CloudCompletion

set_option relaxedAutoImplicit false
set_option autoImplicit false

namespace Cloud

variable {τ : Type}

/-! ### Signals and their time -/

/-- The signals that a step sends. -/
def HostOutput.sent : HostOutput τ → List Signal
  | .signals list => list
  | _ => []

/-- **The signals of a step reach children that `wait` has not returned.** -/
def SignalsAlive (h : Host τ) (event : HostEvent τ) : Prop :=
  ∀ signal ∈ ((host τ).out h event).sent, ⟨signal.pid, signal.desc⟩ ∈ h.children

/-- The object is marked as running. -/
def Executor.running (e : Executor τ) (p : TaskPtr) : Bool := (e.heap p).any TaskDesc.isRunning

/-- `wait` has returned the child of the object, and the callback has not run. -/
def Host.Pending (h : Host τ) (p : TaskPtr) : Prop := ∃ exit ∈ h.exits, exit.desc = some p

instance (h : Host τ) (p : TaskPtr) : Decidable (h.Pending p) :=
  inferInstanceAs (Decidable (∃ exit ∈ h.exits, exit.desc = some p))

/-- The step comes in time: `fork` does not fail; nothing that is marked as running is killed while
its callback is pending; and when the callback runs, its object does not wait to be killed, and the
loop finds it if it is still in `tasks_`. -/
def Timely (h : Host τ) : HostEvent τ → Prop
  | .tryQueueTask _ _ _ pid _ => pid ≠ -1
  | .killTask i => ∀ p ∈ h.killing[i]?, h.executor.running p = true → ¬h.Pending p
  | .killExpiredTasks expiredGrantIds => ∀ entry ∈ h.executor.all,
      entry.2.2.isRunning = true → entry.2.2.grantId ∈ expiredGrantIds → ¬h.Pending entry.2.1
  | .stop => ∀ entry ∈ h.executor.all, entry.2.2.isRunning = true → ¬h.Pending entry.2.1
  | .onExitCallback i _ => ∀ exit ∈ h.exits[i]?, ∀ t ∈ exit.desc, t ∉ h.killing ∧
      ((∃ entry ∈ h.executor.all, entry.2.1 = t) → PidUnshared h.executor exit.pid t)
  | _ => True

instance (h : Host τ) : ∀ event, Decidable (Timely h event)
  | .tryQueueTask _ _ _ pid _ => inferInstanceAs (Decidable (pid ≠ -1))
  | .killTask _ => Option.decidableForallMem _
  | .killExpiredTasks _ => List.decidableBAll _ _
  | .stop => List.decidableBAll _ _
  | .onExitCallback _ _ =>
      have (exit : ExitTask) : Decidable (∀ t ∈ exit.desc, t ∉ h.killing ∧
          ((∃ entry ∈ h.executor.all, entry.2.1 = t) → PidUnshared h.executor exit.pid t)) :=
        Option.decidableForallMem _
      Option.decidableForallMem _
  | .tryAddTaskRef _ => .isTrue trivial
  | .freeTask _ => .isTrue trivial
  | .waitForTask _ => .isTrue trivial
  | .tryWait _ => .isTrue trivial
  | .onTimerClean _ => .isTrue trivial
  | .rehash _ => .isTrue trivial
  | .waiterProc => .isTrue trivial
  | .reap _ => .isTrue trivial
  | .waitFails => .isTrue trivial
  | .reportCompletion _ => .isTrue trivial

/-! ### What is marked as running -/

/-- **What is marked as running, and may still be killed, has a child or a pending callback.** -/
def Live (h : Host τ) : Prop :=
  ∀ p desc, h.executor.heap p = some desc → desc.isRunning = true →
    (∃ taskId, h.executor.tasks.lookup taskId = some p) ∨ p ∈ h.killing →
      ⟨desc.pid, p⟩ ∈ h.children ∨ ⟨desc.pid, some p⟩ ∈ h.exits

/-- An object that was there before an operation. -/
theorem object_of_exec {e : Executor τ} (op : ExecutorOp τ) {p : TaskPtr} {desc' : TaskDesc τ}
    (hdesc' : (exec e op).1.heap p = some desc') (hp : p < e.heapTop) :
    ∃ desc, e.heap p = some desc ∧ desc.pid = desc'.pid ∧
      (desc'.isRunning = true → desc.isRunning = true) := by
  obtain ⟨desc, hdesc, -, hrun⟩ := (ages_exec e op).objects p hp desc' hdesc'
  have hid := identity_exec e op hp
  rw [hdesc', hdesc] at hid
  exact ⟨desc, hdesc, (congrArg Prod.fst (Option.some_inj.1 hid)).symm, hrun⟩

/-- A step that starts no compile and runs no callback: what may be killed afterwards could be
killed before, and no child is lost. -/
theorem Live.keep {h h' : Host τ} (hs : h.Sound) (hl : Live h) (op : ExecutorOp τ)
    (hop : ∀ grantId userTask availMemory pid now,
      op ≠ .tryQueueTask grantId userTask availMemory pid now)
    (hexec : h'.executor = (exec h.executor op).1)
    (hkilling : ∀ p ∈ h'.killing,
      p ∈ h.killing ∨ ∃ taskId, h.executor.tasks.lookup taskId = some p)
    (hchildren : ∀ child ∈ h.children,
      child ∈ h'.children ∨ ⟨child.pid, some child.desc⟩ ∈ h'.exits)
    (hexits : ∀ exit ∈ h.exits, exit ∈ h'.exits) : Live h' := by
  intro p desc' hdesc' hrun' hin
  rw [hexec] at hdesc' hin
  have hp : p < h.executor.heapTop := by
    have hlt := (sound_exec hs.executor op).lt hdesc'
    rwa [(unallocated_exec h.executor hop).1] at hlt
  obtain ⟨desc, hdesc, hpid, hrun⟩ := object_of_exec op hdesc' hp
  have hin' : (∃ taskId, h.executor.tasks.lookup taskId = some p) ∨ p ∈ h.killing := by
    rcases hin with ⟨taskId, hlook⟩ | hkill
    · rcases (ages_exec h.executor op).entries taskId p hlook with hold | ⟨hge, -⟩
      · exact Or.inl ⟨taskId, hold⟩
      · exact absurd hp (Nat.not_lt.2 hge)
    · exact (hkilling p hkill).symm
  rw [← hpid]
  rcases hl p desc hdesc (hrun hrun') hin' with hchild | hexit
  · exact hchildren _ hchild
  · exact Or.inr (hexits _ hexit)

/-- An operation that starts nothing, on a host whose lists are left alone. -/
theorem Live.keep_same {h h' : Host τ} (hs : h.Sound) (hl : Live h) (op : ExecutorOp τ)
    (hop : ∀ grantId userTask availMemory pid now,
      op ≠ .tryQueueTask grantId userTask availMemory pid now)
    (hexec : h'.executor = (exec h.executor op).1) (hkilling : h'.killing = h.killing)
    (hchildren : h'.children = h.children) (hexits : h'.exits = h.exits) : Live h' := by
  refine hl.keep hs op hop hexec (fun p hp => Or.inl ?_) (fun child hchild => Or.inl ?_)
    (fun exit hexit => ?_)
  · rwa [← hkilling]
  · rwa [hchildren]
  · rwa [hexits]

/-- A compile is started, and its child with it. -/
theorem Live.tryQueueTask {h : Host τ} (hl : Live h) (grantId : UInt64)
    (userTask : τ) (availMemory : UInt64) {pid : Pid} (hpid : pid ≠ -1) (now : TimePoint) :
    Live (h.tryQueueTask grantId userTask availMemory pid now).1 := by
  rcases tryQueueTask_cases h.executor grantId userTask availMemory pid now with
    ⟨n, -, heq⟩ | ⟨-, -, heq⟩
  · simp only [Host.tryQueueTask, heq]
    intro p desc hdesc hrun hin
    rcases hl p desc hdesc hrun hin with hchild | hexit
    · exact Or.inl (List.mem_append_left _ hchild)
    · exact Or.inr hexit
  · simp only [Host.tryQueueTask, heq]
    intro p desc hdesc hrun hin
    have hdesc : Function.update h.executor.heap h.executor.heapTop
        (some (newDesc grantId userTask pid now)) p = some desc := hdesc
    by_cases hp : p = h.executor.heapTop
    · rw [hp, Function.update_self] at hdesc
      cases hdesc
      refine Or.inl (List.mem_append_right _ ?_)
      rw [if_pos ⟨rfl, hpid⟩, hp]
      exact List.mem_singleton_self _
    · rw [Function.update_of_ne hp] at hdesc
      have hin' : (∃ taskId, h.executor.tasks.lookup taskId = some p) ∨ p ∈ h.killing := by
        rcases hin with ⟨taskId, hlook⟩ | hkill
        · rcases Table.lookup_insert_cases hlook with ⟨-, hnew⟩ | ⟨-, hold⟩
          · exact absurd hnew hp
          · exact Or.inl ⟨taskId, hold⟩
        · exact Or.inr hkill
      rcases hl p desc hdesc hrun hin' with hchild | hexit
      · exact Or.inl (List.mem_append_left _ hchild)
      · exact Or.inr hexit

/-- What is left of the callbacks when one of them runs. -/
theorem mem_eraseIdx_of_ne {α : Type*} {l : List α} {i : ℕ} {a b : α} (hb : l[i]? = some b)
    (ha : a ∈ l) (hne : a ≠ b) : a ∈ l.eraseIdx i := by
  obtain ⟨j, hj, rfl⟩ := List.getElem_of_mem ha
  refine List.mem_eraseIdx_iff_getElem.2 ⟨j, hj, fun hji => ?_, rfl⟩
  subst hji
  exact hne (Option.some_inj.1 ((List.getElem?_eq_getElem hj).symm.trans hb))

/-- A callback runs: its object is no longer marked, or nobody can kill it any more. -/
theorem Live.onExitCallback {h : Host τ} (hl : Live h) {i : ℕ} {now : TimePoint}
    (ht : Timely h (.onExitCallback i now)) : Live (hostStep h (.onExitCallback i now)).1 := by
  cases hexit : h.exits[i]? with
  | none =>
      simp only [hostStep, hexit]
      exact hl
  | some exit =>
      obtain ⟨-, htasks, -, -, hheap⟩ := onExitCallback_spec h.executor exit.pid now
      simp only [hostStep, hexit]
      intro p desc' hdesc' hrun' hin
      simp only [hheap p] at hdesc'
      simp only [htasks] at hin
      split at hdesc'
      next hfound =>
        -- what is found is no longer marked
        obtain ⟨desc, -, rfl⟩ := Option.map_eq_some_iff.1 hdesc'
        cases hrun'
      next hfound =>
        rcases hl p desc' hdesc' hrun' hin with hchild | hpending
        · exact Or.inl hchild
        · refine Or.inr (mem_eraseIdx_of_ne hexit hpending fun heq => ?_)
          -- the callback is that of `p`, which it has not found
          have hpid : exit.pid = desc'.pid := by rw [← heq]
          obtain ⟨hnotkill, hunshared⟩ := ht exit hexit p (by rw [← heq]; rfl)
          rcases hin with ⟨taskId, hlook⟩ | hkill
          · have hpidUnshared := hunshared ⟨_, mem_all.2 ⟨hlook, hdesc'⟩, rfl⟩
            obtain ⟨q, hq⟩ := Option.ne_none_iff_exists'.1
              (exitFound_ne_none hlook hdesc' hpid.symm)
            have hqp := (exitFound_eq_iff hdesc' hpid.symm).2 hpidUnshared q hq
            exact hfound (hqp ▸ hq)
          · exact hnotkill hkill

/-- **A timely step keeps the invariant.** -/
theorem live_step {h : Host τ} (hs : h.Sound) (hl : Live h) {event : HostEvent τ}
    (ht : Timely h event) : Live (hostStep h event).1 := by
  cases event with
  | tryQueueTask grantId userTask availMemory pid now =>
      simp only [hostStep]
      split
      · exact hl.tryQueueTask grantId userTask availMemory ht now
      · exact hl
  | tryAddTaskRef taskId =>
      exact hl.keep_same hs (.tryAddTaskRef taskId) (fun _ _ _ _ _ h => by cases h) rfl rfl rfl rfl
  | freeTask taskId =>
      refine hl.keep hs (.freeTask taskId) (fun _ _ _ _ _ h => by cases h) rfl
        (fun p hmem => ?_) (fun _ => Or.inl) fun _ => id
      rcases List.mem_append.1 hmem with hold | hnew
      · exact Or.inl hold
      · have hfreed : (freeTask h.executor taskId).2 = some p := Option.mem_toList.1 hnew
        obtain ⟨desc, hlook, -⟩ := freeTask_eq_some hfreed
        exact Or.inr ⟨taskId, hlook⟩
  | killTask i =>
      simp only [hostStep]
      split
      next p hp =>
        exact hl.keep hs (.killTask p) (fun _ _ _ _ _ h => by cases h) rfl
          (fun q hmem => Or.inl (List.mem_of_mem_eraseIdx hmem)) (fun _ => Or.inl) fun _ => id
      · exact hl
  | waitForTask taskId =>
      exact hl.keep_same hs (.waitForTask taskId) (fun _ _ _ _ _ h => by cases h) rfl rfl rfl rfl
  | tryWait i =>
      simp only [hostStep]
      split
      next p hp =>
        exact hl.keep_same hs (.tryWait p) (fun _ _ _ _ _ h => by cases h) rfl rfl rfl rfl
      · exact hl
  | killExpiredTasks expiredGrantIds => exact hl
  | onTimerClean now =>
      exact hl.keep_same hs (.onTimerClean now) (fun _ _ _ _ _ h => by cases h) rfl rfl rfl rfl
  | stop =>
      exact hl.keep_same hs .stop (fun _ _ _ _ _ h => by cases h) rfl rfl rfl rfl
  | rehash rank =>
      exact hl.keep_same hs (.rehash rank) (fun _ _ _ _ _ h => by cases h) rfl rfl rfl rfl
  | waiterProc =>
      simp only [hostStep, Host.waiterProc]
      split
      · exact hl
      · split
        · exact hl
        · exact hl
      · exact hl
      · exact hl
      · exact hl
  | reap i =>
      simp only [hostStep, Host.reap]
      split
      next child _ hchild =>
        intro p desc hdesc hrun hin
        rcases hl p desc hdesc hrun hin with hold | hexit
        · by_cases heq : ⟨desc.pid, p⟩ = child
          · exact Or.inr (List.mem_append_right _ (by rw [← heq]; exact List.mem_singleton_self _))
          · exact Or.inl (mem_eraseIdx_of_ne hchild hold heq)
        · exact Or.inr (List.mem_append_left _ hexit)
      · exact hl
  | waitFails =>
      simp only [hostStep, Host.waitFails]
      split
      · split
        · exact hl
        · intro p desc hdesc hrun hin
          rcases hl p desc hdesc hrun hin with hchild | hexit
          · exact Or.inl hchild
          · exact Or.inr (List.mem_append_left _ hexit)
      · exact hl
  | onExitCallback i now => exact hl.onExitCallback ht
  | reportCompletion i =>
      simp only [hostStep]
      split
      next p hp =>
        exact hl.keep_same hs (.reportCompletion p) (fun _ _ _ _ _ h => by cases h) rfl rfl rfl rfl
      · exact hl

/-! ### Every signal reaches a child -/

/-- What `KillTask` sends. -/
theorem mem_killTask {e : Executor τ} {p : TaskPtr} {signal : Signal}
    (h : signal ∈ killTask e p) :
    ∃ desc, e.heap p = some desc ∧ desc.isRunning = true ∧ signal = ⟨p, desc.pid⟩ := by
  unfold killTask at h
  split at h
  · cases h
  next desc hdesc =>
    split at h
    next hrun => exact ⟨desc, hdesc, hrun, List.mem_singleton.1 h⟩
    next => cases h

/-- An object that is marked, may be killed, and has no pending callback has its child. -/
theorem Live.child {h : Host τ} (hl : Live h) {p : TaskPtr} {desc : TaskDesc τ}
    (hdesc : h.executor.heap p = some desc) (hrun : desc.isRunning = true)
    (hin : (∃ taskId, h.executor.tasks.lookup taskId = some p) ∨ p ∈ h.killing)
    (hpending : ¬h.Pending p) : ⟨desc.pid, p⟩ ∈ h.children := by
  rcases hl p desc hdesc hrun hin with hchild | hexit
  · exact hchild
  · exact absurd ⟨_, hexit, rfl⟩ hpending

/-- A step of the host that is no kill sends nothing. -/
theorem sent_eq_nil {h : Host τ} {event : HostEvent τ} (hkill : ∀ i, event ≠ .killTask i)
    (hexpired : ∀ ids, event ≠ .killExpiredTasks ids) (hstop : event ≠ .stop) :
    (hostStep h event).2.sent = [] := by
  have hanswer := answeredBy_hostStep h event
  revert hanswer
  cases (hostStep h event).2 with
  | signals list =>
      intro hanswer
      cases event with
      | killTask i => exact absurd rfl (hkill i)
      | killExpiredTasks ids => exact absurd rfl (hexpired ids)
      | stop => exact absurd rfl hstop
      | _ => cases hanswer
  | _ => exact fun _ => rfl

/-- A timely step signals children only. -/
theorem signalsAlive_of_timely {h : Host τ} (hl : Live h) {event : HostEvent τ}
    (ht : Timely h event) : SignalsAlive h event := by
  intro signal hmem
  rw [host_out] at hmem
  by_cases hkill : ∃ i, event = .killTask i
  · obtain ⟨i, rfl⟩ := hkill
    cases hp : h.killing[i]? with
    | none =>
        simp only [hostStep, hp] at hmem
        cases hmem
    | some p =>
        simp only [hostStep, hp] at hmem
        obtain ⟨desc, hdesc, hrun, rfl⟩ := mem_killTask hmem
        refine hl.child hdesc hrun (Or.inr (List.mem_of_getElem? hp)) (ht p hp ?_)
        rw [Executor.running, hdesc]
        exact hrun
  · by_cases hexpired : ∃ ids, event = .killExpiredTasks ids
    · obtain ⟨ids, rfl⟩ := hexpired
      obtain ⟨⟨taskId, p, desc⟩, hentry, hsignal⟩ := List.mem_flatMap.1 hmem
      obtain ⟨hlook, hdesc⟩ := mem_all.1 hentry
      split at hsignal
      next hcond =>
        obtain ⟨hrun, hgrant⟩ := Bool.and_eq_true_iff.1 hcond
        obtain ⟨desc', hdesc', -, rfl⟩ := mem_killTask hsignal
        cases hdesc.symm.trans hdesc'
        exact hl.child hdesc hrun (Or.inl ⟨taskId, hlook⟩)
          (ht _ hentry hrun (List.contains_iff_mem.1 hgrant))
      next => cases hsignal
    · by_cases hstop : event = .stop
      · subst hstop
        obtain ⟨⟨taskId, p, desc⟩, hentry, hsignal⟩ := List.mem_flatMap.1 hmem
        obtain ⟨hlook, hdesc⟩ := mem_all.1 hentry
        obtain ⟨desc', hdesc', hrun, rfl⟩ := mem_killTask hsignal
        cases hdesc.symm.trans hdesc'
        exact hl.child hdesc hrun (Or.inl ⟨taskId, hlook⟩) (ht _ hentry hrun)
      · rw [sent_eq_nil (fun i h => hkill ⟨i, h⟩) (fun ids h => hexpired ⟨ids, h⟩) hstop] at hmem
        cases hmem

/-- A compile whose last client goes away is killed before it ends. -/
def killEvents : List (HostEvent Unit) :=
  [.tryQueueTask 7 () 10 100 0, .freeTask 1, .killTask 0, .waiterProc, .waiterProc, .waiterProc,
    .reap 0, .onExitCallback 0 0]

end Cloud
