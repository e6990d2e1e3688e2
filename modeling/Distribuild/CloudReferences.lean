/-
**References to a compile.**

Several clients may wait for one compile.  The first comes with `TryQueueTask`, the others with
`TryAddTaskRef`, and each leaves with `FreeTask`; the last one takes the entry away and kills the
process.  `OnTimerClean` takes away entries of compiles that ended a minute ago, however many
references there are.

The count is compared with the history of the entry: with the calls on its id since it was made.
Before that, `FreeTask` on the same id finds nothing and has no effect.

Main definitions:

* `Cloud.since` — the part of a history since an entry was made;
* `Cloud.addedReferences`, `Cloud.freedReferences` — the calls in it;
* `Cloud.FewReferences` — no entry is ever referred to `2 ^ 32` times;
* `Cloud.Referenced` — the counts agree with the history.

Main results:

* `Cloud.referenced_run` — **every count is what the history says, and what is to be killed has
  none**;
* `Cloud.leaves_tasks` — how an entry may leave `tasks_`;
* `Cloud.references_counted` — **an entry leaves with its last reference or when it is stale**, as
  long as fewer than `2 ^ 64` compiles have been asked for.
-/

import Distribuild.CloudProcesses

set_option relaxedAutoImplicit false
set_option autoImplicit false

namespace Cloud

variable {τ : Type}

/-! ### The history of an entry -/

/-- The step made an entry with this id. -/
def HostOutput.creates (taskId : UInt64) : HostOutput τ → Bool
  | .queued (some id) => id == taskId
  | _ => false

/-- The step was a successful `TryAddTaskRef` on this id. -/
def addsReference (taskId : UInt64) : HostEvent τ × HostOutput τ → Bool
  | (.tryAddTaskRef id, .added true) => id == taskId
  | _ => false

/-- The step was a `FreeTask` on this id. -/
def freesReference (taskId : UInt64) : HostEvent τ × HostOutput τ → Bool
  | (.freeTask id, _) => id == taskId
  | _ => false

/-- The part of a history since the entry with this id was made. -/
def since (taskId : UInt64) (tr : List (HostEvent τ × HostOutput τ)) :
    List (HostEvent τ × HostOutput τ) :=
  tr.foldl (fun part e => if e.2.creates taskId then [] else part ++ [e]) []

/-- The successful `TryAddTaskRef` calls on an id since its entry was made. -/
def addedReferences (taskId : UInt64) (tr : List (HostEvent τ × HostOutput τ)) : ℕ :=
  (since taskId tr).countP (addsReference taskId)

/-- The `FreeTask` calls on an id since its entry was made. -/
def freedReferences (taskId : UInt64) (tr : List (HostEvent τ × HostOutput τ)) : ℕ :=
  (since taskId tr).countP (freesReference taskId)

theorem since_concat (taskId : UInt64) (tr : List (HostEvent τ × HostOutput τ))
    (e : HostEvent τ × HostOutput τ) :
    since taskId (tr ++ [e]) = if e.2.creates taskId then [] else since taskId tr ++ [e] := by
  simp [since]

/-- A new entry begins with an empty history. -/
theorem references_of_creates {taskId : UInt64} (tr : List (HostEvent τ × HostOutput τ))
    (e : HostEvent τ × HostOutput τ) (h : e.2.creates taskId = true) :
    addedReferences taskId (tr ++ [e]) = 0 ∧ freedReferences taskId (tr ++ [e]) = 0 := by
  simp [addedReferences, freedReferences, since_concat, h]

theorem addedReferences_concat {taskId : UInt64} {tr : List (HostEvent τ × HostOutput τ)}
    {e : HostEvent τ × HostOutput τ} (h : e.2.creates taskId = false) :
    addedReferences taskId (tr ++ [e]) =
      addedReferences taskId tr + if addsReference taskId e then 1 else 0 := by
  simp [addedReferences, since_concat, h, List.countP_append, List.countP_cons]

theorem freedReferences_concat {taskId : UInt64} {tr : List (HostEvent τ × HostOutput τ)}
    {e : HostEvent τ × HostOutput τ} (h : e.2.creates taskId = false) :
    freedReferences taskId (tr ++ [e]) =
      freedReferences taskId tr + if freesReference taskId e then 1 else 0 := by
  simp [freedReferences, since_concat, h, List.countP_append, List.countP_cons]

/-- No entry is ever referred to `2 ^ 32` times: not after any part of the run. -/
def FewReferences (flags : ExecutorFlags) (numCpuCores : UInt64) (events : List (HostEvent τ)) :
    Prop :=
  ∀ before after, events = before ++ after →
    ∀ taskId ∈ ((host τ).run (.init τ flags numCpuCores) before).executor.tasks,
      1 + addedReferences taskId ((host τ).trace (.init τ flags numCpuCores) before) <
        2 ^ 32 + freedReferences taskId ((host τ).trace (.init τ flags numCpuCores) before)

/-! ### What changes a count -/

/-- The operations that neither make objects nor count references. -/
def ExecutorOp.keepsReferences : ExecutorOp τ → Bool
  | .tryQueueTask .. => false
  | .tryAddTaskRef _ => false
  | .freeTask _ => false
  | _ => true

theorem refCount_exec {e : Executor τ} {op : ExecutorOp τ} (hop : op.keepsReferences = true)
    (p : TaskPtr) :
    ((exec e op).1.heap p).map TaskDesc.refCount = (e.heap p).map TaskDesc.refCount := by
  cases op with
  | tryQueueTask grantId userTask availMemory pid now => cases hop
  | tryAddTaskRef taskId => cases hop
  | freeTask taskId => cases hop
  | tryWait q =>
      simp only [exec, tryWait]
      split
      · split
        · exact field_modifyDesc _ e q p fun _ => rfl
        · rfl
      · rfl
  | onExitCallback pid now =>
      simp only [exec, (onExitCallback_spec e pid now).2.2.2.2 p]
      split
      · rw [Option.map_map]
        rfl
      · rfl
  | reportCompletion q => exact field_modifyDesc _ e q p fun _ => rfl
  | _ => rfl

/-- They make no entries either. -/
theorem lookup_of_exec {e : Executor τ} (hs : e.Sound) {op : ExecutorOp τ}
    (hop : op.keepsReferences = true) {taskId : UInt64} {p : TaskPtr}
    (h : (exec e op).1.tasks.lookup taskId = some p) : e.tasks.lookup taskId = some p := by
  rcases (ages_exec e op).entries taskId p h with hold | ⟨hge, -⟩
  · exact hold
  · obtain ⟨desc, hdesc⟩ := (sound_exec hs op).filed taskId p h
    have hcount := refCount_exec hop p (e := e)
    rw [hdesc, hs.top p hge] at hcount
    cases hcount

/-- **The counts agree with the history.** -/
structure Referenced (tr : List (HostEvent τ × HostOutput τ)) (h : Host τ) : Prop where
  count : ∀ taskId p desc, h.executor.tasks.lookup taskId = some p →
    h.executor.heap p = some desc →
      desc.refCount.toNat + freedReferences taskId tr = 1 + addedReferences taskId tr
  pos : ∀ taskId p desc, h.executor.tasks.lookup taskId = some p →
    h.executor.heap p = some desc → desc.refCount ≠ 0
  /-- What is to be killed has no references left. -/
  killing : ∀ p desc, p ∈ h.killing → h.executor.heap p = some desc → desc.refCount = 0

theorem referenced_init (flags : ExecutorFlags) (numCpuCores : UInt64) :
    Referenced [] (Host.init τ flags numCpuCores) where
  count := fun _ _ _ hlook => by cases hlook
  pos := fun _ _ _ hlook => by cases hlook
  killing := fun _ _ hmem => by cases hmem

/-- A step that changes no count and makes no entry, and is not about references. -/
theorem Referenced.congr {tr : List (HostEvent τ × HostOutput τ)} {h h' : Host τ}
    (hr : Referenced tr h) {e : HostEvent τ × HostOutput τ}
    (hcounts : ∀ p, (h'.executor.heap p).map TaskDesc.refCount =
      (h.executor.heap p).map TaskDesc.refCount)
    (hentries : ∀ taskId p, h'.executor.tasks.lookup taskId = some p →
      h.executor.tasks.lookup taskId = some p)
    (hkilling : ∀ p ∈ h'.killing, p ∈ h.killing)
    (hcreates : ∀ taskId, e.2.creates taskId = false)
    (hadds : ∀ taskId, addsReference taskId e = false)
    (hfrees : ∀ taskId, freesReference taskId e = false) : Referenced (tr ++ [e]) h' := by
  have hobject : ∀ p desc', h'.executor.heap p = some desc' →
      ∃ desc, h.executor.heap p = some desc ∧ desc.refCount = desc'.refCount := by
    intro p desc' hdesc'
    have hcount := hcounts p
    rw [hdesc'] at hcount
    exact Option.map_eq_some_iff.1 hcount.symm
  refine ⟨fun taskId p desc' hlook hdesc' => ?_, fun taskId p desc' hlook hdesc' => ?_,
    fun p desc' hmem hdesc' => ?_⟩
  · obtain ⟨desc, hdesc, hcount⟩ := hobject p desc' hdesc'
    have hold := hr.count taskId p desc (hentries taskId p hlook) hdesc
    rw [addedReferences_concat (hcreates taskId), freedReferences_concat (hcreates taskId),
      hadds taskId, hfrees taskId, ← hcount]
    exact hold
  · obtain ⟨desc, hdesc, hcount⟩ := hobject p desc' hdesc'
    rw [← hcount]
    exact hr.pos taskId p desc (hentries taskId p hlook) hdesc
  · obtain ⟨desc, hdesc, hcount⟩ := hobject p desc' hdesc'
    rw [← hcount]
    exact hr.killing p desc (hkilling p hmem) hdesc

/-- A step that is not about references. -/
theorem Referenced.keep {tr : List (HostEvent τ × HostOutput τ)} {h : Host τ}
    (hr : Referenced tr h) (hs : h.Sound) {event : HostEvent τ}
    (hqueue : ∀ grantId userTask availMemory pid now,
      event ≠ .tryQueueTask grantId userTask availMemory pid now)
    (hadd : ∀ id, event ≠ .tryAddTaskRef id) (hfree : ∀ id, event ≠ .freeTask id) :
    Referenced (tr ++ [(event, (hostStep h event).2)]) (hostStep h event).1 := by
  have hop : ∀ op, h.operation event = some op → op.keepsReferences = true := by
    intro op hoper
    have hfrom := comesFrom_of_operation hoper
    cases op with
    | tryQueueTask grantId userTask availMemory pid now => exact absurd hfrom (hqueue _ _ _ _ _)
    | tryAddTaskRef id => exact absurd hfrom (hadd id)
    | freeTask id => exact absurd hfrom (hfree id)
    | _ => rfl
  have hcreates : ∀ taskId, (hostStep h event).2.creates taskId = false := by
    intro taskId
    have hanswer := answeredBy_hostStep h event
    revert hanswer
    cases (hostStep h event).2 with
    | queued r =>
        intro hanswer
        cases event with
        | tryQueueTask grantId userTask availMemory pid now => exact absurd rfl (hqueue _ _ _ _ _)
        | _ => cases hanswer
    | _ => exact fun _ => rfl
  have hadds : ∀ taskId, addsReference taskId (event, (hostStep h event).2) = false := by
    intro taskId
    cases event with
    | tryAddTaskRef id => exact absurd rfl (hadd id)
    | _ => rfl
  have hfrees : ∀ taskId, freesReference taskId (event, (hostStep h event).2) = false := by
    intro taskId
    cases event with
    | freeTask id => exact absurd rfl (hfree id)
    | _ => rfl
  refine hr.congr (fun p => ?_) (fun taskId p hlook => ?_) (killing_hostStep h hfree) hcreates hadds
    hfrees
  · rw [executor_hostStep]
    cases hoper : h.operation event with
    | none => rfl
    | some op => exact refCount_exec (hop op hoper) p
  · rw [executor_hostStep] at hlook
    cases hoper : h.operation event with
    | none =>
        rw [hoper] at hlook
        exact hlook
    | some op =>
        rw [hoper] at hlook
        exact lookup_of_exec hs.executor (hop op hoper) hlook

/-- A compile is started with one reference. -/
theorem Referenced.tryQueueTask {tr : List (HostEvent τ × HostOutput τ)} {h : Host τ}
    (hr : Referenced tr h) (hs : h.Sound) (grantId : UInt64) (userTask : τ)
    (availMemory : UInt64) (pid : Pid) (now : TimePoint) :
    Referenced (tr ++ [(.tryQueueTask grantId userTask availMemory pid now,
        (h.tryQueueTask grantId userTask availMemory pid now).2)])
      (h.tryQueueTask grantId userTask availMemory pid now).1 := by
  rcases tryQueueTask_cases h.executor grantId userTask availMemory pid now with
    ⟨n, -, heq⟩ | ⟨-, -, heq⟩
  · simp only [Host.tryQueueTask, heq]
    exact hr.congr (fun _ => rfl) (fun _ _ hlook => hlook) (fun _ hmem => hmem) (fun _ => rfl)
      (fun _ => rfl) fun _ => rfl
  · simp only [Host.tryQueueTask, heq]
    have hentry : ∀ taskId p, taskId ≠ h.executor.nextTaskId →
        (h.executor.tasks.insert h.executor.nextTaskId h.executor.heapTop).lookup taskId = some p →
          h.executor.tasks.lookup taskId = some p := by
      intro taskId p hid hlook
      rwa [AList.lookup_insert_ne hid] at hlook
    have hobject : ∀ p desc, p ≠ h.executor.heapTop →
        Function.update h.executor.heap h.executor.heapTop
          (some (newDesc grantId userTask pid now)) p = some desc →
            h.executor.heap p = some desc := by
      intro p desc hp hdesc
      rwa [Function.update_of_ne hp] at hdesc
    -- an old entry does not refer to the new object
    have hold : ∀ p desc, h.executor.heap p = some desc → p ≠ h.executor.heapTop :=
      fun p desc hdesc => Nat.ne_of_lt (hs.executor.lt hdesc)
    have hnew : ∀ p desc, (h.executor.tasks.insert h.executor.nextTaskId
        h.executor.heapTop).lookup h.executor.nextTaskId = some p →
        Function.update h.executor.heap h.executor.heapTop
          (some (newDesc grantId userTask pid now)) p = some desc → desc.refCount = 1 := by
      intro p desc hlook hdesc
      rw [AList.lookup_insert] at hlook
      rw [← Option.some_inj.1 hlook, Function.update_self] at hdesc
      cases hdesc
      rfl
    refine ⟨fun taskId p desc hlook hdesc => ?_, fun taskId p desc hlook hdesc => ?_,
      fun p desc hmem hdesc => ?_⟩
    · by_cases hid : taskId = h.executor.nextTaskId
      · subst hid
        have hcreates : (HostOutput.queued (some h.executor.nextTaskId) : HostOutput τ).creates
            h.executor.nextTaskId = true := beq_self_eq_true _
        obtain ⟨hadded, hfreed⟩ := references_of_creates tr
          (.tryQueueTask grantId userTask availMemory pid now, _) hcreates
        rw [hadded, hfreed, hnew p desc hlook hdesc]
        rfl
      · have hcreates : (HostOutput.queued (some h.executor.nextTaskId) : HostOutput τ).creates
            taskId = false := beq_eq_false_iff_ne.2 (Ne.symm hid)
        have hlook' := hentry taskId p hid hlook
        obtain ⟨desc₀, hdesc₀⟩ := hs.executor.filed taskId p hlook'
        have hdesc' := hobject p desc (hold p desc₀ hdesc₀) hdesc
        rw [addedReferences_concat hcreates, freedReferences_concat hcreates]
        exact hr.count taskId p desc hlook' hdesc'
    · by_cases hid : taskId = h.executor.nextTaskId
      · subst hid
        rw [hnew p desc hlook hdesc]
        decide
      · have hlook' := hentry taskId p hid hlook
        obtain ⟨desc₀, hdesc₀⟩ := hs.executor.filed taskId p hlook'
        exact hr.pos taskId p desc hlook' (hobject p desc (hold p desc₀ hdesc₀) hdesc)
    · obtain ⟨desc₀, hdesc₀⟩ := (hs.killing p hmem).1
      exact hr.killing p desc hmem (hobject p desc (hold p desc₀ hdesc₀) hdesc)

/-- One more client refers to a compile, and the count has room for it. -/
theorem Referenced.tryAddTaskRef {tr : List (HostEvent τ × HostOutput τ)} {h : Host τ}
    (hr : Referenced tr h) (hs : h.Sound) (id : UInt64)
    (hfew : ∀ p, h.executor.tasks.lookup id = some p →
      1 + (addedReferences id tr + 1) < 2 ^ 32 + freedReferences id tr) :
    Referenced (tr ++ [(.tryAddTaskRef id, (hostStep h (.tryAddTaskRef id)).2)])
      (hostStep h (.tryAddTaskRef id)).1 := by
  cases hid : h.executor.tasks.lookup id with
  | none =>
      simp only [hostStep, Cloud.tryAddTaskRef, hid]
      exact hr.congr (fun _ => rfl) (fun _ _ hlook => hlook) (fun _ hmem => hmem) (fun _ => rfl)
        (fun _ => rfl) fun _ => rfl
  | some q =>
      simp only [hostStep, Cloud.tryAddTaskRef, hid]
      have hother : ∀ p, p ≠ q → (h.executor.modifyDesc q fun desc =>
          { desc with refCount := desc.refCount + 1 }).heap p = h.executor.heap p := by
        intro p hp
        rw [heap_modifyDesc, if_neg hp]
      have hown : ∀ desc', (h.executor.modifyDesc q fun desc =>
          { desc with refCount := desc.refCount + 1 }).heap q = some desc' →
            ∃ desc, h.executor.heap q = some desc ∧ desc'.refCount = desc.refCount + 1 := by
        intro desc' hdesc'
        rw [heap_modifyDesc, if_pos rfl] at hdesc'
        obtain ⟨desc, hdesc, rfl⟩ := Option.map_eq_some_iff.1 hdesc'
        exact ⟨desc, hdesc, rfl⟩
      have hroom : ∀ desc, h.executor.heap q = some desc →
          (desc.refCount + 1).toNat = desc.refCount.toNat + 1 := by
        intro desc hdesc
        have hcount := hr.count id q desc hid hdesc
        have hbound := hfew q hid
        rw [UInt32.toNat_add, UInt32.toNat_one]
        exact Nat.mod_eq_of_lt (by omega)
      refine ⟨fun taskId p desc' hlook hdesc' => ?_, fun taskId p desc' hlook hdesc' => ?_,
        fun p desc' hmem hdesc' => ?_⟩
      · rw [addedReferences_concat rfl, freedReferences_concat rfl]
        by_cases hp : p = q
        · subst hp
          have htask : id = taskId := hs.executor.single id taskId p hid hlook
          subst htask
          obtain ⟨desc, hdesc, hcount⟩ := hown desc' hdesc'
          have hold := hr.count id p desc hid hdesc
          rw [hcount, hroom desc hdesc]
          simp only [addsReference, freesReference, beq_self_eq_true, if_true,
            Bool.false_eq_true, if_false]
          omega
        · have htask : id ≠ taskId := by
            rintro rfl
            exact hp (Option.some_inj.1 (hlook.symm.trans hid))
          rw [hother p hp] at hdesc'
          have hold := hr.count taskId p desc' hlook hdesc'
          simpa [addsReference, freesReference, htask] using hold
      · by_cases hp : p = q
        · subst hp
          obtain ⟨desc, hdesc, hcount⟩ := hown desc' hdesc'
          intro hzero
          have hnat := hroom desc hdesc
          rw [← hcount, hzero, UInt32.toNat_zero] at hnat
          omega
        · rw [hother p hp] at hdesc'
          exact hr.pos taskId p desc' hlook hdesc'
      · have hp : p ≠ q := fun heq => (hs.killing p hmem).2 id (heq ▸ hid)
        rw [hother p hp] at hdesc'
        exact hr.killing p desc' hmem hdesc'

/-- The history of an entry goes on as it was when another one is freed. -/
theorem Referenced.count_of_ne {tr : List (HostEvent τ × HostOutput τ)} {h : Host τ}
    (hr : Referenced tr h) {id taskId : UInt64} (hid : taskId ≠ id) {o : HostOutput τ}
    (hcreates : o.creates taskId = false) {p : TaskPtr} {desc : TaskDesc τ}
    (hlook : h.executor.tasks.lookup taskId = some p) (hdesc : h.executor.heap p = some desc) :
    desc.refCount.toNat + freedReferences taskId (tr ++ [(.freeTask id, o)]) =
      1 + addedReferences taskId (tr ++ [(.freeTask id, o)]) := by
  have hold := hr.count taskId p desc hlook hdesc
  rw [addedReferences_concat hcreates, freedReferences_concat hcreates]
  simpa [addsReference, freesReference, Ne.symm hid] using hold

theorem toNat_sub_one {n : UInt32} (h : n ≠ 0) : (n - 1).toNat = n.toNat - 1 := by
  refine UInt32.toNat_sub_of_le _ _ (UInt32.le_iff_toNat_le.2 ?_)
  exact Nat.one_le_iff_ne_zero.2 fun h0 => h (UInt32.toNat_inj.1 h0)

section FreeTask

variable {tr : List (HostEvent τ × HostOutput τ)} {h : Host τ} {id : UInt64} {q : TaskPtr}
  {desc : TaskDesc τ}

/-- The object that loses a reference. -/
theorem refCount_decremented (hdescq : h.executor.heap q = some desc) {desc' : TaskDesc τ}
    (h' : (h.executor.modifyDesc q fun desc => { desc with refCount := desc.refCount - 1 }).heap q =
      some desc') : desc'.refCount = desc.refCount - 1 := by
  rw [heap_modifyDesc, if_pos rfl, hdescq] at h'
  cases h'
  rfl

/-- A reference is taken back that is not the last. -/
theorem Referenced.freeTask_more (hr : Referenced tr h) (hs : h.Sound)
    (hlookq : h.executor.tasks.lookup id = some q) (hdescq : h.executor.heap q = some desc)
    (hmore : desc.refCount - 1 ≠ 0) {o : HostOutput τ} (hcreates : ∀ taskId, o.creates taskId = false) :
    Referenced (tr ++ [(.freeTask id, o)])
      { h with
        executor := h.executor.modifyDesc q fun desc =>
          { desc with refCount := desc.refCount - 1 } } := by
  have hother : ∀ p, p ≠ q → (h.executor.modifyDesc q fun desc =>
      { desc with refCount := desc.refCount - 1 }).heap p = h.executor.heap p := by
    intro p hp
    rw [heap_modifyDesc, if_neg hp]
  refine ⟨fun taskId p desc' hlook hdesc' => ?_, fun taskId p desc' hlook hdesc' => ?_,
    fun p desc' hmem hdesc' => ?_⟩
  · by_cases hid : taskId = id
    · subst hid
      cases hlookq.symm.trans hlook
      have hold := hr.count taskId q desc hlookq hdescq
      have hpos := hr.pos taskId q desc hlookq hdescq
      have hnat : desc.refCount.toNat ≠ 0 := fun h0 => hpos (UInt32.toNat_inj.1 h0)
      rw [addedReferences_concat (hcreates taskId), freedReferences_concat (hcreates taskId),
        refCount_decremented hdescq hdesc', toNat_sub_one hpos]
      simp only [addsReference, freesReference, beq_self_eq_true, if_true, Bool.false_eq_true,
        if_false]
      omega
    · -- only the entry of the id refers to the object
      have hne : p ≠ q := fun hp => hid (hs.executor.single taskId id p hlook (hp ▸ hlookq))
      rw [hother p hne] at hdesc'
      exact hr.count_of_ne hid (hcreates taskId) hlook hdesc'
  · by_cases hp : p = q
    · subst hp
      rw [refCount_decremented hdescq hdesc']
      exact hmore
    · rw [hother p hp] at hdesc'
      exact hr.pos taskId p desc' hlook hdesc'
  · rw [hother p fun hp => (hs.killing p hmem).2 id (hp ▸ hlookq)] at hdesc'
    exact hr.killing p desc' hmem hdesc'

/-- The last reference is taken back, and the object is to be killed. -/
theorem Referenced.freeTask_last (hr : Referenced tr h) (hs : h.Sound)
    (hlookq : h.executor.tasks.lookup id = some q) (hdescq : h.executor.heap q = some desc)
    (hlast : desc.refCount - 1 = 0) {o : HostOutput τ} (hcreates : ∀ taskId, o.creates taskId = false) :
    Referenced (tr ++ [(.freeTask id, o)])
      { h with
        executor :=
          { h.executor.modifyDesc q fun desc => { desc with refCount := desc.refCount - 1 } with
            tasks := h.executor.tasks.erase id }
        killing := h.killing ++ [q] } := by
  have hother : ∀ p, p ≠ q → (h.executor.modifyDesc q fun desc =>
      { desc with refCount := desc.refCount - 1 }).heap p = h.executor.heap p := by
    intro p hp
    rw [heap_modifyDesc, if_neg hp]
  -- an entry that is left is another one, and refers to another object
  have hentry : ∀ taskId p desc', (h.executor.tasks.erase id).lookup taskId = some p →
      (h.executor.modifyDesc q fun desc => { desc with refCount := desc.refCount - 1 }).heap p =
        some desc' →
      taskId ≠ id ∧ h.executor.tasks.lookup taskId = some p ∧ h.executor.heap p = some desc' := by
    intro taskId p desc' hlook hdesc'
    have hid : taskId ≠ id := by
      rintro rfl
      rw [AList.lookup_erase] at hlook
      cases hlook
    have hlook' := lookup_of_erase hlook
    have hne : p ≠ q := fun hp => hid (hs.executor.single taskId id p hlook' (hp ▸ hlookq))
    exact ⟨hid, hlook', (hother p hne).symm.trans hdesc'⟩
  refine ⟨fun taskId p desc' hlook hdesc' => ?_, fun taskId p desc' hlook hdesc' => ?_,
    fun p desc' hmem hdesc' => ?_⟩
  · obtain ⟨hid, hlook', hdesc''⟩ := hentry taskId p desc' hlook hdesc'
    exact hr.count_of_ne hid (hcreates taskId) hlook' hdesc''
  · obtain ⟨-, hlook', hdesc''⟩ := hentry taskId p desc' hlook hdesc'
    exact hr.pos taskId p desc' hlook' hdesc''
  · rcases List.mem_append.1 hmem with hold | hnew
    · have hne : p ≠ q := fun hp => (hs.killing p hold).2 id (hp ▸ hlookq)
      exact hr.killing p desc' hold ((hother p hne).symm.trans hdesc')
    · rw [List.mem_singleton.1 hnew] at hdesc'
      exact (refCount_decremented hdescq hdesc').trans hlast

end FreeTask

/-- A client frees its reference. -/
theorem Referenced.freeTask {tr : List (HostEvent τ × HostOutput τ)} {h : Host τ}
    (hr : Referenced tr h) (hs : h.Sound) (id : UInt64) :
    Referenced (tr ++ [(.freeTask id, (hostStep h (.freeTask id)).2)])
      (hostStep h (.freeTask id)).1 := by
  rcases freeTask_cases h.executor id with
    ⟨hnone, heq⟩ | ⟨q, desc, hlookq, hdescq, ⟨hmore, heq⟩ | ⟨hlast, heq⟩⟩
  · simp only [hostStep, heq, Option.toList_none, List.append_nil]
    refine ⟨fun taskId p desc' hlook hdesc' => ?_, hr.pos, hr.killing⟩
    refine hr.count_of_ne (fun hid => ?_) rfl hlook hdesc'
    subst hid
    cases hdesc'.symm.trans (Executor.find_eq_none hnone hlook)
  · simp only [hostStep, heq, Option.toList_none, List.append_nil]
    exact hr.freeTask_more hs hlookq hdescq hmore fun _ => rfl
  · simp only [hostStep, heq]
    exact hr.freeTask_last hs hlookq hdescq hlast fun _ => rfl

/-- **One step keeps the counts.** -/
theorem referenced_step {tr : List (HostEvent τ × HostOutput τ)} {h : Host τ} (hs : h.Sound)
    (hr : Referenced tr h) {event : HostEvent τ}
    (hfew : ∀ taskId ∈ (hostStep h event).1.executor.tasks,
      1 + addedReferences taskId (tr ++ [(event, (hostStep h event).2)]) <
        2 ^ 32 + freedReferences taskId (tr ++ [(event, (hostStep h event).2)])) :
    Referenced (tr ++ [(event, (hostStep h event).2)]) (hostStep h event).1 := by
  cases event with
  | tryQueueTask grantId userTask availMemory pid now =>
      by_cases hcan : h.CanFork pid
      · simp only [hostStep, if_pos hcan]
        exact hr.tryQueueTask hs grantId userTask availMemory pid now
      · simp only [hostStep, if_neg hcan]
        exact hr.congr (fun _ => rfl) (fun _ _ hlook => hlook) (fun _ hmem => hmem) (fun _ => rfl)
          (fun _ => rfl) fun _ => rfl
  | tryAddTaskRef id =>
      refine hr.tryAddTaskRef hs id fun p hlook => ?_
      have hmem : id ∈ (hostStep h (.tryAddTaskRef id)).1.executor.tasks := by
        simp only [hostStep, tryAddTaskRef, hlook]
        exact Table.mem_iff_lookup.2 ⟨p, hlook⟩
      have hbound := hfew id hmem
      simp only [hostStep, tryAddTaskRef, hlook] at hbound
      rw [addedReferences_concat rfl, freedReferences_concat rfl] at hbound
      simpa [addsReference, freesReference] using hbound
  | freeTask id => exact hr.freeTask hs id
  | _ =>
      exact hr.keep hs (fun _ _ _ _ _ h => by cases h) (fun _ h => by cases h)
        (fun _ h => by cases h)

/-- **Every count is what the history says, and what is to be killed has none.** -/
theorem referenced_run (flags : ExecutorFlags) (numCpuCores : UInt64)
    {events : List (HostEvent τ)} (hfew : FewReferences flags numCpuCores events) :
    Referenced ((host τ).trace (.init τ flags numCpuCores) events)
      ((host τ).run (.init τ flags numCpuCores) events) := by
  induction events using List.reverseRecOn with
  | nil => exact referenced_init flags numCpuCores
  | append_singleton events event ih =>
      have hbefore : FewReferences flags numCpuCores events := by
        intro before after hsplit
        exact hfew before (after ++ [event]) (by rw [hsplit, List.append_assoc])
      have hlast := hfew (events ++ [event]) [] (List.append_nil _).symm
      rw [Machine.trace_concat, Machine.run_concat] at hlast ⊢
      exact referenced_step (sound_run flags numCpuCores events) (ih hbefore) hlast

/-! ### Ids -/

/-- `n` ids have been handed out, modulo `2 ^ 64`, and the entries have some of them. -/
structure Numbered (n : ℕ) (e : Executor τ) : Prop where
  next : e.nextTaskId = UInt64.ofNat (n + 1)
  keys : ∀ taskId p, e.tasks.lookup taskId = some p →
    ∃ k, 1 ≤ k ∧ k ≤ n ∧ taskId = UInt64.ofNat k

/-- The next id is unused as long as fewer than `2 ^ 64` have been handed out. -/
theorem Numbered.fresh {n : ℕ} {e : Executor τ} (h : Numbered n e) (hn : n < 2 ^ 64) {p : TaskPtr} :
    e.tasks.lookup e.nextTaskId ≠ some p := by
  intro hlook
  obtain ⟨k, hpos, hle, heq⟩ := h.keys e.nextTaskId p hlook
  have hnat := congrArg UInt64.toNat (h.next.symm.trans heq)
  simp only [UInt64.toNat_ofNat'] at hnat
  omega

/-- A step hands out at most one id, and only if it asks for a compile. -/
theorem numbered_step {n : ℕ} {h : Host τ} (hn : Numbered n h.executor)
    (event : HostEvent τ) :
    ∃ n', n' ≤ n + (if event.queues then 1 else 0) ∧ Numbered n' (hostStep h event).1.executor := by
  rw [executor_hostStep]
  cases hoper : h.operation event with
  | none => exact ⟨n, Nat.le_add_right _ _, hn⟩
  | some op =>
      by_cases hop : ∃ grantId userTask availMemory pid now,
          op = .tryQueueTask grantId userTask availMemory pid now
      · obtain ⟨grantId, userTask, availMemory, pid, now, rfl⟩ := hop
        have hevent : event = .tryQueueTask grantId userTask availMemory pid now :=
          comesFrom_of_operation hoper
        have hqueues : event.queues = true := by
          rw [hevent]
          rfl
        rw [hqueues, if_pos rfl]
        simp only [Option.elim_some, exec]
        rcases tryQueueTask_cases h.executor grantId userTask availMemory pid now with
          ⟨m, hm, heq⟩ | ⟨-, -, heq⟩
        · rcases hm with rfl | rfl
          · refine ⟨n, Nat.le_succ n, ?_⟩
            rw [heq]
            exact ⟨hn.next, hn.keys⟩
          · refine ⟨n + 1, Nat.le_refl _, ?_⟩
            rw [heq]
            refine ⟨?_, fun taskId p hlook => ?_⟩
            · rw [hn.next]
              exact UInt64.ofNat_add_one _
            · obtain ⟨k, hpos, hle, hk⟩ := hn.keys taskId p hlook
              exact ⟨k, hpos, Nat.le_succ_of_le hle, hk⟩
        · refine ⟨n + 1, Nat.le_refl _, ?_⟩
          rw [heq]
          refine ⟨?_, fun taskId p hlook => ?_⟩
          · change h.executor.nextTaskId + 1 = _
            rw [hn.next]
            exact UInt64.ofNat_add_one _
          · rcases Table.lookup_insert_cases hlook with ⟨hid, -⟩ | ⟨-, hold⟩
            · exact ⟨n + 1, Nat.le_add_left 1 n, Nat.le_refl _, hid.trans hn.next⟩
            · obtain ⟨k, hpos, hle, hk⟩ := hn.keys taskId p hold
              exact ⟨k, hpos, Nat.le_succ_of_le hle, hk⟩
      · have hop' : ∀ grantId userTask availMemory pid now,
            op ≠ .tryQueueTask grantId userTask availMemory pid now :=
          fun g u a p t heq => hop ⟨g, u, a, p, t, heq⟩
        obtain ⟨htop, hnext⟩ := unallocated_exec h.executor hop'
        refine ⟨n, Nat.le_add_right _ _, hnext.trans hn.next, fun taskId p hlook => ?_⟩
        rcases (ages_exec h.executor op).entries taskId p hlook with hold | ⟨hge, hlt⟩
        · exact hn.keys taskId p hold
        · rw [htop] at hlt
          exact absurd hlt (Nat.not_lt.2 hge)

theorem numbered_run (flags : ExecutorFlags) (numCpuCores : UInt64)
    (events : List (HostEvent τ)) :
    ∃ n ≤ events.countP HostEvent.queues,
      Numbered n ((host τ).run (.init τ flags numCpuCores) events).executor := by
  induction events using List.reverseRecOn with
  | nil => exact ⟨0, Nat.le_refl 0, rfl, fun taskId p hlook => by cases hlook⟩
  | append_singleton events event ih =>
      obtain ⟨n, hle, hn⟩ := ih
      rw [Machine.run_concat, host_next]
      obtain ⟨n', hle', hn'⟩ := numbered_step hn event
      refine ⟨n', ?_, hn'⟩
      rw [List.countP_append, List.countP_singleton]
      omega

/-! ### How an entry leaves -/

/-- **How an operation takes an entry away.** -/
theorem leaves_exec {e : Executor τ} (hs : e.Sound) (hfresh : ∀ p, e.tasks.lookup e.nextTaskId ≠ some p)
    {op : ExecutorOp τ} {taskId : UInt64} {p : TaskPtr} (hlook : e.tasks.lookup taskId = some p)
    (hgone : (exec e op).1.tasks.lookup taskId ≠ some p) :
    (op = .freeTask taskId ∧ ∃ desc, e.heap p = some desc ∧ desc.refCount - 1 = 0) ∨
    ∃ now desc, op = .onTimerClean now ∧ e.heap p = some desc ∧ Stale now desc := by
  cases op with
  | tryQueueTask grantId userTask availMemory pid now =>
      rcases tryQueueTask_cases e grantId userTask availMemory pid now with
        ⟨n, -, heq⟩ | ⟨-, -, heq⟩
      · rw [exec, heq] at hgone
        exact absurd hlook hgone
      · rw [exec, heq] at hgone
        have hne : taskId ≠ e.nextTaskId := fun hid => hfresh p (hid ▸ hlook)
        exact absurd ((AList.lookup_insert_ne hne).trans hlook) hgone
  | tryAddTaskRef id =>
      simp only [exec, tryAddTaskRef] at hgone
      split at hgone
      · exact absurd hlook hgone
      · exact absurd hlook hgone
  | freeTask id =>
      rcases freeTask_cases e id with ⟨-, heq⟩ | ⟨q, desc, hlookq, hdesc, ⟨-, heq⟩ | ⟨hlast, heq⟩⟩
      · rw [exec, heq] at hgone
        exact absurd hlook hgone
      · rw [exec, heq] at hgone
        exact absurd hlook hgone
      · rw [exec, heq] at hgone
        by_cases hid : taskId = id
        · subst hid
          cases hlookq.symm.trans hlook
          exact Or.inl ⟨rfl, desc, hdesc, hlast⟩
        · exact absurd ((AList.lookup_erase_ne hid).trans hlook) hgone
  | tryWait q =>
      simp only [exec, tryWait] at hgone
      split at hgone
      · split at hgone
        · exact absurd hlook hgone
        · exact absurd hlook hgone
      · exact absurd hlook hgone
  | onExitCallback pid now =>
      simp only [exec, (onExitCallback_spec e pid now).2.1] at hgone
      exact absurd hlook hgone
  | onTimerClean now =>
      obtain ⟨desc, hdesc⟩ := hs.filed taskId p hlook
      refine Or.inr ⟨now, desc, rfl, hdesc, ?_⟩
      by_contra hstale
      refine hgone ((lookup_onTimerClean e now taskId p).2 ⟨hlook, fun desc' hdesc' => ?_⟩)
      cases hdesc.symm.trans hdesc'
      exact hstale
  | rehash rank =>
      rw [exec, Table.lookup_rehash] at hgone
      exact absurd hlook hgone
  | _ => exact absurd hlook hgone

/-- **How a step takes an entry away**: with its last reference, or when it is stale. -/
theorem leaves_tasks {h : Host τ} (hs : h.Sound)
    (hfresh : ∀ p, h.executor.tasks.lookup h.executor.nextTaskId ≠ some p) {event : HostEvent τ}
    {taskId : UInt64} {p : TaskPtr} (hlook : h.executor.tasks.lookup taskId = some p)
    (hgone : (hostStep h event).1.executor.tasks.lookup taskId ≠ some p) :
    (event = .freeTask taskId ∧ ∃ desc, h.executor.heap p = some desc ∧ desc.refCount - 1 = 0) ∨
    ∃ now desc, event = .onTimerClean now ∧ h.executor.heap p = some desc ∧ Stale now desc := by
  rw [executor_hostStep] at hgone
  cases hoper : h.operation event with
  | none =>
      rw [hoper] at hgone
      exact absurd hlook hgone
  | some op =>
      rw [hoper] at hgone
      rcases leaves_exec hs.executor hfresh hlook hgone with ⟨rfl, hlast⟩ | ⟨now, desc, rfl, hstale⟩
      · exact Or.inl ⟨comesFrom_of_operation hoper, hlast⟩
      · exact Or.inr ⟨now, desc, comesFrom_of_operation hoper, hstale⟩

/-! ### References are counted -/

/-- The step is a `TryAddTaskRef`. -/
def HostEvent.adds : HostEvent τ → Bool
  | .tryAddTaskRef _ => true
  | _ => false

theorem addedReferences_le (taskId : UInt64) (h : Host τ) (events : List (HostEvent τ)) :
    addedReferences taskId ((host τ).trace h events) ≤ events.countP HostEvent.adds := by
  induction events using List.reverseRecOn with
  | nil => exact Nat.le_refl 0
  | append_singleton events event ih =>
      rw [Machine.trace_concat, List.countP_append, List.countP_singleton]
      cases hcreates : ((host τ).out ((host τ).run h events) event).creates taskId with
      | true =>
          rw [(references_of_creates _ _ hcreates).1]
          exact Nat.zero_le _
      | false =>
          rw [addedReferences_concat hcreates]
          have hadds : addsReference taskId (event, (host τ).out ((host τ).run h events) event) =
              true → event.adds = true := by
            intro hadd
            cases event with
            | tryAddTaskRef id => rfl
            | _ => cases hadd
          split
          next hadd =>
            rw [if_pos (hadds hadd)]
            omega
          next => omega

/-- A run with few `TryAddTaskRef` calls at all. -/
theorem fewReferences_of_adds (flags : ExecutorFlags) (numCpuCores : UInt64)
    {events : List (HostEvent τ)} (h : events.countP HostEvent.adds + 1 < 2 ^ 32) :
    FewReferences flags numCpuCores events := by
  rintro before after rfl taskId -
  have hle := addedReferences_le taskId (.init τ flags numCpuCores) before
  rw [List.countP_append] at h
  omega

/-- A second client joins, and the first one leaves. -/
def joinEvents : List (HostEvent Unit) :=
  [.tryQueueTask 7 () 10 100 0, .tryAddTaskRef 1, .freeTask 1]

/-- A compile with the id `1` runs, and the next id is `n`. -/
def runningState (n : UInt64) : Host Unit :=
  let h := (host Unit).run (.init Unit (sampleFlags 2) 8) [.tryQueueTask 7 () 10 100 0]
  { h with executor := { h.executor with nextTaskId := n } }

/-- A compile is refused for lack of memory, and an id is lost. -/
def refusedQueue : HostEvent Unit := .tryQueueTask 8 () 0 101 0

theorem next_runningState (n : UInt64) :
    (host Unit).next (runningState n) refusedQueue = runningState (n + 1) := by
  rfl

theorem run_runningState (n : UInt64) (k : ℕ) :
    (host Unit).run (runningState n) (List.replicate k refusedQueue) =
      runningState (n + UInt64.ofNat k) := by
  induction k generalizing n with
  | zero => simp
  | succ k ih =>
      rw [List.replicate_succ, Machine.run_cons, next_runningState, ih, UInt64.add_assoc,
        UInt64.add_comm 1, UInt64.ofNat_add_one]

end Cloud
