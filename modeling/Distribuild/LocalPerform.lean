/-
**A daemon performs a task, and what it takes for it.**

`TaskDispatcher::PerformTask` looks for the result of a compile in three places: in the cache, in a
compile that some servant already runs, and, failing these, in a compile of its own.  For the second
it takes a reference to the servant's task, for the third a grant of the scheduler and, with the
task it starts, a reference as well.  It gives them back by plain statements after the wait, so a
wait that is left by an exception gives back nothing.

This module embeds `PerformTask`, `TryReadCache`, `TryGetExistedResult`, `StartNewServantTask` and
the loop of `WaitServantTask` of `daemon/local/task_dispatcher.cpp`.  What cache, scheduler,
servants and transport do is an input, and so is the moment of an abort.  The flag `aborted` is read
before every call of the two loops and is never reset, so a list holds what the calls bring that are
made before it is seen.

Main definitions:

* `Local.Behaviour` — everything that the calls of one `PerformTask` bring;
* `Local.Call` — the calls that take something or give it back;
* `Local.waitServantTaskLoop` — `WaitServantTask(stub, task_desc)`;
* `Local.performTask` — `PerformTask`: its calls, and the output or what is raised;
* `Local.GivesBack` — every grant and every reference is given back once.

Main results:

* `Local.waitServantTaskLoop_ok_iff` — when the wait returns;
* `Local.performTask_givesBack_iff` — **when everything is given back**: exactly if the first poll
  that is answered neither carries a pack that cannot be read nor says that the compile still runs;
* `Local.empty_pack_is_kept` — a compile without output files costs a grant.
-/

import Distribuild.LocalCxxTask

set_option relaxedAutoImplicit false
set_option autoImplicit false

namespace Local

open Scheduler (Status)
open Common (tryUnpackFiles)

/-! ### What the calls bring -/

/-- `CacheEntry`, as far as it is read here. -/
structure CacheEntry where
  stdOut : Bytes
  stdErr : Bytes
  extraInfo : Bytes
  packed : Bytes
deriving DecidableEq, Repr

/-- `TaskGrantKeeper::GrantDesc`. -/
structure GrantDesc where
  grantId : UInt64
  servantLocation : String
deriving DecidableEq, Repr

/-- `TaskRunKeeper::TaskDesc`. -/
structure RunningTaskDesc where
  servantLocation : String
  servantTaskId : UInt64
deriving DecidableEq, Repr

/-- Everything that the calls of one `PerformTask` bring, with the task and the chunk size. -/
structure Behaviour where
  task : CxxDistTask
  chunkSize : ℕ
  /-- What `CacheReader::TryRead` returns: nothing, for it begins with `return std::nullopt`.  What is
  behind it may bring an entry, and so may this field. -/
  cacheEntry : Option CacheEntry
  /-- `TaskRunKeeper::TryFindTask`. -/
  runningTask : Option RunningTaskDesc
  /-- The status of the call `AddTaskRef`. -/
  addTaskRef : Status
  /-- `TaskGrantKeeper::Get`, call by call, until a grant is there or the flag `aborted` is seen. -/
  grants : List (Option GrantDesc)
  /-- The call `QueueCxxTask`. -/
  submit : SubmitReply
  /-- The call `WaitForTask`, poll by poll, as far as the flag `aborted` is not seen. -/
  polls : List WaitReply
deriving DecidableEq, Repr

/-- The calls that take something or give it back.  A reference is known by the place of the servant
that its stub calls and by the id of the task there. -/
inductive Call
  | grantObtained (grantId : UInt64)
  | freeGrant (grantId : UInt64)
  | referenceObtained (servantLocation : String) (servantTaskId : UInt64)
  | freeServantTask (servantLocation : String) (servantTaskId : UInt64)
deriving DecidableEq, Repr

/-! ### The wait -/

/-- The loop of `WaitServantTask(stub, task_desc)`: the output that it leaves in the task.  An
answer that the compile still runs sets `retries` back and then falls through to the use of the
absent result. -/
def waitServantTaskLoop : ℕ → List WaitReply → DistOutput → Except Fault DistOutput
  | 0, _, output => .ok output
  | _ + 1, [], output => .ok output
  | retries + 1, reply :: polls, output =>
      match waitServantTask reply with
      | .error fault => .error fault
      | .ok (some result, _) => .ok result
      | .ok (none, 1) => waitServantTaskLoop retries polls output
      | .ok (none, 3) => .ok { output with exitCode := -125 }
      | .ok (none, _) => .error .undefined

/-- `kRetries`. -/
def kRetries : ℕ := 5

/-! ### The three ways to a result -/

/-- What `PerformTask` has done: its calls, and the output of the task or what was raised. -/
structure Performed where
  calls : List Call
  result : Except Fault DistOutput
deriving DecidableEq

/-- The exit code that a task has before there is a result. -/
def pendingOutput : DistOutput := { exitCode := -114514 }

/-- `TryReadCache`: the output, if the cache holds one that can be unpacked. -/
def tryReadCache (b : Behaviour) : Except Fault (Option DistOutput) :=
  match if b.task.cacheControl then b.cacheEntry else none with
  | none => .ok none
  | some entry => do
      match ← tryUnpackFiles entry.packed with
      | none => return none
      | some files =>
          return some
            { exitCode := 0
              stdOut := entry.stdOut
              stdErr := entry.stdErr
              extraInfo := entry.extraInfo
              outputFiles := files }

/-- The wait, with what has been taken before it and what is given back after it: the statements
after the wait are only reached if it returns. -/
def waitAndGiveBack (b : Behaviour) (taken givenBack : List Call) : Performed :=
  match waitServantTaskLoop kRetries b.polls pendingOutput with
  | .error fault => { calls := taken, result := .error fault }
  | .ok output => { calls := taken ++ givenBack, result := .ok output }

/-- `TryGetExistedResult`; nothing if it returns `false`.  The stub is made for
`task_desc->servant_location` before that is set. -/
def tryGetExistedResult (b : Behaviour) : Option Performed :=
  match b.runningTask with
  | none => none
  | some runningTask =>
      if b.addTaskRef.code ≠ .ok then none
      else
        some (waitAndGiveBack b [.referenceObtained "" runningTask.servantTaskId]
          [.freeServantTask "" runningTask.servantTaskId])

/-- The loop of `StartNewServantTask` that waits for a grant. -/
def getGrant (grants : List (Option GrantDesc)) : Option GrantDesc := grants.findSome? id

/-- `StartNewServantTask`. -/
def startNewServantTask (b : Behaviour) : Performed :=
  match getGrant b.grants with
  | none => { calls := [], result := .ok pendingOutput }
  | some grant =>
      match b.task.startTask b.chunkSize b.submit with
      | none =>
          { calls := [.grantObtained grant.grantId, .freeGrant grant.grantId]
            result := .ok pendingOutput }
      | some taskId =>
          let reference :=
            if b.task.queued b.chunkSize b.submit then
              [Call.referenceObtained grant.servantLocation taskId]
            else []
          waitAndGiveBack b (.grantObtained grant.grantId :: reference)
            [.freeServantTask grant.servantLocation taskId, .freeGrant grant.grantId]

def performTask (b : Behaviour) : Performed :=
  match tryReadCache b with
  | .error fault => { calls := [], result := .error fault }
  | .ok (some output) => { calls := [], result := .ok output }
  | .ok none =>
      match tryGetExistedResult b with
      | some performed => performed
      | none => startNewServantTask b

/-! ### Giving back -/

/-- **Every grant and every reference is given back once**, and nothing undefined has happened. -/
structure GivesBack (performed : Performed) : Prop where
  defined : performed.result ≠ .error .undefined
  grants : ∀ grantId, .grantObtained grantId ∈ performed.calls →
    performed.calls.count (.freeGrant grantId) = 1
  references : ∀ servantLocation servantTaskId,
    .referenceObtained servantLocation servantTaskId ∈ performed.calls →
      performed.calls.count (.freeServantTask servantLocation servantTaskId) = 1

/-- What is obtained is not given back by obtaining. -/
def Call.obtains : Call → Bool
  | .grantObtained _ => true
  | .referenceObtained _ _ => true
  | _ => false

theorem count_eq_zero_of_obtains {calls : List Call} (h : ∀ call ∈ calls, call.obtains = true)
    {call : Call} (hcall : call.obtains = false) : calls.count call = 0 := by
  rw [List.count_eq_zero]
  intro hmem
  rw [h call hmem] at hcall
  cases hcall

/-- Nothing is given back of what has only been obtained. -/
theorem not_givesBack_of_obtains {calls : List Call} (hne : calls ≠ [])
    (h : ∀ call ∈ calls, call.obtains = true) (result : Except Fault DistOutput) :
    ¬GivesBack { calls := calls, result := result } := by
  intro hback
  obtain ⟨call, rest, rfl⟩ := List.exists_cons_of_ne_nil hne
  have hmem : call ∈ call :: rest := List.mem_cons_self
  cases call with
  | grantObtained grantId =>
      have hone := hback.grants grantId hmem
      rw [count_eq_zero_of_obtains h rfl] at hone
      cases hone
  | referenceObtained servantLocation servantTaskId =>
      have hone := hback.references servantLocation servantTaskId hmem
      rw [count_eq_zero_of_obtains h rfl] at hone
      cases hone
  | freeGrant grantId => cases h _ hmem
  | freeServantTask servantLocation servantTaskId => cases h _ hmem

/-! ### When the wait returns -/

/-- The call has succeeded. -/
def WaitReply.answered (reply : WaitReply) : Bool := decide (reply.status.code = .ok)

/-- The servant says that the compile still runs. -/
def WaitReply.Runs (reply : WaitReply) : Prop :=
  (readChunks reply.chunks).1.taskStatus = .running

/-- The servant says that the compile has ended well, and sends a pack on which `TryUnpackFiles`
raises an exception. -/
def WaitReply.Raises (reply : WaitReply) : Prop :=
  (readChunks reply.chunks).1.taskStatus = .done ∧ (readChunks reply.chunks).1.exitCode = 0 ∧
    ∃ fault, tryUnpackFiles (readChunks reply.chunks).2 = .error fault

/-- Of the first `retries` polls, the first one that is answered has a result or says that the
compile has failed. -/
def AnswerUsable (retries : ℕ) (polls : List WaitReply) : Prop :=
  ∀ reply, (polls.take retries).find? WaitReply.answered = some reply →
    ¬reply.Runs ∧ ¬reply.Raises

/-- A poll that is not answered is an error of the call. -/
theorem waitServantTask_unanswered {reply : WaitReply} (h : reply.answered = false) :
    waitServantTask reply = .ok (none, 1) := by
  have hcode : reply.status.code ≠ .ok := by simpa [WaitReply.answered] using h
  rw [waitServantTask, if_pos hcode]

/-- A poll that is answered has a usable result, or its answer is that the compile runs, or it
raises. -/
theorem waitServantTask_cases {reply : WaitReply} (h : reply.answered = true) :
    (reply.Runs ∧ waitServantTask reply = .ok (none, 2)) ∨
    (reply.Raises ∧ ∃ fault, waitServantTask reply = .error fault) ∨
    ((¬reply.Runs ∧ ¬reply.Raises) ∧ (waitServantTask reply = .ok (none, 3) ∨
      ∃ output, waitServantTask reply = .ok (some output, 0))) := by
  have hcode : reply.status.code = .ok := by simpa [WaitReply.answered] using h
  rw [waitServantTask, if_neg (not_not.2 hcode), WaitReply.Runs, WaitReply.Raises]
  generalize readChunks reply.chunks = read
  obtain ⟨resp, file⟩ := read
  cases hstatus : resp.taskStatus with
  | running => exact Or.inl ⟨rfl, by simp [classify, hstatus]⟩
  | done =>
      by_cases hexit : resp.exitCode = 0
      · cases hunpack : tryUnpackFiles file with
        | error fault =>
            exact Or.inr (Or.inl ⟨⟨rfl, hexit, fault, rfl⟩, fault,
              by simp [classify, hstatus, outputOf, hexit, hunpack]⟩)
        | ok files =>
            refine Or.inr (Or.inr ⟨by simp, ?_⟩)
            cases files with
            | none => exact Or.inl (by simp [classify, hstatus, outputOf, hexit, hunpack])
            | some files =>
                exact Or.inr ⟨_, by simp [classify, hstatus, outputOf, hexit, hunpack]; rfl⟩
      · exact Or.inr (Or.inr ⟨by simp [hexit],
          Or.inr ⟨outputOf resp, by simp [classify, hstatus, outputOf, hexit]⟩⟩)
  | unknown => exact Or.inr (Or.inr ⟨by simp, Or.inl (by simp [classify, hstatus])⟩)
  | failed => exact Or.inr (Or.inr ⟨by simp, Or.inl (by simp [classify, hstatus])⟩)
  | notFound => exact Or.inr (Or.inr ⟨by simp, Or.inl (by simp [classify, hstatus])⟩)
  | other value => exact Or.inr (Or.inr ⟨by simp, Or.inl (by simp [classify, hstatus])⟩)

/-- **When the wait returns**: polls that are not answered are repeated, and the first answer
decides. -/
theorem waitServantTaskLoop_ok_iff (retries : ℕ) (polls : List WaitReply) (output : DistOutput) :
    (∃ output', waitServantTaskLoop retries polls output = .ok output') ↔
      AnswerUsable retries polls := by
  induction polls generalizing retries with
  | nil =>
      cases retries <;> simp [waitServantTaskLoop, AnswerUsable]
  | cons reply polls ih =>
      cases retries with
      | zero => simp [waitServantTaskLoop, AnswerUsable]
      | succ retries =>
          cases hanswered : reply.answered with
          | false =>
              rw [waitServantTaskLoop, waitServantTask_unanswered hanswered]
              simpa [AnswerUsable, hanswered] using ih retries
          | true =>
              have huse : AnswerUsable (retries + 1) (reply :: polls) ↔
                  ¬reply.Runs ∧ ¬reply.Raises := by
                simp [AnswerUsable, hanswered]
              rw [huse]
              rcases waitServantTask_cases hanswered with
                ⟨hruns, hpoll⟩ | ⟨hraises, fault, hpoll⟩ | ⟨hgood, hpoll | ⟨result, hpoll⟩⟩
              · exact iff_of_false (by simp [waitServantTaskLoop, hpoll]) fun h => h.1 hruns
              · exact iff_of_false (by simp [waitServantTaskLoop, hpoll]) fun h => h.2 hraises
              · exact iff_of_true (by simp [waitServantTaskLoop, hpoll]) hgood
              · exact iff_of_true (by simp [waitServantTaskLoop, hpoll]) hgood

/-! ### When everything is given back -/

/-- What is taken is given back exactly if the wait returns. -/
theorem givesBack_waitAndGiveBack {b : Behaviour} {taken givenBack : List Call} (hne : taken ≠ [])
    (htaken : ∀ call ∈ taken, call.obtains = true)
    (hback : ∀ output, GivesBack { calls := taken ++ givenBack, result := .ok output }) :
    GivesBack (waitAndGiveBack b taken givenBack) ↔ AnswerUsable kRetries b.polls := by
  rw [← waitServantTaskLoop_ok_iff kRetries b.polls pendingOutput, waitAndGiveBack]
  cases waitServantTaskLoop kRetries b.polls pendingOutput with
  | error fault =>
      exact iff_of_false (not_givesBack_of_obtains hne htaken _) (by simp)
  | ok output => exact iff_of_true (hback output) ⟨output, rfl⟩

/-- A servant runs the compile already, and the reference to it has been added. -/
def Behaviour.Existed (b : Behaviour) : Prop := b.runningTask.isSome ∧ b.addTaskRef.code = .ok

/-- There is a grant, and `StartTask` returns an id. -/
def Behaviour.Started (b : Behaviour) : Prop :=
  (getGrant b.grants).isSome ∧ (b.task.startTask b.chunkSize b.submit).isSome

/-- The task gets as far as the wait. -/
def Behaviour.Waits (b : Behaviour) : Prop :=
  tryReadCache b = .ok none ∧ (b.Existed ∨ b.Started)

/-- A result that comes from no call takes nothing. -/
theorem givesBack_nil {result : Except Fault DistOutput} (h : result ≠ .error .undefined) :
    GivesBack { calls := [], result := result } where
  defined := h
  grants := fun _ hmem => absurd hmem List.not_mem_nil
  references := fun _ _ hmem => absurd hmem List.not_mem_nil

theorem tryGetExistedResult_eq_none {b : Behaviour} (h : ¬b.Existed) :
    tryGetExistedResult b = none := by
  rw [tryGetExistedResult]
  cases hrunning : b.runningTask with
  | none => rfl
  | some runningTask =>
      have hcode : b.addTaskRef.code ≠ .ok := fun hok => h ⟨by simp [hrunning], hok⟩
      simp [hcode]

theorem givesBack_tryGetExistedResult {b : Behaviour} (h : b.Existed) :
    ∃ performed, tryGetExistedResult b = some performed ∧
      (GivesBack performed ↔ AnswerUsable kRetries b.polls) := by
  obtain ⟨hrunning, hcode⟩ := h
  obtain ⟨runningTask, hrunning⟩ := Option.isSome_iff_exists.1 hrunning
  refine ⟨_, by rw [tryGetExistedResult, hrunning]; simp [hcode]; rfl, ?_⟩
  refine givesBack_waitAndGiveBack (by simp) (by simp [Call.obtains]) fun output => ?_
  exact { defined := by simp
          grants := by simp
          references := by simp }

theorem givesBack_startNewServantTask {b : Behaviour} :
    GivesBack (startNewServantTask b) ↔ (b.Started → AnswerUsable kRetries b.polls) := by
  rw [startNewServantTask, Behaviour.Started]
  cases hgrant : getGrant b.grants with
  | none => simpa using givesBack_nil (by simp)
  | some grant =>
      cases hstart : b.task.startTask b.chunkSize b.submit with
      | none =>
          refine iff_of_true ?_ (by simp)
          exact { defined := by simp
                  grants := by simp
                  references := by simp }
      | some taskId =>
          have hwait : GivesBack (waitAndGiveBack b
              (.grantObtained grant.grantId ::
                if b.task.queued b.chunkSize b.submit then
                  [.referenceObtained grant.servantLocation taskId] else [])
              [.freeServantTask grant.servantLocation taskId, .freeGrant grant.grantId]) ↔
                AnswerUsable kRetries b.polls := by
            cases b.task.queued b.chunkSize b.submit with
            | true =>
                refine givesBack_waitAndGiveBack (by simp) (by simp [Call.obtains]) fun output => ?_
                exact { defined := by simp
                        grants := by simp
                        references := by simp }
            | false =>
                refine givesBack_waitAndGiveBack (by simp) (by simp [Call.obtains]) fun output => ?_
                exact { defined := by simp
                        grants := by simp
                        references := by simp }
          simpa using hwait

theorem tryReadCache_ne_undefined (b : Behaviour) : tryReadCache b ≠ .error .undefined := by
  rw [tryReadCache]
  split
  · simp
  next entry _ =>
    refine Fault.bind_ne_undefined (Common.tryUnpackFiles_ne_undefined entry.packed) fun files => ?_
    cases files <;> simp [pure, Except.pure]

/-- **When everything is given back**: exactly if the task does not get as far as the wait, or the
first poll that is answered neither says that the compile still runs nor carries a pack on which
`TryUnpackFiles` raises. -/
theorem performTask_givesBack_iff (b : Behaviour) :
    GivesBack (performTask b) ↔ (b.Waits → AnswerUsable kRetries b.polls) := by
  rw [performTask, Behaviour.Waits]
  cases hcache : tryReadCache b with
  | error fault =>
      refine iff_of_true (givesBack_nil ?_) (by simp)
      intro hundefined
      exact tryReadCache_ne_undefined b (by rw [hcache, Except.error.inj hundefined])
  | ok cached =>
      cases cached with
      | some output => exact iff_of_true (givesBack_nil (by simp)) (by simp)
      | none =>
          by_cases hexisted : b.Existed
          · obtain ⟨performed, hperformed, hback⟩ := givesBack_tryGetExistedResult hexisted
            simp [hperformed, hback, hexisted]
          · simp [tryGetExistedResult_eq_none hexisted, givesBack_startNewServantTask, hexisted]

/-- A task that gets a grant and starts a compile, which ends well and leaves no files: `PackFiles`
packs them into the empty string. -/
def fruitlessCompile : Behaviour where
  task :=
    { cacheControl := false, requesterPid := 2, envDesc := { compilerDigest := "gcc" },
      sourcePath := [97], sourceDigest := [97], args := [45, 99], source := [40] }
  chunkSize := 65536
  cacheEntry := none
  runningTask := none
  addTaskRef := Status.OK
  grants := [none, some { grantId := 7, servantLocation := "10.0.0.1:8335" }]
  submit := { acceptedWrites := 2, status := Status.OK, taskId := 3 }
  polls := [{ chunks := [{ response := some { taskStatus := .done } }], status := Status.OK }]

/-- **A compile without output files costs a grant** and the reference to its task: `TryUnpackFiles`
raises, and nothing is given back. -/
theorem empty_pack_is_kept :
    performTask fruitlessCompile =
      { calls := [.grantObtained 7, .referenceObtained "10.0.0.1:8335" 3]
        result := .error .invalidArgument } ∧
      ¬GivesBack (performTask fruitlessCompile) := by
  have hperformed : performTask fruitlessCompile =
      { calls := [.grantObtained 7, .referenceObtained "10.0.0.1:8335" 3]
        result := .error .invalidArgument } := rfl
  refine ⟨hperformed, ?_⟩
  rw [hperformed]
  exact not_givesBack_of_obtains (by simp) (by simp [Call.obtains]) _

end Local
