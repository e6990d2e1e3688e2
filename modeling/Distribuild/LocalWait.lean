/-
**A daemon polls a servant.**

The local daemon asks the servant for the result of a compile and sorts the answer into four
classes, numbered as in the source: `0` for a result, `1` for an error of the call, `2` for a
compile that still runs, `3` for one that has failed.  This module embeds the function that does so,
the one of the two functions named `WaitServantTask` in `daemon/local/task_dispatcher.cpp` that
makes the call, and puts it opposite the servant's service of `Distribuild/CloudService.lean`.

The two sides do not speak the same language.  The servant tells a compile that still runs, and one
that it does not know, by an error status, and a daemon reads every error status as an error of the
call; so these two classes never arrive.  And where the compile has ended well, the daemon unpacks
the files at once, which may fail or raise.

Main definitions:

* `Local.DistOutput` — the result of a compile, as the daemon has it;
* `Local.WaitReply` — what a call of `WaitForTask` brings;
* `Local.waitServantTask` — `WaitServantTask(stub, id)`;
* `Local.pollServant` — the call and the service together, over a transport that delivers
  everything;
* `Local.Agrees` — the class says what the executor holds.

Main results:

* `Local.readChunks_sent` — **the stream is put together again**;
* `Local.poll_agrees_iff` — **when a daemon learns what the servant has**: for an acceptable token
  only the results of compiles that have ended arrive, and of the ones that ended well those whose
  pack can be unpacked;
* `Local.running_task_reported_as_error` — a compile that runs is an error of the call.
-/

import Distribuild.CloudService
import Distribuild.Packing

set_option relaxedAutoImplicit false
set_option autoImplicit false

namespace Local

open Scheduler (Status StatusCode TokenVerifier)
open Cloud (TaskStatus WaitForTaskRequest WaitForTaskResponse WaitForTaskResponseChunk CompileTask
  Executor serveWaitForTask)
open Common (tryUnpackFiles)

/-! ### The daemon's side -/

/-- `DistTask::DistOutput`. -/
structure DistOutput where
  exitCode : ℤ
  stdOut : Bytes := []
  stdErr : Bytes := []
  extraInfo : Bytes := []
  outputFiles : List (Bytes × Bytes) := []
deriving DecidableEq, Repr

/-- What a call of `WaitForTask` brings: the messages that can be read, and the status. -/
structure WaitReply where
  chunks : List WaitForTaskResponseChunk
  status : Status
deriving DecidableEq, Repr

/-- The reading loop: the last response there is, and the bytes of all messages. -/
def readChunks (chunks : List WaitForTaskResponseChunk) : WaitForTaskResponse × Bytes :=
  chunks.foldl (fun read chunk => (chunk.response.getD read.1, read.2 ++ chunk.fileChunk)) ({}, [])

/-- The output that a response stands for, without the files. -/
def outputOf (resp : WaitForTaskResponse) : DistOutput where
  exitCode := resp.exitCode
  stdOut := resp.output
  stdErr := resp.err
  extraInfo := resp.extraInfo

/-- The end of `WaitServantTask(stub, id)`, once the call has succeeded: the output, if there is
one, and the class. -/
def classify (resp : WaitForTaskResponse) (file : Bytes) : Except Fault (Option DistOutput × ℕ) :=
  match resp.taskStatus with
  | .running => .ok (none, 2)
  | .done =>
      let output := outputOf resp
      if output.exitCode = 0 then
        match tryUnpackFiles file with
        | .error fault => .error fault
        | .ok none => .ok (none, 3)
        | .ok (some files) => .ok (some { output with outputFiles := files }, 0)
      else .ok (some output, 0)
  | _ => .ok (none, 3)

/-- `WaitServantTask(stub, id)` with what the call brought. -/
def waitServantTask (reply : WaitReply) : Except Fault (Option DistOutput × ℕ) :=
  if reply.status.code ≠ .ok then .ok (none, 1)
  else classify (readChunks reply.chunks).1 (readChunks reply.chunks).2

/-- The request that `WaitServantTask(stub, id)` makes. -/
def waitRequest (token : String) (version : UInt32) (servantTaskId : UInt64) :
    WaitForTaskRequest where
  version := version
  token := token
  taskId := servantTaskId
  waitMs := 2000
  acceptableCompressTypes := [.zstd]

/-- `WaitServantTask(stub, id)` and `DaemonServiceImpl::WaitForTask` over a transport that delivers
every message and the status; nothing as long as the service has not returned. -/
def pollServant (tokenVerifier : TokenVerifier) (chunkSize fuel : ℕ) (e : Executor CompileTask)
    (token : String) (version : UInt32) (servantTaskId : UInt64) :
    Option (Except Fault (Option DistOutput × ℕ)) :=
  (serveWaitForTask tokenVerifier chunkSize fuel e (waitRequest token version servantTaskId)).map
    fun answer => waitServantTask { chunks := answer.2, status := answer.1 }

/-- **The stream is put together again**: the response is that of the first message, and the file
that of all the others. -/
theorem readChunks_sent (response : WaitForTaskResponse) (pieces : List Bytes) :
    readChunks ({ response := some response } :: pieces.map fun piece => { fileChunk := piece }) =
      (response, pieces.flatten) := by
  have hloop : ∀ (read : WaitForTaskResponse × Bytes),
      (pieces.map fun piece => ({ fileChunk := piece } : WaitForTaskResponseChunk)).foldl
        (fun read chunk => (chunk.response.getD read.1, read.2 ++ chunk.fileChunk)) read =
          (read.1, read.2 ++ pieces.flatten) := by
    intro read
    induction pieces generalizing read with
    | nil => simp
    | cons piece pieces ih =>
        rw [List.map_cons, List.foldl_cons, ih]
        simp
  rw [readChunks, List.foldl_cons, hloop]
  simp

/-- A call that brings the messages of a servant is read back to the response and the file. -/
theorem waitServantTask_sent (response : WaitForTaskResponse) (pieces : List Bytes) :
    waitServantTask
      { chunks := { response := some response } :: pieces.map fun piece => { fileChunk := piece }
        status := Status.OK } = classify response pieces.flatten := by
  rw [waitServantTask, if_neg (by simp [Status.OK]), readChunks_sent]

/-! ### What the two sides should agree on -/

/-- The files that are packed in a pack. -/
def IsPackOf (filePack : Bytes) (files : List (Bytes × Bytes)) : Prop :=
  if filePack = [] then files = [] else tryUnpackFiles filePack = .ok (some files)

/-- What the executor holds under an id. -/
inductive Standing
  | unknown
  | executing
  | completed (task : CompileTask)

def standing (e : Executor CompileTask) (servantTaskId : UInt64) : Standing :=
  match e.find servantTaskId with
  | none => .unknown
  | some (_, desc) => if desc.isRunning then .executing else .completed desc.task

/-- The output is that of the task. -/
structure OutputOf (task : CompileTask) (output : DistOutput) : Prop where
  exitCode : output.exitCode = task.exitCode
  stdOut : output.stdOut = task.stdOut
  stdErr : output.stdErr = task.stdErr
  outputFiles : IsPackOf task.filePack output.outputFiles

/-- The class for what is held: `2` for a compile that runs, `3` for an id that is unknown, `0` with
the output for a compile that has ended. -/
def Standing.IsReportedBy : Standing → Except Fault (Option DistOutput × ℕ) → Prop
  | .executing, result => result = .ok (none, 2)
  | .unknown, result => result = .ok (none, 3)
  | .completed task, result => ∃ output, result = .ok (some output, 0) ∧ OutputOf task output

/-- **The class says what the executor holds**, and it is `1` only without an acceptable token. -/
def Agrees (acceptable : Bool) (held : Standing) (result : Except Fault (Option DistOutput × ℕ)) :
    Prop :=
  if acceptable then held.IsReportedBy result else result = .ok (none, 1)

/-- The poll returns, and its class says what the executor holds. -/
def PollAgrees (tokenVerifier : TokenVerifier) (chunkSize : ℕ) (e : Executor CompileTask)
    (token : String) (version : UInt32) (servantTaskId : UInt64) : Prop :=
  ∃ result, Agrees (tokenVerifier.verify token) (standing e servantTaskId) result ∧
    Loop.Returns (fun fuel => pollServant tokenVerifier chunkSize fuel e token version servantTaskId)
      result

/-! ### What arrives -/

theorem classify_of_ne {task : CompileTask} (h : task.exitCode ≠ 0) (file : Bytes) :
    classify task.response file = .ok (some (outputOf task.response), 0) := by
  simp [classify, CompileTask.response, outputOf, h]

/-- The output of a task that ended well arrives exactly if its pack can be unpacked. -/
theorem classify_eq_done_iff {task : CompileTask} (h : task.exitCode = 0) {file : Bytes}
    {output : DistOutput} :
    classify task.response file = .ok (some output, 0) ↔
      ∃ files, tryUnpackFiles file = .ok (some files) ∧
        output = { outputOf task.response with outputFiles := files } := by
  simp only [classify, CompileTask.response, outputOf, h]
  cases hunpack : tryUnpackFiles file with
  | error fault => simp
  | ok files =>
      cases files with
      | none => simp
      | some files => simp [eq_comm]

theorem classify_ne_running (task : CompileTask) (file : Bytes) :
    classify task.response file ≠ .ok (none, 2) := by
  by_cases h : task.exitCode = 0
  · simp only [classify, CompileTask.response, outputOf, h]
    cases hunpack : tryUnpackFiles file with
    | error fault => simp
    | ok files => cases files <;> simp
  · rw [classify_of_ne h]
    simp

section Poll

variable {tokenVerifier : TokenVerifier} {token : String} (chunkSize fuel : ℕ)
  {e : Executor CompileTask} (version : UInt32) {servantTaskId : UInt64}

theorem pollServant_denied (h : tokenVerifier.verify token = false) :
    pollServant tokenVerifier chunkSize fuel e token version servantTaskId =
      some (.ok (none, 1)) := by
  simp [pollServant, serveWaitForTask, waitRequest, h, waitServantTask]

/-- Without an output the servant answers with an error status, whatever the reason. -/
theorem pollServant_absent (h : tokenVerifier.verify token = true)
    (hout : (e.waitForTask servantTaskId).2.1 = none) :
    pollServant tokenVerifier chunkSize fuel e token version servantTaskId =
      some (.ok (none, 1)) := by
  have hpair : (e.waitForTask servantTaskId).2 = (none, (e.waitForTask servantTaskId).2.2) := by
    rw [← hout]
  simp only [pollServant, serveWaitForTask, waitRequest, h]
  rw [hpair]
  simp [waitServantTask]

theorem pollServant_done (h : tokenVerifier.verify token = true) {task : CompileTask}
    (hout : (e.waitForTask servantTaskId).2.1 = some task) :
    pollServant tokenVerifier chunkSize fuel e token version servantTaskId =
      (Loop.sendFile chunkSize task.filePack fuel).map fun pieces =>
        classify task.response pieces.flatten := by
  have hserve := Cloud.serveWaitForTask_done (waitRequest token version servantTaskId) h rfl hout
    chunkSize fuel
  rw [pollServant, hserve, Option.map_map]
  simp [Function.comp_def, waitServantTask_sent]

end Poll

/-! ### When a daemon learns what the servant has -/

/-- The output of a task that has ended, and that the poll finds with its event set, arrives if its
pack can be unpacked. -/
theorem pollAgrees_of_completed {tokenVerifier : TokenVerifier} {token : String} {chunkSize : ℕ}
    {e : Executor CompileTask} (version : UInt32) {servantTaskId : UInt64} {task : CompileTask}
    (hacc : tokenVerifier.verify token = true) (hheld : standing e servantTaskId = .completed task)
    (hout : (e.waitForTask servantTaskId).2.1 = some task)
    (hpack : task.exitCode = 0 →
      1 ≤ chunkSize ∧ ∃ files, tryUnpackFiles task.filePack = .ok (some files)) :
    PollAgrees tokenVerifier chunkSize e token version servantTaskId := by
  have hpoll : (fun fuel => pollServant tokenVerifier chunkSize fuel e token version servantTaskId) =
      fun fuel => (Loop.sendFile chunkSize task.filePack fuel).map fun pieces =>
        classify task.response pieces.flatten :=
    funext fun fuel => pollServant_done chunkSize fuel version hacc hout
  simp only [PollAgrees, hpoll, Agrees, hacc, hheld, if_true]
  by_cases hexit : task.exitCode = 0
  · obtain ⟨hsize, files, hfiles⟩ := hpack hexit
    obtain ⟨pieces, hflat, hsend⟩ := Loop.sendFile_spec hsize task.filePack
    have hne : task.filePack ≠ [] := by
      intro hnil
      rw [hnil] at hfiles
      cases hfiles
    refine ⟨_, ?_, hsend.map _⟩
    rw [hflat, (classify_eq_done_iff hexit).2 ⟨files, hfiles, rfl⟩]
    exact ⟨_, rfl, { exitCode := rfl, stdOut := rfl, stdErr := rfl,
                     outputFiles := by rw [IsPackOf, if_neg hne]; exact hfiles }⟩
  · have hnil := task.packed hexit
    have hsend : Loop.Returns (Loop.sendFile chunkSize task.filePack) [] := by
      rw [hnil]
      exact Loop.sendFile_nil chunkSize
    refine ⟨_, ?_, hsend.map _⟩
    rw [classify_of_ne hexit]
    exact ⟨_, rfl, { exitCode := rfl, stdOut := rfl, stdErr := rfl,
                     outputFiles := by rw [IsPackOf, if_pos hnil]; rfl }⟩

/-- A poll that agrees with the executor on a task it finds with its event set: the compile has
ended, and, if it ended well, its pack can be unpacked. -/
theorem completed_of_pollAgrees {tokenVerifier : TokenVerifier} {token : String} {chunkSize : ℕ}
    {e : Executor CompileTask} {version : UInt32} {servantTaskId : UInt64} {task : CompileTask}
    {isRunning : Bool} (hacc : tokenVerifier.verify token = true)
    (hheld : standing e servantTaskId = if isRunning then .executing else .completed task)
    (hout : (e.waitForTask servantTaskId).2.1 = some task)
    (h : PollAgrees tokenVerifier chunkSize e token version servantTaskId) :
    isRunning = false ∧ (task.exitCode = 0 →
      1 ≤ chunkSize ∧ ∃ files, tryUnpackFiles task.filePack = .ok (some files)) := by
  obtain ⟨result, hagree, hpoll⟩ := h
  obtain ⟨fuel, hresult⟩ := hpoll.exists_eq
  rw [pollServant_done chunkSize fuel version hacc hout, Option.map_eq_some_iff] at hresult
  obtain ⟨pieces, hsend, rfl⟩ := hresult
  rw [Loop.sendFile_flatten hsend, Agrees, hacc, if_pos rfl, hheld] at hagree
  cases isRunning with
  | true => exact absurd hagree (classify_ne_running _ _)
  | false =>
      refine ⟨rfl, fun hexit => ?_⟩
      obtain ⟨output, hdone, -⟩ := hagree
      obtain ⟨files, hfiles, -⟩ := (classify_eq_done_iff hexit).1 hdone
      refine ⟨?_, files, hfiles⟩
      -- with pieces of size 0 only an empty pack is ever sent, and it cannot be unpacked
      by_contra hzero
      rw [Nat.lt_one_iff.1 (Nat.not_le.1 hzero)] at hsend
      by_cases hnil : task.filePack = []
      · rw [hnil] at hfiles
        cases hfiles
      · rw [Loop.sendFile_zero hnil] at hsend
        cases hsend

/-- **When a daemon learns what the servant has.**  Without an acceptable token it learns just that.
With one it learns the result of a compile that has ended and whose event no other poll has taken,
and, if the compile ended well, whose pack can be unpacked. -/
theorem poll_agrees_iff (tokenVerifier : TokenVerifier) (chunkSize : ℕ) (e : Executor CompileTask)
    (token : String) (version : UInt32) (servantTaskId : UInt64) :
    PollAgrees tokenVerifier chunkSize e token version servantTaskId ↔
      tokenVerifier.verify token = false ∨
      ∃ p desc, e.find servantTaskId = some (p, desc) ∧ desc.isRunning = false ∧
        desc.completionEvent = true ∧
        (desc.task.exitCode = 0 →
          1 ≤ chunkSize ∧ ∃ files, tryUnpackFiles desc.task.filePack = .ok (some files)) := by
  cases hacc : tokenVerifier.verify token with
  | false =>
      refine iff_of_true ⟨.ok (none, 1), ?_, Loop.Returns.of_forall fun fuel => ?_⟩ (Or.inl rfl)
      · rw [hacc]
        rfl
      · exact pollServant_denied chunkSize fuel version hacc
  | true =>
      rcases Cloud.waitForTask_eq e servantTaskId with
        ⟨p, desc, hfind, hevent, hout⟩ | ⟨hnone, hout⟩
      · have hout' : (e.waitForTask servantTaskId).2.1 = some desc.task := by rw [hout]
        have hheld : standing e servantTaskId =
            if desc.isRunning then .executing else .completed desc.task := by
          rw [standing, hfind]
        constructor
        · intro hagrees
          obtain ⟨hrun, hpack⟩ := completed_of_pollAgrees hacc hheld hout' hagrees
          exact Or.inr ⟨p, desc, hfind, hrun, hevent, hpack⟩
        · rintro (habs | ⟨q, desc', hfind', hrun, -, hpack⟩)
          · cases habs
          · rw [hfind] at hfind'
            obtain ⟨rfl, rfl⟩ := Prod.mk.inj (Option.some_inj.1 hfind')
            rw [hrun] at hheld
            exact pollAgrees_of_completed version hacc hheld hout' hpack
      · have hout' : (e.waitForTask servantTaskId).2.1 = none := by
          rcases hout with hout | hout <;> rw [hout]
        refine iff_of_false ?_ ?_
        · rintro ⟨result, hagree, hpoll⟩
          obtain ⟨fuel, hresult⟩ := hpoll.exists_eq
          rw [pollServant_absent chunkSize fuel version hacc hout'] at hresult
          rw [← Option.some_inj.1 hresult, Agrees, hacc, if_pos rfl] at hagree
          revert hagree
          cases standing e servantTaskId <;> simp [Standing.IsReportedBy]
        · rintro (habs | ⟨p, desc, hfind, -, hevent, -⟩)
          · cases habs
          · rw [hnone p desc hfind] at hevent
            cases hevent

/-- A servant that has just started a compile under the id `1`. -/
def busyServant : Executor CompileTask :=
  (Cloud.tryQueueTask { maxConcurrency := 1, minMemory := 0 } 7
    { exitCode := 0, stdOut := [], stdErr := [], filePack := [], extraInfo := [],
      packed := fun h => absurd rfl h } 0 100 0).1

/-- **A compile that runs is an error of the call**, although the token is acceptable. -/
theorem running_task_reported_as_error :
    standing busyServant 1 = .executing ∧
      pollServant { recognizedTokens := ["token"] } 65536 1 busyServant "token" 0 1 =
        some (.ok (none, 1)) ∧
      ¬PollAgrees { recognizedTokens := ["token"] } 65536 busyServant "token" 0 1 := by
  refine ⟨rfl, rfl, ?_⟩
  rintro ⟨result, hagree, hpoll⟩
  have habsent : (busyServant.waitForTask 1).2.1 = none := rfl
  obtain ⟨fuel, hresult⟩ := hpoll.exists_eq
  rw [pollServant_absent 65536 fuel 0 (by decide) habsent] at hresult
  rw [← Option.some_inj.1 hresult] at hagree
  revert hagree
  simp [Agrees, Standing.IsReportedBy, TokenVerifier.verify, show standing busyServant 1 = .executing from rfl]

end Local
