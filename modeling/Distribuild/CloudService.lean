/-
**The servant answers a poll.**

A daemon asks a servant for the result of a compile by the streaming call `WaitForTask`.  The
servant answers with a status and, before it, with messages: the first one carries the response and
the following ones the pack of files.  This module embeds `DaemonServiceImpl::WaitForTask` of
`daemon/cloud/daemon_service_impl.cpp`, the wait of the executor that it relies on, and the part of
a `CompileTask` that it reads.

A poll is looked at in the state of the executor in which its wait ends.

Main definitions:

* `Cloud.CompileTask` — the result of a compile, as the task object holds it;
* `Cloud.WaitForTaskResponse`, `Cloud.WaitForTaskResponseChunk` — the messages;
* `Cloud.Executor.waitForTask` — `Executor::WaitForTask` as a whole;
* `Cloud.serveWaitForTask` — `DaemonServiceImpl::WaitForTask`.

Main results:

* `Cloud.waitForTask_eq` — what the executor answers, by what it holds under the id;
* `Cloud.serveWaitForTask_done` — what the service then sends of a task that has ended.
-/

import Distribuild.CloudOperations
import Distribuild.Loop
import Distribuild.SchedulerService

set_option relaxedAutoImplicit false
set_option autoImplicit false

namespace Cloud

open Scheduler (Status StatusCode TokenVerifier)

/-! ### The messages -/

/-- `TaskStatus`.  A message may carry any number. -/
inductive TaskStatus
  | unknown
  | running
  | done
  | failed
  | notFound
  | other (value : ℕ)
deriving DecidableEq, Repr

/-- `CompressType`.  A message may carry any number. -/
inductive CompressType
  | unknown
  | zstd
  | other (value : ℕ)
deriving DecidableEq, Repr

structure WaitForTaskRequest where
  token : String
  taskId : UInt64
  waitMs : UInt32
  version : UInt32
  acceptableCompressTypes : List CompressType
deriving DecidableEq, Repr

/-- The defaults are those of a message that carries no field.  `extra_info` is a message of any
type, in its serialised form. -/
structure WaitForTaskResponse where
  taskStatus : TaskStatus := .unknown
  exitCode : ℤ := 0
  compressType : CompressType := .unknown
  err : Bytes := []
  output : Bytes := []
  extraInfo : Bytes := []
deriving DecidableEq, Repr

structure WaitForTaskResponseChunk where
  response : Option WaitForTaskResponse := none
  fileChunk : Bytes := []
deriving DecidableEq, Repr

/-! ### The task -/

/-- The result of a compile, as the task object holds it.  A compile that has failed leaves no
files, and `PackFiles` packs none into the empty string. -/
structure CompileTask where
  exitCode : ℤ
  stdOut : Bytes
  stdErr : Bytes
  filePack : Bytes
  extraInfo : Bytes
  packed : exitCode ≠ 0 → filePack = []

variable {τ : Type}

/-- `Executor::WaitForTask`, with the executor it leaves behind. -/
def Executor.waitForTask (e : Executor τ) (taskId : UInt64) :
    Executor τ × Option τ × ExecutionStatus :=
  match Cloud.waitForTask e taskId with
  | none => (e, none, .notFound)
  | some p =>
      match tryWait e p with
      | (e', .unknown) => (e', (e.heap p).map fun desc => desc.task, .unknown)
      | (e', status) => (e', none, status)

/-- **What the executor answers**: the task if its event is set, and nothing otherwise. -/
theorem waitForTask_eq (e : Executor τ) (taskId : UInt64) :
    (∃ p desc, e.find taskId = some (p, desc) ∧ desc.completionEvent = true ∧
      (e.waitForTask taskId).2 = (some desc.task, .unknown)) ∨
    ((∀ p desc, e.find taskId = some (p, desc) → desc.completionEvent = false) ∧
      ((e.waitForTask taskId).2 = (none, .running) ∨
        (e.waitForTask taskId).2 = (none, .notFound))) := by
  rw [Executor.waitForTask, Cloud.waitForTask]
  cases hlook : e.tasks.lookup taskId with
  | none =>
      refine Or.inr ⟨fun p desc hfind => ?_, Or.inr rfl⟩
      rw [Executor.find, hlook] at hfind
      cases hfind
  | some p =>
      cases hdesc : e.heap p with
      | none =>
          refine Or.inr ⟨fun q desc hfind => ?_, Or.inr ?_⟩
          · rw [Executor.find, hlook] at hfind
            simp [hdesc] at hfind
          · simp [tryWait, hdesc]
      | some desc =>
          have hfind : e.find taskId = some (p, desc) := by
            rw [Executor.find, hlook]
            simp [hdesc]
          cases hevent : desc.completionEvent with
          | true =>
              refine Or.inl ⟨p, desc, hfind, hevent, ?_⟩
              simp [tryWait, hdesc, hevent]
          | false =>
              refine Or.inr ⟨fun q desc' hfind' => ?_, Or.inl ?_⟩
              · rw [hfind] at hfind'
                obtain ⟨rfl, rfl⟩ := Prod.mk.inj (Option.some_inj.1 hfind')
                exact hevent
              · simp [tryWait, hdesc, hevent]

/-! ### The service -/

/-- The response of a poll for a task that has ended. -/
def CompileTask.response (task : CompileTask) : WaitForTaskResponse where
  taskStatus := .done
  exitCode := task.exitCode
  output := task.stdOut
  err := task.stdErr
  compressType := .zstd
  extraInfo := task.extraInfo

/-- `DaemonServiceImpl::WaitForTask`: the status, and the messages written before it.  Nothing if it
does not return: `at(0)` of no compress types ends the process, and the loop that sends the pack may
not be over.  For an absent output the response is filled in and not written. -/
def serveWaitForTask (tokenVerifier : TokenVerifier) (chunkSize fuel : ℕ) (e : Executor CompileTask)
    (request : WaitForTaskRequest) : Option (Status × List WaitForTaskResponseChunk) :=
  if !tokenVerifier.verify request.token then
    some ({ code := .permissionDenied, message := "Token验证失败" }, [])
  else
    match request.acceptableCompressTypes with
    | [] => none
    | compressType :: _ =>
        if compressType ≠ .zstd then
          some ({ code := .invalidArgument, message := "非法压缩类型" }, [])
        else
          match (e.waitForTask request.taskId).2 with
          | (none, _) => some ({ code := .notFound, message := "等待任务失败" }, [])
          | (some task, _) =>
              (Loop.sendFile chunkSize task.filePack fuel).map fun pieces =>
                (Status.OK, { response := some task.response } ::
                  pieces.map fun piece => { fileChunk := piece })

/-- The response and then the pack are sent of a task that has ended. -/
theorem serveWaitForTask_done {tokenVerifier : TokenVerifier} (request : WaitForTaskRequest)
    (htoken : tokenVerifier.verify request.token = true)
    (htypes : request.acceptableCompressTypes = [.zstd]) {e : Executor CompileTask}
    {task : CompileTask} (hout : (e.waitForTask request.taskId).2.1 = some task)
    (chunkSize fuel : ℕ) :
    serveWaitForTask tokenVerifier chunkSize fuel e request =
      (Loop.sendFile chunkSize task.filePack fuel).map fun pieces =>
        (Status.OK, { response := some task.response } ::
          pieces.map fun piece => { fileChunk := piece }) := by
  have hpair : (e.waitForTask request.taskId).2 =
      (some task, (e.waitForTask request.taskId).2.2) := by
    rw [← hout]
  simp only [serveWaitForTask, htoken, htypes]
  rw [hpair]
  simp

end Cloud
