/-
**The task of a local daemon.**

A client submits a source that is already preprocessed and compressed, with the digest it has
computed of it.  The local daemon makes a `CxxDistTask` of the request, computes the digest under
which the compile is looked for in the cluster and the key under which it is looked for in the
cache, sends the source to a servant, and turns the result into the response that the client waits
for.  This module embeds `daemon/local/dist_task/cxx_task.cpp`.

The messages of `QueueCxxTask` are those of `proto/daemon.proto`, the request and the response of
the client those of `proto/http_service.proto`.

Main definitions:

* `Cloud.QueueCxxTaskRequest`, `Cloud.QueueCxxTaskRequestChunk` — the messages to a servant;
* `Local.CxxDistTask` — the task, with `prepare`, `cacheKey`, `getDigest`;
* `Local.CxxDistTask.sentChunks`, `Local.CxxDistTask.startTask` — `StartTask`: what it sends, and
  what it returns;
* `Local.rebuildOutput` — `RebuildOutput`.

Main results:

* `Local.CxxDistTask.sentChunks_spec` — **the source is sent**, all of it and in order.
-/

import Distribuild.Digest
import Distribuild.LocalWait

set_option relaxedAutoImplicit false
set_option autoImplicit false

namespace Cloud

/-- `QueueCxxTaskRequest`. -/
structure QueueCxxTaskRequest where
  token : String
  taskGrantId : UInt64
  envDesc : Scheduler.EnviromentDesc
  sourcePath : Bytes
  args : Bytes
  compressType : CompressType
  fillCache : Bool
deriving DecidableEq, Repr

structure QueueCxxTaskRequestChunk where
  request : Option QueueCxxTaskRequest := none
  fileChunk : Bytes := []
deriving DecidableEq, Repr

end Cloud

namespace Local

open Scheduler (Status EnviromentDesc)
open Cloud (QueueCxxTaskRequest QueueCxxTaskRequestChunk)

/-! ### The request of a client -/

/-- `FileDesc`. -/
structure FileDesc where
  path : Bytes
  size : UInt64
  mtime : UInt64
deriving DecidableEq, Repr

/-- `SubmitCxxTaskRequest`. -/
structure SubmitCxxTaskRequest where
  requestorPid : ℤ
  sourcePath : Bytes
  sourceDigest : Bytes
  cacheControl : ℤ
  compilerArgs : Bytes
  compiler : FileDesc
deriving DecidableEq, Repr

/-! ### The task -/

structure CxxDistTask where
  cacheControl : Bool
  requesterPid : ℤ
  envDesc : EnviromentDesc
  sourcePath : Bytes
  sourceDigest : Bytes
  args : Bytes
  source : Bytes
deriving DecidableEq, Repr

namespace CxxDistTask

/-- The task that `Prepare` makes of a request, with the digest of the compiler and the compressed
source. -/
def update (req : SubmitCxxTaskRequest) (compilerDigest : String) (source : Bytes) :
    CxxDistTask where
  cacheControl := req.cacheControl != 0
  requesterPid := req.requestorPid
  envDesc := { compilerDigest := compilerDigest }
  -- the path is overwritten by the digest
  sourcePath := req.sourceDigest
  sourceDigest := req.sourceDigest
  args := req.compilerArgs
  source := source

/-- `Prepare`, where `compiler` is what `FileCache::TryGet` returns.  The parts must not be empty:
`bytes[0]` is not checked. -/
def prepare (req : SubmitCxxTaskRequest) (bytes : List Bytes) (compiler : Option String) :
    Except Fault (Status × Option CxxDistTask) :=
  if req.requestorPid ≤ 1 ∨ req.sourcePath = [] ∨ req.compilerArgs = [] ∨ req.sourceDigest = [] then
    .ok ({ code := .invalidArgument, message := "参数错误" }, none)
  else
    match compiler with
    | none => .ok ({ code := .invalidArgument, message := "编译器不存在" }, none)
    | some compilerDigest =>
        match bytes with
        | [] => .error .undefined
        | source :: _ => .ok (Status.OK, some (update req compilerDigest source))

variable (hasher : Hasher) (task : CxxDistTask)

/-- What is hashed for the key and for the digest. -/
def identity : List Bytes :=
  [Bytes.ofString task.envDesc.compilerDigest, task.args, task.sourceDigest]

def cacheKey : Bytes :=
  Bytes.ofString "distribuild-cxx-cache-" ++
    Common.encodeHex (Common.blake3 hasher task.identity)

def getDigest : Bytes :=
  Bytes.ofString "distribuild-cxx-digest-" ++
    Common.encodeHex (Common.blake3 hasher task.identity)

/-! ### Starting the task on a servant -/

/-- The request that `StartTask` sends first. -/
def request (token : String) (grantId : UInt64) : QueueCxxTaskRequest where
  token := token
  taskGrantId := grantId
  envDesc := task.envDesc
  sourcePath := task.sourceDigest
  args := task.args
  compressType := .zstd
  fillCache := task.cacheControl

/-- The messages that `StartTask` writes, if none of them is refused. -/
def sentChunks (chunkSize fuel : ℕ) (token : String) (grantId : UInt64) :
    Option (List QueueCxxTaskRequestChunk) :=
  (Loop.sendFile chunkSize task.source fuel).map fun pieces =>
    { request := some (task.request token grantId) } ::
      pieces.map fun piece => { fileChunk := piece }

/-- **The source is sent**, all of it and in order. -/
theorem sentChunks_spec {chunkSize : ℕ} (h : 1 ≤ chunkSize) (token : String) (grantId : UInt64) :
    ∃ pieces : List Bytes, pieces.flatten = task.source ∧
      Loop.Returns (fun fuel => task.sentChunks chunkSize fuel token grantId)
        ({ request := some (task.request token grantId) } ::
          pieces.map fun piece => { fileChunk := piece }) := by
  obtain ⟨pieces, hflat, hsend⟩ := Loop.sendFile_spec h task.source
  exact ⟨pieces, hflat, hsend.map _⟩

end CxxDistTask

/-- How a call of `QueueCxxTask` goes: how many writes are accepted before one is refused, the
status with which it is finished, and the id in the response. -/
structure SubmitReply where
  acceptedWrites : ℕ
  status : Status
  taskId : UInt64
deriving DecidableEq, Repr

/-- The call is finished and well: all messages have been written, and the status is `OK`. -/
def CxxDistTask.queued (task : CxxDistTask) (chunkSize : ℕ) (reply : SubmitReply) : Bool :=
  (Loop.sendFile chunkSize task.source reply.acceptedWrites).isSome &&
    decide (reply.status.code = .ok)

/-- What `StartTask` returns.  Where a write is refused it returns `false`, which becomes an
optional that holds `0`.  (The first write is that of the request; then there is one for each piece
of the source.) -/
def CxxDistTask.startTask (task : CxxDistTask) (chunkSize : ℕ) (reply : SubmitReply) :
    Option UInt64 :=
  match Loop.sendFile chunkSize task.source reply.acceptedWrites with
  | none => some 0
  | some _ => if reply.status.code ≠ .ok then none else some reply.taskId

/-! ### The result -/

/-- `WaitForCXXTaskResponse`.  (No function sets `patches`.) -/
structure WaitForCXXTaskResponse where
  exitCode : ℤ := 0
  stdOut : Bytes := []
  stdErr : Bytes := []
  fileExtensions : List Bytes := []
deriving DecidableEq, Repr

/-- `RebuildOutput`: the response, and the contents of the files. -/
def rebuildOutput (output : DistOutput) : WaitForCXXTaskResponse × List Bytes :=
  let res : WaitForCXXTaskResponse :=
    { exitCode := output.exitCode, stdOut := output.stdOut, stdErr := output.stdErr }
  if res.exitCode < 0 then (res, [])
  else
    ({ res with fileExtensions := output.outputFiles.map fun file => file.1 },
      output.outputFiles.map fun file => file.2)

end Local
