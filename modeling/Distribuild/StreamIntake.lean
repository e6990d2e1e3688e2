/-
**Streams of messages between the programs.**

Files go from one program to another in pieces.  A stream begins with a message that carries the
request, or the response, and every other message carries a piece of the file.  The senders are
`CxxDistTask::StartTask` and `DaemonServiceImpl::WaitForTask`; what they send is put together again
by `DaemonServiceImpl::QueueCxxTask` and by `WaitServantTask`.

`QueueCxxTask` and `CacheServiceImpl::PutEntry` read a stream with the same loop, and they read what
anybody sends.  The loop checks the first message and then the others, but a stream without any
message goes through it as well, and the request is used behind it all the same.

Main definitions:

* `Intake.Chunk`, `Intake.read` — the reading loop, for any type of request;
* `Cache.putEntry` — `PutEntry`;
* `Intake.Safe` — what the request and the file may be behind the loop.

Main results:

* `Intake.read_spec` — **what the loop lets through**;
* `Cloud.transfer_lossless` — **what is sent in pieces arrives**, in both directions;
* `Cloud.intake_safe_iff` — **the intake is safe if and only if there is a message**.
-/

import Distribuild.OutputDelivery

set_option relaxedAutoImplicit false
set_option autoImplicit false

open Scheduler (Status StatusCode TokenVerifier)

/-! ### The reading loop -/

namespace Intake

/-- A message of a stream. -/
structure Chunk (ρ : Type) where
  request : Option ρ := none
  fileChunk : Bytes := []
deriving DecidableEq, Repr

variable {ρ : Type} (verify : ρ → Bool)

/-- The reading loop, with the request once the first message has been read, and the file. -/
def read : Option ρ → Bytes → List (Chunk ρ) → Except Status (Option ρ × Bytes)
  | request, file, [] => .ok (request, file)
  | none, file, chunk :: chunks =>
      match chunk.request with
      | none => .error { code := .permissionDenied, message := "rpc格式错误" }
      | some request =>
          if chunk.fileChunk.length ≠ 0 then
            .error { code := .permissionDenied, message := "rpc格式错误" }
          else if !verify request then
            .error { code := .permissionDenied, message := "Token验证失败" }
          else read (some request) file chunks
  | some request, file, chunk :: chunks =>
      if chunk.request.isSome then .error { code := .permissionDenied, message := "rpc格式错误" }
      else read (some request) (file ++ chunk.fileChunk) chunks

/-- What may be the case behind the loop: the call is refused, or there is a request, that of the
first message, that is acceptable, and the file is that of the other messages, none of which carries
a request. -/
def Safe (chunks : List (Chunk ρ)) : Except Status (Option ρ × Bytes) → Prop
  | .error status => status.code ≠ .ok
  | .ok (none, _) => False
  | .ok (some request, file) =>
      ∃ first rest, chunks = first :: rest ∧ first.request = some request ∧ verify request = true ∧
        (∀ chunk ∈ rest, chunk.request = none) ∧ file = rest.flatMap fun chunk => chunk.fileChunk

/-- The messages after the first: each adds a piece, and a request among them is refused. -/
theorem read_rest (request : ρ) (file : Bytes) (chunks : List (Chunk ρ)) :
    read verify (some request) file chunks =
      if ∀ chunk ∈ chunks, chunk.request = none then
        .ok (some request, file ++ chunks.flatMap fun chunk => chunk.fileChunk)
      else .error { code := .permissionDenied, message := "rpc格式错误" } := by
  induction chunks generalizing file with
  | nil => simp [read]
  | cons chunk chunks ih =>
      rw [read]
      cases hchunk : chunk.request with
      | some other => simp [hchunk]
      | none =>
          simp only [Option.isSome_none, Bool.false_eq_true, if_false, ih, List.forall_mem_cons, hchunk,
            true_and, List.flatMap_cons, List.append_assoc]

/-- **What the loop lets through**: a stream with a message in it is refused, or what comes of it is
as it should be. -/
theorem read_spec (first : Chunk ρ) (rest : List (Chunk ρ)) :
    Safe verify (first :: rest) (read verify none [] (first :: rest)) := by
  rw [read]
  cases hfirst : first.request with
  | none => exact StatusCode.noConfusion
  | some request =>
      simp only
      split_ifs with hempty hverify
      · exact StatusCode.noConfusion
      · exact StatusCode.noConfusion
      · rw [read_rest]
        split_ifs with hrest
        · refine ⟨first, rest, rfl, hfirst, ?_, hrest, List.nil_append _⟩
          simpa using hverify
        · exact StatusCode.noConfusion

/-- **A stream is safe if and only if there is a message in it.** -/
theorem safe_read_iff (chunks : List (Chunk ρ)) :
    Safe verify chunks (read verify none [] chunks) ↔ chunks ≠ [] := by
  cases chunks with
  | nil => simp [read, Safe]
  | cons first rest => exact iff_of_true (read_spec verify first rest) (List.cons_ne_nil _ _)

end Intake

namespace Cache

/-- `PutEntryRequest`. -/
structure PutEntryRequest where
  token : String
  key : String
deriving DecidableEq, Repr

/-- `PutEntryRequestChunk`. -/
abbrev PutEntryRequestChunk := Intake.Chunk PutEntryRequest

/-- The reading loop of `PutEntry`. -/
def readPutEntry (servantTokenVerifier : TokenVerifier) :
    Option PutEntryRequest → Bytes → List PutEntryRequestChunk →
      Except Status (Option PutEntryRequest × Bytes) :=
  Intake.read fun request => servantTokenVerifier.verify request.token

/-- `PutEntry`: the status, and the key and the file that it puts into the two caches, the key also
into the filter.  Without any message there is no request, and it is used all the same. -/
def putEntry (servantTokenVerifier : TokenVerifier) (chunks : List PutEntryRequestChunk) :
    Except Fault (Status × Option (String × Bytes)) :=
  match readPutEntry servantTokenVerifier none [] chunks with
  | .error status => .ok (status, none)
  | .ok (none, _) => .error .undefined
  | .ok (some request, file) => .ok (Status.OK, some (request.key, file))

/-- `PutEntry` deals safely with a stream: what its loop lets through is as it should be, and a
request that is not there is not used. -/
def PutEntrySafe (servantTokenVerifier : TokenVerifier) (chunks : List PutEntryRequestChunk) : Prop :=
  Intake.Safe (fun request => servantTokenVerifier.verify request.token) chunks
      (readPutEntry servantTokenVerifier none [] chunks) ∧
    putEntry servantTokenVerifier chunks ≠ .error .undefined

theorem putEntrySafe_iff (servantTokenVerifier : TokenVerifier) (chunks : List PutEntryRequestChunk) :
    PutEntrySafe servantTokenVerifier chunks ↔ chunks ≠ [] := by
  rw [PutEntrySafe, readPutEntry, Intake.safe_read_iff]
  refine and_iff_left_of_imp fun hne => ?_
  have hsafe := (Intake.safe_read_iff (fun request => servantTokenVerifier.verify request.token)
    chunks).2 hne
  rw [putEntry, readPutEntry]
  split
  · exact fun h => by cases h
  · next hread =>
      rw [hread] at hsafe
      exact hsafe.elim
  · exact fun h => by cases h

end Cache

namespace Cloud

/-! ### The intake of a task -/

/-- A message of `QueueCxxTask`. -/
def QueueCxxTaskRequestChunk.toChunk (chunk : QueueCxxTaskRequestChunk) :
    Intake.Chunk QueueCxxTaskRequest where
  request := chunk.request
  fileChunk := chunk.fileChunk

/-- The reading loop of `QueueCxxTask` is the same loop. -/
theorem readQueueCxxTask_eq (tokenVerifier : TokenVerifier) (request : Option QueueCxxTaskRequest)
    (file : Bytes) (chunks : List QueueCxxTaskRequestChunk) :
    readQueueCxxTask tokenVerifier request file chunks =
      Intake.read (fun request => tokenVerifier.verify request.token) request file
        (chunks.map QueueCxxTaskRequestChunk.toChunk) := by
  induction chunks generalizing request file with
  | nil => rw [readQueueCxxTask, List.map_nil, Intake.read]
  | cons chunk chunks ih =>
      cases request with
      | none =>
          rw [readQueueCxxTask, List.map_cons, Intake.read]
          simp only [QueueCxxTaskRequestChunk.toChunk, ih]
          cases chunk.request with
          | none => rfl
          | some request => rfl
      | some request =>
          rw [readQueueCxxTask, List.map_cons, Intake.read]
          simp only [QueueCxxTaskRequestChunk.toChunk, ih]
          rfl

/-- `QueueCxxTask` deals safely with a stream: what its loop lets through is as it should be, and a
request that is not there is not used, however long the decompression may take. -/
def QueueCxxTaskSafe (z : Compressor) (hasher : Hasher) (tokenVerifier : TokenVerifier)
    (tryGetPath : Scheduler.EnviromentDesc → Option Bytes) (workDir seen : Bytes)
    (chunks : List QueueCxxTaskRequestChunk) : Prop :=
  Intake.Safe (fun request => tokenVerifier.verify request.token)
      (chunks.map QueueCxxTaskRequestChunk.toChunk) (readQueueCxxTask tokenVerifier none [] chunks) ∧
    ∀ fuel, queueCxxTask z hasher fuel tokenVerifier tryGetPath workDir seen chunks ≠
      some (.error .undefined)

theorem queueCxxTaskSafe_iff (z : Compressor) (hasher : Hasher) (tokenVerifier : TokenVerifier)
    (tryGetPath : Scheduler.EnviromentDesc → Option Bytes) (workDir seen : Bytes)
    (chunks : List QueueCxxTaskRequestChunk) :
    QueueCxxTaskSafe z hasher tokenVerifier tryGetPath workDir seen chunks ↔ chunks ≠ [] := by
  have hread := readQueueCxxTask_eq tokenVerifier none [] chunks
  have hiff := Intake.safe_read_iff (fun request => tokenVerifier.verify request.token)
    (chunks.map QueueCxxTaskRequestChunk.toChunk)
  rw [QueueCxxTaskSafe, hread, hiff, ne_eq, List.map_eq_nil_iff]
  refine and_iff_left_of_imp fun hne => ?_
  have hsafe := hiff.2 (fun hnil => hne (List.map_eq_nil_iff.1 hnil))
  rw [← hread] at hsafe
  intro fuel
  rw [queueCxxTask]
  split
  · intro h
    cases h
  · next hnone =>
      rw [hnone] at hsafe
      exact hsafe.elim
  · intro h
    obtain ⟨outcome, -, hfault⟩ := Option.map_eq_some_iff.1 h
    cases hfault

/-- **The intake is safe if and only if there is a message**, in both services and whoever sends. -/
theorem intake_safe_iff (z : Compressor) (hasher : Hasher)
    (tokenVerifier servantTokenVerifier : TokenVerifier)
    (tryGetPath : Scheduler.EnviromentDesc → Option Bytes) (workDir seen : Bytes)
    (queueChunks : List QueueCxxTaskRequestChunk) (putChunks : List Cache.PutEntryRequestChunk) :
    (QueueCxxTaskSafe z hasher tokenVerifier tryGetPath workDir seen queueChunks ↔
        queueChunks ≠ []) ∧
      (Cache.PutEntrySafe servantTokenVerifier putChunks ↔ putChunks ≠ []) :=
  ⟨queueCxxTaskSafe_iff z hasher tokenVerifier tryGetPath workDir seen queueChunks,
    Cache.putEntrySafe_iff servantTokenVerifier putChunks⟩

/-- A client that sends nothing. -/
theorem intake_unsafe :
    ¬ ∀ (z : Compressor) (hasher : Hasher) (tokenVerifier servantTokenVerifier : TokenVerifier)
      (tryGetPath : Scheduler.EnviromentDesc → Option Bytes) (workDir seen : Bytes)
      (queueChunks : List QueueCxxTaskRequestChunk) (putChunks : List Cache.PutEntryRequestChunk),
      QueueCxxTaskSafe z hasher tokenVerifier tryGetPath workDir seen queueChunks ∧
        Cache.PutEntrySafe servantTokenVerifier putChunks := by
  intro hall
  obtain ⟨hqueue, -⟩ := hall Compressor.rawBlocks (Hasher.collecting id)
    { recognizedTokens := ["token"] } { recognizedTokens := ["token"] }
    (fun _ => some (Bytes.ofString "/usr/bin/g++")) (Bytes.ofString "/tmp/w") [] [] []
  exact hqueue.2 0 rfl

/-! ### What is sent arrives -/

/-- **What is sent in pieces arrives**, for every size of the pieces.  A task that `StartTask` sends
is let through by the loop of `QueueCxxTask` as the request and the source; and a result that
`WaitForTask` sends is put together by `WaitServantTask` as the response and the pack.  The loops of
the senders end. -/
theorem transfer_lossless {chunkSize : ℕ} (hsize : 1 ≤ chunkSize) (tokenVerifier : TokenVerifier)
    {token : String} (hacc : tokenVerifier.verify token = true) :
    (∀ (task : Local.CxxDistTask) (grantId : UInt64), ∃ chunks,
      Loop.Returns (fun fuel => task.sentChunks chunkSize fuel token grantId) chunks ∧
      readQueueCxxTask tokenVerifier none [] chunks =
        .ok (some (task.request token grantId), task.source)) ∧
    ∀ (e : Executor CompileTask) (version : UInt32) (servantTaskId : UInt64) (task : CompileTask),
      (e.waitForTask servantTaskId).2.1 = some task → ∃ chunks,
        Loop.Returns (fun fuel => serveWaitForTask tokenVerifier chunkSize fuel e
          (Local.waitRequest token version servantTaskId)) (Status.OK, chunks) ∧
        Local.readChunks chunks = (task.response, task.filePack) ∧
        Local.waitServantTask { chunks := chunks, status := Status.OK } =
          Local.classify task.response task.filePack := by
  constructor
  · intro task grantId
    obtain ⟨pieces, hflat, hsent⟩ := task.sentChunks_spec hsize token grantId
    refine ⟨_, hsent, ?_⟩
    rw [readQueueCxxTask_sent hacc, hflat]
  · intro e version servantTaskId task hout
    obtain ⟨pieces, hflat, hsend⟩ := Loop.sendFile_spec hsize task.filePack
    have hserve := fun fuel => serveWaitForTask_done (Local.waitRequest token version servantTaskId)
      hacc rfl hout chunkSize fuel
    refine ⟨{ response := some task.response } :: pieces.map fun piece => { fileChunk := piece },
      ?_, ?_, ?_⟩
    · simp only [hserve]
      exact hsend.map _
    · rw [Local.readChunks_sent, hflat]
    · rw [Local.waitServantTask_sent, hflat]

/-- A source of seven bytes and a pack of four, in pieces of three bytes. -/
theorem transfer_lossless_sample :
    let task : Local.CxxDistTask :=
      { cacheControl := true, requesterPid := 2, envDesc := { compilerDigest := "c" },
        sourcePath := Bytes.ofString "d", sourceDigest := Bytes.ofString "d",
        args := Bytes.ofString "-O2", source := Bytes.ofString "int x;\n" }
    let result : CompileTask :=
      { exitCode := 0, stdOut := [], stdErr := [], filePack := Bytes.ofString "pack", extraInfo := [],
        packed := fun h => absurd rfl h }
    (∃ chunks, Loop.Returns (fun fuel => task.sentChunks 3 fuel "token" 7) chunks ∧
      readQueueCxxTask { recognizedTokens := ["token"] } none [] chunks =
        .ok (some (task.request "token" 7), Bytes.ofString "int x;\n")) ∧
    ∃ chunks, Loop.Returns (fun fuel => serveWaitForTask { recognizedTokens := ["token"] } 3 fuel
        (Client.finishedServant result) (Local.waitRequest "token" 0 1)) (Status.OK, chunks) ∧
      Local.readChunks chunks = (result.response, Bytes.ofString "pack") := by
  intro task result
  have hacc : ({ recognizedTokens := ["token"] } : TokenVerifier).verify "token" = true := by decide
  obtain ⟨hstart, hwait⟩ := transfer_lossless (show 1 ≤ 3 by decide) _ hacc
  obtain ⟨chunks, hserve, hread, -⟩ := hwait (Client.finishedServant result) 0 1 result rfl
  exact ⟨hstart task 7, chunks, hserve, hread⟩

end Cloud
