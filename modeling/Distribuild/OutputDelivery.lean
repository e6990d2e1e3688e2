/-
**The way of the output files from the compiler to the client.**

The files that a compile leaves on a servant are compressed one by one, packed, sent in pieces to
the daemon that asked for the compile, unpacked there, and handed on to the client in a multi-chunk
whose first part is a JSON text with their suffixes.  The client takes the parts and the suffixes
together again by their places.  This module embeds the last two stations, the handler of
`/local/wait_for_cxx_task` in `daemon/local/http_service_impl.cpp` and `WaitForCloudCompileResult`
of `client/cxx/compilition.cpp`, and follows a compile that ends well over the whole way.

JSON texts are written and read by two different libraries.  Both are parameters; what is relied on
is that the one reads what the other has written.

Main definitions:

* `Client.Json`, with `member`, `asString`, `asInt` — a `Json::Value` and its accessors;
* `Client.ResponseJson`, `Client.ResponseJson.InverseAt` — the two libraries, and what is relied on;
* `Local.httpWaitForTask` — `HttpServiceImpl::WaitForTask`;
* `Client.waitForCloudCompileResult` — `WaitForCloudCompileResult`;
* `Client.deliver` — the way from the servant to the client.

Main results:

* `Client.outputFiles_eq` — the parts and the suffixes are taken together again;
* `Client.waitForCloudCompileResult_eq` — what the client makes of the answer of the daemon;
* `Client.delivered_unchanged` — **the client gets the files of the compile**, with their suffixes
  and in their order.
-/

import Distribuild.CloudCxxTask
import Distribuild.LocalPerform

set_option relaxedAutoImplicit false
set_option autoImplicit false

namespace Client

open Local (WaitForCXXTaskResponse)

/-! ### JSON values -/

/-- `Json::Value`.  A real number is known by its text and, where it is in the range of an `int`, by
its whole part.  An array has fewer than `2 ^ 32` elements and an object no key twice. -/
inductive Json
  | null
  | bool (value : Bool)
  | int (value : ℤ)
  | real (text : Bytes) (whole : Option ℤ)
  | string (text : Bytes)
  | array (elements : List Json)
  | object (members : List (Bytes × Json))

namespace Json

/-- `operator[]` with a key.  What is not there is null. -/
def member (key : String) : Json → Except Fault Json
  | .null => .ok .null
  | .object members => .ok ((members.lookup (Bytes.ofString key)).getD .null)
  | _ => .error .logicError

def asString : Json → Except Fault Bytes
  | .null => .ok []
  | .bool true => .ok (Bytes.ofString "true")
  | .bool false => .ok (Bytes.ofString "false")
  | .int value =>
      .ok (if value < 0 then Bytes.ofString "-" ++ Bytes.decimal value.natAbs
        else Bytes.decimal value.natAbs)
  | .real text _ => .ok text
  | .string text => .ok text
  | .array _ => .error .logicError
  | .object _ => .error .logicError

def asInt : Json → Except Fault ℤ
  | .null => .ok 0
  | .bool true => .ok 1
  | .bool false => .ok 0
  | .int value => if -2 ^ 31 ≤ value ∧ value < 2 ^ 31 then .ok value else .error .logicError
  | .real _ (some whole) => .ok whole
  | .real _ none => .error .logicError
  | .string _ => .error .logicError
  | .array _ => .error .logicError
  | .object _ => .error .logicError

/-- The elements that a loop up to `size()` finds with `operator[]`.  An object has a size and no
elements. -/
def elements : Json → Except Fault (List Json)
  | .array elements => .ok elements
  | .object [] => .ok []
  | .object (_ :: _) => .error .logicError
  | _ => .ok []

/-- The value that stands for a response, with the default of `patches`. -/
def document (response : WaitForCXXTaskResponse) : Json :=
  .object
    [(Bytes.ofString "exit_code", .int response.exitCode),
      (Bytes.ofString "file_extensions", .array (response.fileExtensions.map .string)),
      (Bytes.ofString "patches", .array []),
      (Bytes.ofString "std_err", .string response.stdErr),
      (Bytes.ofString "std_out", .string response.stdOut)]

end Json

/-- The bytes are the UTF-8 of a text. -/
def IsUtf8 (b : Bytes) : Prop := ∃ text : String, Bytes.ofString text = b

/-- The two libraries: `MessageToJson` on the side of the daemon, `Json::Reader` on that of the
client. -/
structure ResponseJson where
  messageToJson : WaitForCXXTaskResponse → Bytes
  parse : Bytes → Option Json

/-- Printing and parsing of a response are inverse, if its extensions are texts. -/
def ResponseJson.InverseAt (json : ResponseJson) (response : WaitForCXXTaskResponse) : Prop :=
  (∀ suffix ∈ response.fileExtensions, IsUtf8 suffix) →
    json.messageToJson response ≠ [] ∧
      json.parse (json.messageToJson response) = some (Json.document response)

/-- A response of the daemon over HTTP. -/
structure HttpResponse where
  status : ℕ := 200
  body : Bytes := []
deriving DecidableEq, Repr

end Client

/-! ### The answer of the daemon -/

namespace Local

open Client (HttpResponse)

/-- What `TaskDispatcher::WaitForTask` returns, with the output of the task if there is one. -/
inductive DispatcherResult
  | ok (output : WaitForCXXTaskResponse × List Bytes)
  | timeout
  | notFound
deriving DecidableEq, Repr

/-- `HttpServiceImpl::WaitForTask`, where `req` is the `ms_to_wait` that is parsed from the request,
or the text of the error.  (`GetOutput` never returns an absent output.) -/
def httpWaitForTask (messageToJson : WaitForCXXTaskResponse → Bytes) (req : Except Bytes UInt32)
    (result : DispatcherResult) : HttpResponse :=
  match req with
  | .error text => { status := 400, body := Bytes.ofString "解析请求失败: " ++ text }
  | .ok msToWait =>
      if 10000 < msToWait then
        { status := 400, body := Bytes.ofString "等待时间过长 `ms_to_wait`" }
      else
        match result with
        | .timeout => { status := 503 }
        | .notFound => { status := 404 }
        | .ok output =>
            { body := Common.makeMultiChunk (messageToJson output.1 :: output.2) }

/-- The output with which `PerformTask` completes a task: an exception leaves the one from before.
-/
def completedOutput : Except Fault DistOutput → Except Fault DistOutput
  | .ok output => .ok output
  | .error .undefined => .error .undefined
  | .error _ => .ok pendingOutput

end Local

namespace Client

open Scheduler (Status TokenVerifier)
open Cloud (CompileTask Executor)
open Local (WaitForCXXTaskResponse DistOutput WaitReply)

/-! ### The client -/

structure CompileResult where
  exitCode : ℤ
  stdOut : Bytes := []
  stdErr : Bytes := []
  outputFiles : List (Bytes × Bytes) := []
deriving DecidableEq, Repr

section Wait

variable (z : Compressor) (json : ResponseJson) (fuel : ℕ)

/-- The loop over the extensions, from the place `i` on: nothing in the end if a part cannot be
decompressed. -/
def outputFiles (parsed : List Bytes) :
    ℕ → List Json → Option (Except Fault (Option (List (Bytes × Bytes))))
  | _, [] => some (.ok (some []))
  | i, element :: elements =>
      match element.asString with
      | .error fault => some (.error fault)
      | .ok path =>
          match parsed[i + 1]? with
          | none => some (.error .outOfRange)
          | some part =>
              (Common.zstdDecompress z part fuel).bind fun decompressed =>
                match decompressed with
                | none => some (.ok none)
                | some content =>
                    (outputFiles parsed (i + 1) elements).map fun rest =>
                      rest.map fun files => files.map fun files => (path, content) :: files

/-- The end of `WaitForCloudCompileResult`, after the loop over the extensions. -/
def resultOf (jsonValue : Json) :
    Option (List (Bytes × Bytes)) → Except Fault CompileResult
  | none => .ok { exitCode := -1 }
  | some files => do
      let exitCode ← (← jsonValue.member "exit_code").asInt
      let stdOut ← (← jsonValue.member "std_out").asString
      let stdErr ← (← jsonValue.member "std_err").asString
      return { exitCode := exitCode, stdOut := stdOut, stdErr := stdErr, outputFiles := files }

/-- What `WaitForCloudCompileResult` makes of the body of an answer. -/
def readBody (body : Bytes) : Option (Except Fault CompileResult) :=
  match Common.tryParseMultiChunk body with
  | .error fault => some (.error fault)
  | .ok none => some (.ok { exitCode := -1 })
  | .ok (some []) => some (.ok { exitCode := -1 })
  | .ok (some (front :: parts)) =>
      match json.parse front with
      | none => some (.ok { exitCode := -1 })
      | some jsonValue =>
          match jsonValue.member "file_extensions" >>= Json.elements with
          | .error fault => some (.error fault)
          | .ok elements =>
              (outputFiles z fuel (front :: parts) 0 elements).map fun files =>
                files >>= resultOf jsonValue

/-- `WaitForCloudCompileResult` with the responses of its calls, which may fail; nothing as long as
it goes on asking.  Only `503` makes it ask again, and any status that it does not know is logged.
-/
def waitForCloudCompileResult :
    List (Option HttpResponse) → Option (Except Fault CompileResult)
  | [] => none
  | none :: _ => some (.ok { exitCode := -1 })
  | some response :: responses =>
      if response.status = 503 then waitForCloudCompileResult responses
      else if response.status = 404 then some (.ok { exitCode := -1 })
      else readBody z json fuel response.body

/-- The way from the servant to the client: the daemon polls the servant, after polls that have
failed, and the client asks the daemon, after it has asked `busy` times too early. -/
def deliver (tokenVerifier : TokenVerifier) (chunkSize : ℕ) (e : Executor CompileTask)
    (token : String) (version : UInt32) (servantTaskId : UInt64) (failed : List WaitReply)
    (busy : ℕ) : Option (Except Fault CompileResult) :=
  (Cloud.serveWaitForTask tokenVerifier chunkSize fuel e
      (Local.waitRequest token version servantTaskId)).bind fun answer =>
    match Local.completedOutput (Local.waitServantTaskLoop Local.kRetries
        (failed ++ [{ chunks := answer.2, status := answer.1 }]) Local.pendingOutput) with
    | .error fault => some (.error fault)
    | .ok output =>
        waitForCloudCompileResult z json fuel
          (List.replicate busy (some (Local.httpWaitForTask json.messageToJson (.ok 10000) .timeout)) ++
            [some (Local.httpWaitForTask json.messageToJson (.ok 10000)
              (.ok (Local.rebuildOutput output)))])

end Wait

/-! ### The suffixes and the parts -/

/-- **The parts and the suffixes are taken together again**, from any place on. -/
theorem outputFiles_eq {z : Compressor} (hz : z.Lawful) {files compressed : List (Bytes × Bytes)}
    (h : Cloud.Compressed z files compressed) {parsed : List Bytes} {i : ℕ}
    (hparsed : parsed.drop (i + 1) = compressed.map fun file => file.2) :
    Loop.Returns
      (fun fuel => outputFiles z fuel parsed i (files.map fun file => Json.string file.1))
      (.ok (some files)) := by
  induction h generalizing i with
  | nil => exact Loop.Returns.of_forall fun fuel => rfl
  | @cons file part files compressed hpart _ ih =>
      have hplace : parsed[i + 1]? = some part.2 := by
        rw [← List.head?_drop, hparsed]
        rfl
      have hnext : parsed.drop (i + 1 + 1) = compressed.map fun file => file.2 := by
        rw [← List.tail_drop, hparsed]
        rfl
      have hrest := (ih hnext).map fun rest =>
        rest.map fun files => files.map fun files => (file.1, file.2) :: files
      simp only [List.map_cons, outputFiles, Json.asString, hplace]
      exact (Common.zstdDecompress_frame hz hpart.2).bind hrest

/-- The client reads the response and the files out of a body that was made of them. -/
theorem readBody_eq {z : Compressor} (hz : z.Lawful) {json : ResponseJson}
    {response : WaitForCXXTaskResponse} (hprint : json.messageToJson response ≠ [])
    (hparse : json.parse (json.messageToJson response) = some (Json.document response))
    (hexit : -2 ^ 31 ≤ response.exitCode ∧ response.exitCode < 2 ^ 31)
    {files compressed : List (Bytes × Bytes)} (h : Cloud.Compressed z files compressed)
    (hext : response.fileExtensions = files.map fun file => file.1)
    (hsize : (json.messageToJson response :: compressed.map fun file => file.2).flatten.length <
      2 ^ 63 - 1) :
    Loop.Returns
      (fun fuel => readBody z json fuel
        (Common.makeMultiChunk (json.messageToJson response :: compressed.map fun file => file.2)))
      (.ok
        { exitCode := response.exitCode
          stdOut := response.stdOut
          stdErr := response.stdErr
          outputFiles := files }) := by
  have hparts : ∀ e ∈ json.messageToJson response :: compressed.map (fun file => file.2), e ≠ [] := by
    intro e he
    rcases List.mem_cons.1 he with rfl | he
    · exact hprint
    · obtain ⟨part, hpart, rfl⟩ := List.mem_map.1 he
      exact h.ne_nil hz part hpart
  have helements : (Json.document response).member "file_extensions" >>= Json.elements =
      .ok (files.map fun file => Json.string file.1) := by
    have hmember : (Json.document response).member "file_extensions" =
        .ok (.array (response.fileExtensions.map .string)) := rfl
    rw [hmember, hext, List.map_map]
    rfl
  have hresult : resultOf (Json.document response) (some files) =
      .ok
        { exitCode := response.exitCode
          stdOut := response.stdOut
          stdErr := response.stdErr
          outputFiles := files } := by
    have hint : (Json.int response.exitCode).asInt = .ok response.exitCode := if_pos hexit
    have hmember : (Json.document response).member "exit_code" = .ok (.int response.exitCode) := rfl
    simp only [resultOf, hmember, bind, Except.bind, hint]
    rfl
  have hfiles : Loop.Returns
      (fun fuel => outputFiles z fuel
        (json.messageToJson response :: compressed.map fun file => file.2) 0
        (files.map fun file => Json.string file.1)) (.ok (some files)) := outputFiles_eq hz h rfl
  simp only [readBody, Common.tryParseMultiChunk_makeMultiChunk hparts hsize, hparse, helements]
  rw [← hresult]
  exact hfiles.map fun files => files >>= resultOf (Json.document response)

/-- An answer that comes too early is asked for again. -/
theorem waitForCloudCompileResult_busy (z : Compressor) (json : ResponseJson) (fuel busy : ℕ)
    (responses : List (Option HttpResponse)) :
    waitForCloudCompileResult z json fuel
      (List.replicate busy (some { status := 503 }) ++ responses) =
        waitForCloudCompileResult z json fuel responses := by
  induction busy with
  | zero => rfl
  | succ busy ih =>
      rw [List.replicate_succ, List.cons_append, waitForCloudCompileResult, if_pos rfl, ih]

/-- What the client makes of the answer of the daemon, after answers that came too early. -/
theorem waitForCloudCompileResult_eq {z : Compressor} {json : ResponseJson} (busy : ℕ)
    {response : WaitForCXXTaskResponse} {buffers : List Bytes} {result : Except Fault CompileResult}
    (h : Loop.Returns (fun fuel => readBody z json fuel
      (Common.makeMultiChunk (json.messageToJson response :: buffers))) result) :
    Loop.Returns
      (fun fuel => waitForCloudCompileResult z json fuel
        (List.replicate busy (some (Local.httpWaitForTask json.messageToJson (.ok 10000) .timeout)) ++
          [some (Local.httpWaitForTask json.messageToJson (.ok 10000) (.ok (response, buffers)))]))
      result := by
  have htimeout : Local.httpWaitForTask json.messageToJson (.ok 10000) .timeout =
      { status := 503 } := rfl
  simp only [htimeout, waitForCloudCompileResult_busy]
  exact h

/-! ### The polls of the daemon -/

/-- Polls that fail are made again, as long as there are retries. -/
theorem waitServantTaskLoop_failed {failed : List WaitReply}
    (hfailed : ∀ reply ∈ failed, reply.answered = false) {reply : WaitReply} {result : DistOutput}
    (hreply : Local.waitServantTask reply = .ok (some result, 0)) {retries : ℕ}
    (hretries : failed.length < retries) (output : DistOutput) :
    Local.waitServantTaskLoop retries (failed ++ [reply]) output = .ok result := by
  induction failed generalizing retries with
  | nil =>
      obtain ⟨retries, rfl⟩ := Nat.exists_eq_add_of_lt hretries
      simp [Local.waitServantTaskLoop, hreply]
  | cons reply' failed ih =>
      obtain ⟨retries, rfl⟩ : ∃ n, retries = n + 1 := ⟨retries - 1, by omega⟩
      have herror := Local.waitServantTask_unanswered (hfailed reply' List.mem_cons_self)
      rw [List.cons_append, Local.waitServantTaskLoop, herror]
      refine ih (fun reply hmem => hfailed reply (List.mem_cons_of_mem _ hmem)) ?_
      simpa using hretries

/-! ### The whole way -/

/-- The response that the daemon makes of a compile that has ended well. -/
def responseOf (stdOut stdErr : Bytes) (files : List (Bytes × Bytes)) : WaitForCXXTaskResponse where
  stdOut := stdOut
  stdErr := stdErr
  fileExtensions := files.map fun file => file.1

/-- The servant holds the task under the id, and its event is set. -/
def IsCompleted (e : Executor CompileTask) (servantTaskId : UInt64) (task : CompileTask) : Prop :=
  ∃ p desc, e.find servantTaskId = some (p, desc) ∧ desc.completionEvent = true ∧ desc.task = task

theorem IsCompleted.waitForTask_eq {e : Executor CompileTask} {servantTaskId : UInt64}
    {task : CompileTask} (h : IsCompleted e servantTaskId task) :
    (e.waitForTask servantTaskId).2.1 = some task := by
  obtain ⟨p, desc, hfind, hevent, rfl⟩ := h
  rcases Cloud.waitForTask_eq e servantTaskId with ⟨q, desc', hfind', -, hout⟩ | ⟨hunset, -⟩
  · rw [hfind] at hfind'
    obtain ⟨rfl, rfl⟩ := Prod.mk.inj (Option.some_inj.1 hfind')
    rw [hout]
  · rw [hunset p desc hfind] at hevent
    cases hevent

/-- The daemon gets the output of a task that has ended well from the servant that holds it. -/
theorem poll_output {tokenVerifier : TokenVerifier} {token : String}
    (hacc : tokenVerifier.verify token = true) {chunkSize : ℕ} (hchunk : 1 ≤ chunkSize)
    (version : UInt32) {e : Executor CompileTask} {servantTaskId : UInt64} {task : CompileTask}
    (hheld : IsCompleted e servantTaskId task) (hexit : task.exitCode = 0)
    {files : List (Bytes × Bytes)} (hunpack : Common.tryUnpackFiles task.filePack = .ok (some files)) :
    ∃ answer, Loop.Returns (fun fuel => Cloud.serveWaitForTask tokenVerifier chunkSize fuel e
        (Local.waitRequest token version servantTaskId)) answer ∧
      Local.waitServantTask { chunks := answer.2, status := answer.1 } =
        .ok (some { Local.outputOf task.response with outputFiles := files }, 0) := by
  obtain ⟨pieces, hflat, hsend⟩ := Loop.sendFile_spec hchunk task.filePack
  refine ⟨(Status.OK, { response := some task.response } ::
    pieces.map fun piece => { fileChunk := piece }), ?_, ?_⟩
  · have hserve := Cloud.serveWaitForTask_done (Local.waitRequest token version servantTaskId) hacc rfl
      hheld.waitForTask_eq chunkSize
    simp only [hserve]
    exact hsend.map _
  · rw [Local.waitServantTask_sent, hflat]
    exact (Local.classify_eq_done_iff hexit).2 ⟨files, hunpack, rfl⟩

/-- **The client gets the files of the compile**, with their suffixes and in their order, and its
exit code, whatever the contents are and into however small pieces the pack is cut. -/
theorem delivered_unchanged {z : Compressor} (hz : z.Lawful) {json : ResponseJson}
    {tokenVerifier : TokenVerifier} {token : String} (hacc : tokenVerifier.verify token = true)
    {chunkSize : ℕ} (hchunk : 1 ≤ chunkSize) (version : UInt32)
    (stdOut stdErr outputPathPrefix extraInfo : Bytes) {files : List (Bytes × Bytes)}
    (hfiles : Common.Packable files) (hutf8 : ∀ file ∈ files, IsUtf8 file.1)
    (hjson : json.InverseAt (responseOf stdOut stdErr files))
    (hprinted : (json.messageToJson (responseOf stdOut stdErr files)).length < 2 ^ 62) :
    ∃ task, Cloud.onCompleted z 0 stdOut stdErr outputPathPrefix
        (files.map fun file => (outputPathPrefix ++ file.1, file.2)) extraInfo = .ok task ∧
      (task.filePack.length < 2 ^ 62 →
        ∀ e servantTaskId, IsCompleted e servantTaskId task →
          ∀ failed : List WaitReply, (∀ reply ∈ failed, reply.answered = false) →
            failed.length < Local.kRetries → ∀ busy,
              Loop.Returns
                (fun fuel => deliver z json fuel tokenVerifier chunkSize e token version servantTaskId
                  failed busy)
                (.ok { exitCode := 0, stdOut := stdOut, stdErr := stdErr, outputFiles := files })) := by
  obtain ⟨task, compressed, htask, hcompressed, hexit, hstdOut, hstdErr, -, hpack⟩ :=
    Cloud.onCompleted_eq hz stdOut stdErr outputPathPrefix files extraInfo
  refine ⟨task, htask, fun hsize e servantTaskId hheld failed hfailed hretries busy => ?_⟩
  have hpackable := hcompressed.packable hfiles
  -- from the servant to the daemon
  have hunpack : Common.tryUnpackFiles task.filePack = .ok (some compressed) := by
    rw [hpack] at hsize ⊢
    exact Common.tryUnpackFiles_packFiles hpackable (by omega)
  obtain ⟨answer, hserve, hpoll⟩ := poll_output hacc hchunk version hheld hexit hunpack
  have hloop := waitServantTaskLoop_failed hfailed hpoll hretries Local.pendingOutput
  have hrebuild : Local.rebuildOutput { Local.outputOf task.response with outputFiles := compressed } =
      (responseOf stdOut stdErr files, compressed.map fun file => file.2) := by
    simp [Local.rebuildOutput, Local.outputOf, CompileTask.response, responseOf, hexit, hstdOut,
      hstdErr, hcompressed.suffixes_eq]
  -- from the daemon to the client
  have hutf8' : ∀ suffix ∈ (responseOf stdOut stdErr files).fileExtensions, IsUtf8 suffix := by
    intro suffix hsuffix
    obtain ⟨file, hfile, rfl⟩ := List.mem_map.1 hsuffix
    exact hutf8 file hfile
  obtain ⟨hprint, hparse⟩ := hjson hutf8'
  have htotal : (json.messageToJson (responseOf stdOut stdErr files) ::
      compressed.map fun file => file.2).flatten.length < 2 ^ 63 - 1 := by
    have hcontents := Common.contents_length_le compressed
    rw [← hpack, List.flatMap_def] at hcontents
    rw [List.flatten_cons, List.length_append]
    omega
  have hzero : -2 ^ 31 ≤ (responseOf stdOut stdErr files).exitCode ∧
      (responseOf stdOut stdErr files).exitCode < 2 ^ 31 := by
    simp [responseOf]
  have hread := readBody_eq hz hprint hparse hzero hcompressed rfl htotal
  have hclient := waitForCloudCompileResult_eq busy hread
  simp only [deliver]
  refine hserve.bind ?_
  simp only [hloop, Local.completedOutput, hrebuild]
  exact hclient

/-- A servant on which a compile has ended, under the id `1`. -/
def finishedServant (task : CompileTask) : Executor CompileTask :=
  Cloud.reportCompletion (Cloud.onExitCallback
    (Cloud.tryQueueTask { maxConcurrency := 1, minMemory := 0 } 7 task 0 100 0).1 100 5).1 0

/-- An object file, and an empty file. -/
def sampleFiles : List (Bytes × Bytes) :=
  [(Bytes.ofString ".o", [0x7F, 0x45, 0x4C, 0x46, 44, 10]), (Bytes.ofString ".gcno", [])]

/-- The text of the response for these files. -/
def sampleText : Bytes :=
  Bytes.ofString "\x7b\n \"exit_code\": 0,\n \"std_out\": \"\",\n \"std_err\": \"\",\n \"file_extensions\": [\n  \".o\",\n  \".gcno\"\n ],\n \"patches\": []\n\x7d\n"

/-- The two libraries, on this response. -/
def sampleJson : ResponseJson where
  messageToJson _ := sampleText
  parse text := if text = sampleText then some (.document (responseOf [] [] sampleFiles)) else none

/-- Two files arrive that are sent in pieces of three bytes, after two polls have failed and the
client has asked once too early. -/
theorem delivered_sample : ∃ task,
    Cloud.onCompleted .rawBlocks 0 [] [] (Bytes.ofString "4f/output")
      (sampleFiles.map fun file => (Bytes.ofString "4f/output" ++ file.1, file.2)) [] = .ok task ∧
    Loop.Returns
      (fun fuel => deliver .rawBlocks sampleJson fuel { recognizedTokens := ["token"] } 3
        (finishedServant task) "token" 0 1
        (List.replicate 2 { chunks := [], status := { code := .notFound, message := "等待任务失败" } }) 1)
      (.ok { exitCode := 0, outputFiles := sampleFiles }) := by
  have hacc : ({ recognizedTokens := ["token"] } : TokenVerifier).verify "token" = true := by decide
  have hfiles : Common.Packable sampleFiles := by
    refine ⟨by decide, ?_⟩
    decide
  have hutf8 : ∀ file ∈ sampleFiles, IsUtf8 file.1 := by
    intro file hfile
    rcases List.mem_cons.1 hfile with rfl | hfile
    · exact ⟨".o", rfl⟩
    · rw [List.mem_singleton.1 hfile]
      exact ⟨".gcno", rfl⟩
  have hjson : sampleJson.InverseAt (responseOf [] [] sampleFiles) := by
    intro _
    refine ⟨by decide, ?_⟩
    simp [sampleJson]
  obtain ⟨task, htask, hdelivered⟩ := delivered_unchanged Compressor.rawBlocks_lawful hacc
    (show 1 ≤ 3 by decide) 0 [] [] (Bytes.ofString "4f/output") [] hfiles hutf8 hjson (by decide)
  have hpack : task.filePack.length = 41 := by
    have hlength := congrArg (fun r => (r.toOption.map CompileTask.filePack).map List.length) htask
    exact (Option.some_inj.1 hlength).symm
  refine ⟨task, htask, hdelivered ?_ _ 1 ⟨0, _, rfl, rfl, rfl⟩ _ ?_ (by decide) 1⟩
  · rw [hpack]
    decide
  · decide

end Client
