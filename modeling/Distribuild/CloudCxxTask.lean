/-
**The task of a servant.**

A servant puts the messages of `QueueCxxTask` together again, decompresses the source and prepares a
`CxxCompileTask`: it knows the compile by the digest of the source that it has received, not by the
one that was sent.  When the compiler has ended, the task reads the files it left, compresses each
of them and packs them.  This module embeds `daemon/cloud/compile_task/cxx_task.cpp` and the intake
of `DaemonServiceImpl::QueueCxxTask`.

The cache may only be written for a source that does not ask for the time.  Another thread searches
the source for such macros; what it finds in `source_` when it gets there is an input.

Main definitions:

* `Cloud.CxxCompileTask`, with `prepare`, `getCacheKey`, `getDigest` — the task before the compile;
* `Cloud.readQueueCxxTask`, `Cloud.queueCxxTask` — the intake of `QueueCxxTask`;
* `Cloud.getOutput`, `Cloud.onCompleted` — the end of the compile.

Main results:

* `Cloud.readQueueCxxTask_sent` — **what a daemon sends is put together again**;
* `Cloud.queueCxxTask_sent` — **the task is prepared from the content of the frame that was sent**;
* `Cloud.onCompleted_eq` — the pack that a compile leaves.
-/

import Distribuild.LocalCxxTask
import Distribuild.ZstdStreams
import Mathlib.Data.List.Forall2

set_option relaxedAutoImplicit false
set_option autoImplicit false

namespace Cloud

open Scheduler (Status EnviromentDesc TokenVerifier)

/-! ### The task before the compile -/

structure CxxCompileTask where
  envDesc : EnviromentDesc
  args : Bytes
  source : Bytes
  sourcePath : Bytes
  sourceDigest : Bytes
  tempSubDir : Bytes
  cmdline : Bytes
  /-- The value of `write_cache_future_`, if there is one. -/
  writeCacheFuture : Option Bool
deriving DecidableEq, Repr

/-- `kRejectMacros`. -/
def kRejectMacros : List Bytes :=
  [Bytes.ofString "__TIME__", Bytes.ofString "__DATE__", Bytes.ofString "__TIMESTAMP__"]

/-- The value that `PrepareCachePocoTask::runTask` sets first, for the source it finds. -/
def scanSource (source : Bytes) : Bool :=
  !kRejectMacros.any fun reject => (Bytes.find reject source).isSome

/-- `PrepareCache`: the future, if the scan is started; `seen` is what the scan finds in `source_`.
-/
def prepareCache (args seen : Bytes) : Option Bool :=
  if kRejectMacros.all fun reject =>
      (Bytes.find (Bytes.ofString "-D" ++ reject ++ Bytes.ofString "=") args).isSome then none
  else some (scanSource seen)

namespace CxxCompileTask

variable (hasher : Hasher)

/-- The task that `Prepare` makes of a request and a source, for a compiler and a working directory.
(`MakeRelativeDir` returns the name of the directory it has made.) -/
def update (request : QueueCxxTaskRequest) (compiler workDir source seen : Bytes) :
    CxxCompileTask where
  envDesc := request.envDesc
  args := request.args
  source := source
  sourcePath := request.sourcePath
  sourceDigest := Common.encodeHex (Common.blake3 hasher [source])
  writeCacheFuture := if request.fillCache then prepareCache request.args seen else none
  tempSubDir := Common.encodeHex (Common.blake3 hasher [source])
  cmdline := compiler ++ Bytes.ofString " " ++ request.args ++ Bytes.ofString " -o " ++ workDir ++
    Bytes.ofString "/" ++ Common.encodeHex (Common.blake3 hasher [source]) ++
    Bytes.ofString "/output.o"

/-- The end of `Prepare`, once the source is decompressed or could not be. -/
def ofDecompressed (request : QueueCxxTaskRequest) (compiler workDir seen : Bytes) :
    Option Bytes → Status × Option CxxCompileTask
  | none => ({ code := .notFound, message := "解压缩源码失败" }, none)
  | some source => (Status.OK, some (update hasher request compiler workDir source seen))

/-- `Prepare`, where `compiler` is what `Compilers::TryGetPath` returns. -/
def prepare (z : Compressor) (fuel : ℕ) (compiler : Option Bytes) (workDir seen : Bytes)
    (request : QueueCxxTaskRequest) (file : Bytes) : Option (Status × Option CxxCompileTask) :=
  match compiler with
  | none => some ({ code := .notFound, message := "编译器不存在" }, none)
  | some compiler =>
      if request.compressType ≠ .zstd then
        some ({ code := .notFound, message := "不支持的压缩类型" }, none)
      else
        (Common.zstdDecompress z file fuel).map (ofDecompressed hasher request compiler workDir seen)

variable (task : CxxCompileTask)

/-- What is hashed for the key and for the digest. -/
def identity : List Bytes :=
  [Bytes.ofString task.envDesc.compilerDigest, task.args, task.sourceDigest]

/-- `GetCacheKey`: there is a key if the future is there and its value is `false`. -/
def getCacheKey : Option Bytes :=
  match task.writeCacheFuture with
  | none => none
  | some true => none
  | some false =>
      some (Bytes.ofString "distribuild-cxx-cache-" ++
        Common.encodeHex (Common.blake3 hasher task.identity))

def getDigest : Bytes :=
  Bytes.ofString "distribuild-cxx-digest-" ++
    Common.encodeHex (Common.blake3 hasher task.identity)

end CxxCompileTask

/-! ### The intake -/

/-- The reading loop of `QueueCxxTask`, with the request once the first message has been read, and
the file. -/
def readQueueCxxTask (tokenVerifier : TokenVerifier) :
    Option QueueCxxTaskRequest → Bytes → List QueueCxxTaskRequestChunk →
      Except Status (Option QueueCxxTaskRequest × Bytes)
  | request, file, [] => .ok (request, file)
  | none, file, chunk :: chunks =>
      match chunk.request with
      | none => .error { code := .permissionDenied, message := "rpc格式错误" }
      | some request =>
          if chunk.fileChunk.length ≠ 0 then
            .error { code := .permissionDenied, message := "rpc格式错误" }
          else if !tokenVerifier.verify request.token then
            .error { code := .permissionDenied, message := "Token验证失败" }
          else readQueueCxxTask tokenVerifier (some request) file chunks
  | some request, file, chunk :: chunks =>
      if chunk.request.isSome then .error { code := .permissionDenied, message := "rpc格式错误" }
      else readQueueCxxTask tokenVerifier (some request) (file ++ chunk.fileChunk) chunks

/-- `QueueCxxTask` up to `TryQueueTask`: the status, and the task if there is one.  Without any
message there is no request, and it is used all the same. -/
def queueCxxTask (z : Compressor) (hasher : Hasher) (fuel : ℕ) (tokenVerifier : TokenVerifier)
    (tryGetPath : EnviromentDesc → Option Bytes) (workDir seen : Bytes)
    (chunks : List QueueCxxTaskRequestChunk) :
    Option (Except Fault (Status × Option CxxCompileTask)) :=
  match readQueueCxxTask tokenVerifier none [] chunks with
  | .error status => some (.ok (status, none))
  | .ok (none, _) => some (.error .undefined)
  | .ok (some request, file) =>
      (CxxCompileTask.prepare hasher z fuel (tryGetPath request.envDesc) workDir seen request file).map
        Except.ok

theorem readQueueCxxTask_pieces (tokenVerifier : TokenVerifier) (request : QueueCxxTaskRequest)
    (file : Bytes) (pieces : List Bytes) :
    readQueueCxxTask tokenVerifier (some request) file
      (pieces.map fun piece => { fileChunk := piece }) = .ok (some request, file ++ pieces.flatten) := by
  induction pieces generalizing file with
  | nil => simp [readQueueCxxTask]
  | cons piece pieces ih =>
      rw [List.map_cons, readQueueCxxTask]
      simp [ih]

/-- **What a daemon sends is put together again.** -/
theorem readQueueCxxTask_sent {tokenVerifier : TokenVerifier} {request : QueueCxxTaskRequest}
    (h : tokenVerifier.verify request.token = true) (pieces : List Bytes) :
    readQueueCxxTask tokenVerifier none []
      ({ request := some request } :: pieces.map fun piece => { fileChunk := piece }) =
        .ok (some request, pieces.flatten) := by
  rw [readQueueCxxTask]
  simp [h, readQueueCxxTask_pieces]

/-- **The task is prepared from the content of the frame that was sent.** -/
theorem queueCxxTask_sent {z : Compressor} (hz : z.Lawful) (hasher : Hasher)
    {tokenVerifier : TokenVerifier} {request : QueueCxxTaskRequest}
    (hacc : tokenVerifier.verify request.token = true)
    {tryGetPath : EnviromentDesc → Option Bytes} {compiler : Bytes}
    (hcompiler : tryGetPath request.envDesc = some compiler) (htype : request.compressType = .zstd)
    (workDir seen : Bytes) {pieces : List Bytes} {source : Bytes}
    (hframe : z.Frame pieces.flatten source) :
    Loop.Returns (fun fuel => queueCxxTask z hasher fuel tokenVerifier tryGetPath workDir seen
        ({ request := some request } :: pieces.map fun piece => { fileChunk := piece }))
      (.ok (Status.OK, some (CxxCompileTask.update hasher request compiler workDir source seen))) := by
  have hprepare := (Common.zstdDecompress_frame hz hframe).map
    (CxxCompileTask.ofDecompressed hasher request compiler workDir seen)
  simp only [queueCxxTask, readQueueCxxTask_sent hacc, CxxCompileTask.prepare, hcompiler, htype,
    ne_eq, not_true_eq_false, if_false]
  exact hprepare.map Except.ok

/-! ### The end of the compile -/

/-- `CompileTask::Output`. -/
structure TaskOutput where
  files : List (Bytes × Bytes) := []
  extraInfo : Bytes := []
deriving DecidableEq, Repr

/-- The names of the files without their common beginning. -/
def takeSuffixes (outputPathPrefix : Bytes) (outputFiles : List (Bytes × Bytes)) :
    Except Fault (List (Bytes × Bytes)) :=
  outputFiles.mapM fun file => do
    let suffix ← Bytes.substr file.1 outputPathPrefix.length file.1.length
    return (suffix, file.2)

/-- `GetOutput`, where `outputFiles` is what `ReadAll` reads and `extraInfo` what `PackFrom` makes
of the places of the path in them. -/
def getOutput (exitCode : ℤ) (outputPathPrefix : Bytes) (outputFiles : List (Bytes × Bytes))
    (extraInfo : Bytes) : Except Fault TaskOutput :=
  if exitCode ≠ 0 then .ok {}
  else (takeSuffixes outputPathPrefix outputFiles).map fun files =>
    { files := files, extraInfo := extraInfo }

/-- Each file is compressed.  That it succeeds is only logged; the result is used. -/
def compressFiles (z : Compressor) (files : List (Bytes × Bytes)) :
    Except Fault (List (Bytes × Bytes)) :=
  files.mapM fun file =>
    match Common.zstdCompress z file.2 with
    | none => .error .undefined
    | some compressedContent => .ok (file.1, compressedContent)

/-- `CxxCompileTask::OnCompleted`, up to the cache: the result that the task then holds.
(`GetOutput` never returns an absent output.) -/
def onCompleted (z : Compressor) (exitCode : ℤ) (stdOut stdErr outputPathPrefix : Bytes)
    (outputFiles : List (Bytes × Bytes)) (extraInfo : Bytes) : Except Fault CompileTask :=
  match houtput : getOutput exitCode outputPathPrefix outputFiles extraInfo with
  | .error fault => .error fault
  | .ok output =>
      match hfiles : compressFiles z output.files with
      | .error fault => .error fault
      | .ok files =>
          .ok
            { exitCode := exitCode
              stdOut := stdOut
              stdErr := stdErr
              extraInfo := output.extraInfo
              filePack := Common.packFiles files
              packed := by
                intro hexit
                rw [getOutput, if_pos hexit] at houtput
                rw [← Except.ok.inj houtput] at hfiles
                rw [← Except.ok.inj hfiles]
                rfl }

theorem takeSuffixes_eq (outputPathPrefix : Bytes) (files : List (Bytes × Bytes)) :
    takeSuffixes outputPathPrefix (files.map fun file => (outputPathPrefix ++ file.1, file.2)) =
      .ok files := by
  induction files with
  | nil => rfl
  | cons file files ih =>
      have hsuffix : Bytes.substr (outputPathPrefix ++ file.1) outputPathPrefix.length
          (outputPathPrefix ++ file.1).length = .ok file.1 := by
        rw [Bytes.substr, if_neg (by simp), List.drop_left, List.take_of_length_le (by simp)]
      rw [takeSuffixes] at ih ⊢
      rw [List.map_cons, List.mapM_cons, hsuffix, ih]
      rfl

/-- The files, each with a frame of its content in the place of the content. -/
def Compressed (z : Compressor) : List (Bytes × Bytes) → List (Bytes × Bytes) → Prop :=
  List.Forall₂ fun file compressed => compressed.1 = file.1 ∧ z.Frame compressed.2 file.2

theorem Compressed.suffixes_eq {z : Compressor} {files compressed : List (Bytes × Bytes)}
    (h : Compressed z files compressed) :
    (compressed.map fun file => file.1) = files.map fun file => file.1 := by
  induction h with
  | nil => rfl
  | cons hpart _ ih => rw [List.map_cons, List.map_cons, ih, hpart.1]

theorem Compressed.ne_nil {z : Compressor} (hz : z.Lawful) {files compressed : List (Bytes × Bytes)}
    (h : Compressed z files compressed) : ∀ part ∈ compressed, part.2 ≠ [] := by
  induction h with
  | nil => simp
  | cons hpart _ ih =>
      intro part hmem
      rcases List.mem_cons.1 hmem with rfl | hmem
      · exact hz.frame_ne_nil _ _ hpart.2
      · exact ih part hmem

/-- Only the suffixes decide whether files can be packed. -/
theorem Compressed.packable {z : Compressor} {files compressed : List (Bytes × Bytes)}
    (h : Compressed z files compressed) (hfiles : Common.Packable files) :
    Common.Packable compressed := by
  refine ⟨fun hnil => hfiles.1 ?_, fun part hpart => ?_⟩
  · rw [hnil] at h
    exact List.forall₂_nil_right_iff.1 h
  · have hmem : part.1 ∈ compressed.map fun file => file.1 := List.mem_map_of_mem hpart
    rw [h.suffixes_eq] at hmem
    obtain ⟨file, hfile, heq⟩ := List.mem_map.1 hmem
    rw [← heq]
    exact hfiles.2 file hfile

theorem compressFiles_eq {z : Compressor} (hz : z.Lawful) (files : List (Bytes × Bytes)) :
    ∃ compressed, compressFiles z files = .ok compressed ∧ Compressed z files compressed := by
  induction files with
  | nil => exact ⟨[], rfl, List.Forall₂.nil⟩
  | cons file files ih =>
      obtain ⟨compressed, hcompressed, hframes⟩ := ih
      obtain ⟨frame, hframe⟩ := hz.compress_some file.2
      refine ⟨(file.1, frame) :: compressed, ?_, List.Forall₂.cons ⟨rfl, Or.inl hframe⟩ hframes⟩
      rw [compressFiles] at hcompressed ⊢
      rw [List.mapM_cons, hcompressed, Common.zstdCompress, hframe]
      rfl

theorem onCompleted_ok {z : Compressor} {exitCode : ℤ} {outputPathPrefix : Bytes}
    {outputFiles : List (Bytes × Bytes)} {extraInfo : Bytes} {output : TaskOutput}
    {files : List (Bytes × Bytes)} (stdOut stdErr : Bytes)
    (houtput : getOutput exitCode outputPathPrefix outputFiles extraInfo = .ok output)
    (hfiles : compressFiles z output.files = .ok files) :
    ∃ task, onCompleted z exitCode stdOut stdErr outputPathPrefix outputFiles extraInfo = .ok task ∧
      task.exitCode = exitCode ∧ task.stdOut = stdOut ∧ task.stdErr = stdErr ∧
      task.extraInfo = output.extraInfo ∧ task.filePack = Common.packFiles files := by
  unfold onCompleted
  -- The two outcomes that are given rule out the two faults.
  split
  · next fault h =>
      rw [houtput] at h
      cases h
  · next output' h =>
      have houtput' : output = output' := Except.ok.inj (houtput.symm.trans h)
      subst houtput'
      split
      · next fault h' =>
          rw [hfiles] at h'
          cases h'
      · next files' h' =>
          have hfiles' : files = files' := Except.ok.inj (hfiles.symm.trans h')
          subst hfiles'
          exact ⟨_, rfl, rfl, rfl, rfl, rfl, rfl⟩

/-- **The pack that a compile leaves** if it ends well. -/
theorem onCompleted_eq {z : Compressor} (hz : z.Lawful) (stdOut stdErr outputPathPrefix : Bytes)
    (files : List (Bytes × Bytes)) (extraInfo : Bytes) :
    ∃ task compressed, onCompleted z 0 stdOut stdErr outputPathPrefix
        (files.map fun file => (outputPathPrefix ++ file.1, file.2)) extraInfo = .ok task ∧
      Compressed z files compressed ∧ task.exitCode = 0 ∧ task.stdOut = stdOut ∧
      task.stdErr = stdErr ∧ task.extraInfo = extraInfo ∧
      task.filePack = Common.packFiles compressed := by
  obtain ⟨compressed, hcompressed, hframes⟩ := compressFiles_eq hz files
  have houtput : getOutput 0 outputPathPrefix
      (files.map fun file => (outputPathPrefix ++ file.1, file.2)) extraInfo =
        .ok { files := files, extraInfo := extraInfo } := by
    rw [getOutput, if_neg (not_not.2 rfl), takeSuffixes_eq]
    rfl
  obtain ⟨task, htask, hfields⟩ := onCompleted_ok stdOut stdErr houtput hcompressed
  exact ⟨task, compressed, htask, hframes, hfields⟩

end Cloud
