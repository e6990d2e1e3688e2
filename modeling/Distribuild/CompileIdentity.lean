/-
**A compile is known by the same name on both sides.**

The daemon that submits a compile knows it by a digest of the compiler, the arguments and the
source, and so does the servant that runs it; the cache is asked and filled under such a name too.
The two come to the digest of the source in different ways.  The client feeds what the preprocessor
writes to two streams at once, one that compresses and one that hashes, and the daemon is only told
the digest.  The servant gets the compressed source in pieces, decompresses it and hashes it itself.

This module embeds `client/cxx/rewrite_file.cpp` and the request that `SubmitComileTask` of
`client/cxx/compilition.cpp` makes of its result, and follows a source from the preprocessor to the
servant.

Main definitions:

* `Client.CacheControl` — the setting for the cache;
* `Client.ForwardOutStream` — a write goes to both streams;
* `Client.tryRewriteFileWithCommandLine`, `Client.rewriteFile` — the run of the preprocessor;
* `Client.submitRequest`, `Client.submittedTask` — what the daemon makes of the result.

Main results:

* `Client.ForwardOutStream.writeAll_eq` — the two streams do not know of each other;
* `Client.rewriteFile_spec` — the source becomes a frame and a digest of it;
* `Client.eq_submittedTask_of_prepare` — the task that `Prepare` makes, if it makes one;
* `Client.identified_alike` — **the servant's digest and cache key are those of the daemon**;
* `Local.sameCompile_iff_lengths` — **which lengths keep different compiles apart**: the three parts
  of an identity are hashed without anything between them.
-/

import Distribuild.CloudCxxTask

set_option relaxedAutoImplicit false
set_option autoImplicit false

namespace Client

open Scheduler (Status EnviromentDesc TokenVerifier)
open Local (FileDesc SubmitCxxTaskRequest CxxDistTask)
open Cloud (CxxCompileTask)

/-! ### The streams -/

/-- `CacheControl`.  The environment may set any number. -/
inductive CacheControl
  | disallow
  | allow
  | refill
  | other (value : ℤ)
deriving DecidableEq, Repr

def CacheControl.toInt : CacheControl → ℤ
  | .disallow => 0
  | .allow => 1
  | .refill => 2
  | .other value => value

/-- `ForwardOutStream` with the streams behind it: the one that compresses, and, unless the cache is
disallowed, the one that hashes. -/
structure ForwardOutStream (z : Compressor) (hasher : Hasher) where
  zstdOs : ZstdOutStream z := {}
  cacheOs : Option (Blake3OutStream hasher)

namespace ForwardOutStream

variable {z : Compressor} {hasher : Hasher}

/-- `Write`; nothing at all as long as it has not returned. -/
def write (fuel : ℕ) (os : ForwardOutStream z hasher) (data : Bytes) :
    Option (Option (ForwardOutStream z hasher)) :=
  (os.zstdOs.write fuel data).map fun written =>
    written.map fun zstdOs =>
      { zstdOs := zstdOs, cacheOs := os.cacheOs.map fun cacheOs => cacheOs.write data }

/-- One `Write` after the other. -/
def writeAll (fuel : ℕ) (os : ForwardOutStream z hasher) :
    List Bytes → Option (Option (ForwardOutStream z hasher))
  | [] => some (some os)
  | data :: writes =>
      (write fuel os data).bind fun written =>
        match written with
        | none => some none
        | some os => writeAll fuel os writes

/-- **The two streams do not know of each other.** -/
theorem writeAll_eq (fuel : ℕ) (os : ForwardOutStream z hasher) (writes : List Bytes) :
    os.writeAll fuel writes =
      (os.zstdOs.writeAll fuel writes).map fun written =>
        written.map fun zstdOs =>
          { zstdOs := zstdOs
            cacheOs := os.cacheOs.map fun cacheOs => writes.foldl Blake3OutStream.write cacheOs } := by
  induction writes generalizing os with
  | nil =>
      cases os with
      | mk zstdOs cacheOs => simp [writeAll, ZstdOutStream.writeAll]
  | cons data writes ih =>
      rw [writeAll, write, ZstdOutStream.writeAll]
      cases hwrite : os.zstdOs.write fuel data with
      | none => rfl
      | some written =>
          cases written with
          | none => rfl
          | some zstdOs =>
              simp [ih, Function.comp_def]

end ForwardOutStream

/-! ### The run of the preprocessor -/

section Rewrite

variable (z : Compressor) (hasher : Hasher) (fuel : ℕ)

/-- The streams that `TryRewriteFileWithCommandLine` sets up. -/
def outputStreams (cacheCntl : CacheControl) : ForwardOutStream z hasher where
  cacheOs := if cacheCntl ≠ .disallow then some {} else none

/-- `TryRewriteFileWithCommandLine`, for a command that makes these writes and has this exit code.
That the compressor succeeds is only logged. -/
def tryRewriteFileWithCommandLine (cacheCntl : CacheControl) (exitCode : ℤ) (writes : List Bytes) :
    Option (Except Fault (Option (Bytes × CacheControl × Bytes))) :=
  ((outputStreams z hasher cacheCntl).writeAll fuel writes).bind fun written =>
    match written with
    | none => some (.error .undefined)
    | some output =>
        if exitCode ≠ 0 then some (.ok none)
        else
          let cacheKey := (output.cacheOs.map fun cacheOs => cacheOs.finalize.getResult).getD []
          (output.zstdOs.getResult fuel).map fun rewritten =>
            match rewritten with
            | none => .error .undefined
            | some rewritten => .ok (some (rewritten, cacheCntl, cacheKey))

structure RewriteResult where
  directivesOnly : Bool
  cacheControl : CacheControl
  language : Bytes
  sourcePath : Bytes
  zstdRewritten : Bytes
  sourceDigest : Bytes
deriving DecidableEq, Repr

/-- The result of a run that has succeeded. -/
def rewriteResult (directivesOnly : Bool) (language sourcePath : Bytes)
    (opt : Bytes × CacheControl × Bytes) : RewriteResult where
  directivesOnly := directivesOnly
  cacheControl := opt.2.1
  language := language
  sourcePath := sourcePath
  zstdRewritten := opt.1
  sourceDigest := opt.2.2

/-- `RewriteFile`, where `runs` says for the command with and without `-fdirectives-only` which exit
code it has and what it writes, and `language` is what `DetermineLanguage` returns. -/
def rewriteFile (cacheControl : CacheControl) (language : Option Bytes) (sourcePath : Bytes)
    (runs : Bool → ℤ × List Bytes) : Option (Except Fault (Option RewriteResult)) :=
  match language with
  | none => some (.ok none)
  | some language =>
      (tryRewriteFileWithCommandLine z hasher fuel cacheControl (runs true).1 (runs true).2).bind
        fun opt =>
          match opt with
          | .error fault => some (.error fault)
          | .ok (some opt) => some (.ok (some (rewriteResult true language sourcePath opt)))
          | .ok none =>
              (tryRewriteFileWithCommandLine z hasher fuel cacheControl (runs false).1
                (runs false).2).map fun opt =>
                  opt.map fun opt => opt.map (rewriteResult false language sourcePath)

end Rewrite

/-! ### What comes of a run -/

/-- Both streams have taken everything that was written. -/
theorem returns_outputStreams {z : Compressor} (hz : z.Lawful) (hasher : Hasher)
    (cacheCntl : CacheControl) (writes : List Bytes) :
    ∃ output : ForwardOutStream z hasher, output.zstdOs.Holds writes.flatten ∧
      output.cacheOs = (if cacheCntl ≠ .disallow then
        some (writes.foldl Blake3OutStream.write {}) else none) ∧
      Loop.Returns (fun fuel => (outputStreams z hasher cacheCntl).writeAll fuel writes)
        (some output) := by
  obtain ⟨zstdOs, hholds, hwrites⟩ :=
    ZstdOutStream.returns_writeAll hz ZstdOutStream.holds_init writes
  refine ⟨{ zstdOs := zstdOs
            cacheOs := (outputStreams z hasher cacheCntl).cacheOs.map fun cacheOs =>
              writes.foldl Blake3OutStream.write cacheOs }, hholds, ?_, ?_⟩
  · rw [outputStreams]
    split <;> rfl
  · simp only [ForwardOutStream.writeAll_eq]
    exact hwrites.map _

/-- A command that fails leaves nothing. -/
theorem returns_tryRewrite_failed {z : Compressor} (hz : z.Lawful) (hasher : Hasher)
    (cacheCntl : CacheControl) {exitCode : ℤ} (hexit : exitCode ≠ 0) (writes : List Bytes) :
    Loop.Returns (fun fuel => tryRewriteFileWithCommandLine z hasher fuel cacheCntl exitCode writes)
      (.ok none) := by
  obtain ⟨output, -, -, hwrites⟩ := returns_outputStreams hz hasher cacheCntl writes
  simp only [tryRewriteFileWithCommandLine]
  refine hwrites.bind (Loop.Returns.of_forall fun fuel => ?_)
  exact if_pos hexit

/-- The digest that comes with the source: none if the cache is disallowed. -/
def sourceKey (hasher : Hasher) (cacheCntl : CacheControl) (writes : List Bytes) : Bytes :=
  if cacheCntl ≠ .disallow then
    (writes.foldl Blake3OutStream.write ({} : Blake3OutStream hasher)).finalize.getResult
  else []

/-- What a command that succeeds has written becomes a frame, whether it is hashed or not. -/
theorem returns_tryRewrite_key {z : Compressor} (hz : z.Lawful) (hasher : Hasher)
    (cacheCntl : CacheControl) (writes : List Bytes) :
    ∃ frame, z.Frame frame writes.flatten ∧
      Loop.Returns (fun fuel => tryRewriteFileWithCommandLine z hasher fuel cacheCntl 0 writes)
        (.ok (some (frame, cacheCntl, sourceKey hasher cacheCntl writes))) := by
  obtain ⟨output, hholds, hcache, hwrites⟩ := returns_outputStreams hz hasher cacheCntl writes
  obtain ⟨frame, hframe, hresult⟩ := ZstdOutStream.returns_getResult hz hholds
  refine ⟨frame, hframe, ?_⟩
  have hkey : (output.cacheOs.map fun cacheOs => cacheOs.finalize.getResult).getD [] =
      sourceKey hasher cacheCntl writes := by
    rw [hcache, sourceKey]
    split <;> rfl
  simp only [tryRewriteFileWithCommandLine]
  refine hwrites.bind ?_
  simp only [ne_eq, not_true_eq_false, if_false, hkey]
  exact hresult.map _

/-- What a command that succeeds has written becomes a frame, and the digest of it. -/
theorem returns_tryRewrite {z : Compressor} (hz : z.Lawful) {hasher : Hasher}
    (hhasher : hasher.Incremental) {cacheCntl : CacheControl} (hcntl : cacheCntl ≠ .disallow)
    (writes : List Bytes) :
    ∃ frame, z.Frame frame writes.flatten ∧
      Loop.Returns (fun fuel => tryRewriteFileWithCommandLine z hasher fuel cacheCntl 0 writes)
        (.ok (some (frame, cacheCntl, Common.encodeHex (Common.blake3 hasher [writes.flatten])))) := by
  have hkey : sourceKey hasher cacheCntl writes =
      Common.encodeHex (Common.blake3 hasher [writes.flatten]) := by
    rw [sourceKey, if_pos hcntl, Blake3OutStream.getResult_eq hhasher]
  rw [← hkey]
  exact returns_tryRewrite_key hz hasher cacheCntl writes

/-- The source that the preprocessor has written: without `-fdirectives-only` if it fails with it.
-/
def preprocessed (runs : Bool → ℤ × List Bytes) : Bytes :=
  if (runs true).1 = 0 then (runs true).2.flatten else (runs false).2.flatten

/-- **The source becomes a frame and a digest of it.** -/
theorem rewriteFile_spec {z : Compressor} (hz : z.Lawful) {hasher : Hasher}
    (hhasher : hasher.Incremental) {cacheControl : CacheControl} (hcntl : cacheControl ≠ .disallow)
    (language sourcePath : Bytes) {runs : Bool → ℤ × List Bytes}
    (hruns : (runs true).1 = 0 ∨ (runs false).1 = 0) :
    ∃ result, z.Frame result.zstdRewritten (preprocessed runs) ∧
      result.sourceDigest = Common.encodeHex (Common.blake3 hasher [preprocessed runs]) ∧
      Loop.Returns (fun fuel => rewriteFile z hasher fuel cacheControl (some language) sourcePath runs)
        (.ok (some result)) := by
  by_cases hfirst : (runs true).1 = 0
  · obtain ⟨frame, hframe, hrun⟩ := returns_tryRewrite hz hhasher hcntl (runs true).2
    rw [← hfirst] at hrun
    refine ⟨rewriteResult true language sourcePath (frame, cacheControl, _), ?_, ?_,
      hrun.bind (Loop.Returns.of_forall fun fuel => rfl)⟩
    · rw [preprocessed, if_pos hfirst]
      exact hframe
    · rw [preprocessed, if_pos hfirst]
      rfl
  · -- the second command is only run if the first one fails
    have hsecond := hruns.resolve_left hfirst
    have hfailed := returns_tryRewrite_failed hz hasher cacheControl hfirst (runs true).2
    obtain ⟨frame, hframe, hrun⟩ := returns_tryRewrite hz hhasher hcntl (runs false).2
    rw [← hsecond] at hrun
    refine ⟨rewriteResult false language sourcePath (frame, cacheControl, _), ?_, ?_,
      hfailed.bind (hrun.map _)⟩
    · rw [preprocessed, if_neg hfirst]
      exact hframe
    · rw [preprocessed, if_neg hfirst]
      rfl

/-! ### The two names -/

/-- The request that `SubmitComileTask` makes, for the process, the command line and the compiler.
-/
def submitRequest (pid : ℤ) (compilerArgs : Bytes) (compiler : FileDesc) (result : RewriteResult) :
    SubmitCxxTaskRequest where
  requestorPid := pid
  sourcePath := result.sourcePath
  sourceDigest := result.sourceDigest
  cacheControl := result.cacheControl.toInt
  compilerArgs := compilerArgs
  compiler := compiler

/-- The task that the daemon makes of it, with the digest it has of the compiler. -/
def submittedTask (pid : ℤ) (compilerArgs : Bytes) (compiler : FileDesc) (compilerDigest : String)
    (result : RewriteResult) : CxxDistTask :=
  CxxDistTask.update (submitRequest pid compilerArgs compiler result) compilerDigest
    result.zstdRewritten

/-- `Prepare` makes this task, if it makes one. -/
theorem eq_submittedTask_of_prepare {pid : ℤ} {compilerArgs : Bytes} {compiler : FileDesc}
    {compilerDigest : String} {result : RewriteResult} {status : Status} {task : CxxDistTask}
    (h : CxxDistTask.prepare (submitRequest pid compilerArgs compiler result) [result.zstdRewritten]
      (some compilerDigest) = .ok (status, some task)) :
    task = submittedTask pid compilerArgs compiler compilerDigest result := by
  rw [CxxDistTask.prepare] at h
  split at h
  · cases h
  · cases h
    rfl

/-- A servant that hashes the source to the digest it was not told knows the compile by the same
names. -/
theorem names_eq {hasher : Hasher} {task : CxxDistTask} {source : Bytes}
    (h : task.sourceDigest = Common.encodeHex (Common.blake3 hasher [source])) (token : String)
    (grantId : UInt64) (compiler workDir seen : Bytes) :
    (CxxCompileTask.update hasher (task.request token grantId) compiler workDir source
        seen).getDigest hasher = task.getDigest hasher ∧
      ∀ key, (CxxCompileTask.update hasher (task.request token grantId) compiler workDir source
        seen).getCacheKey hasher = some key → key = task.cacheKey hasher := by
  have hidentity : (CxxCompileTask.update hasher (task.request token grantId) compiler workDir source
      seen).identity = task.identity := by
    rw [CxxCompileTask.identity, CxxDistTask.identity, h]
    rfl
  refine ⟨?_, fun key hkey => ?_⟩
  · rw [CxxCompileTask.getDigest, hidentity, CxxDistTask.getDigest]
  · rw [CxxCompileTask.getCacheKey, hidentity] at hkey
    split at hkey
    · cases hkey
    · cases hkey
    · exact (Option.some_inj.1 hkey).symm

/-- **The servant's digest and cache key are those of the daemon**, however the preprocessor's
output is cut into writes and the compressed source into pieces. -/
theorem identified_alike {z : Compressor} (hz : z.Lawful) {hasher : Hasher}
    (hhasher : hasher.Incremental) {cacheControl : CacheControl} (hcntl : cacheControl ≠ .disallow)
    (language sourcePath : Bytes) {runs : Bool → ℤ × List Bytes}
    (hruns : (runs true).1 = 0 ∨ (runs false).1 = 0)
    (pid : ℤ) (compilerArgs : Bytes) (compiler : FileDesc) (compilerDigest : String)
    {chunkSize : ℕ} (hchunk : 1 ≤ chunkSize) (grantId : UInt64)
    {tokenVerifier : TokenVerifier} {token : String} (hacc : tokenVerifier.verify token = true)
    {tryGetPath : EnviromentDesc → Option Bytes} {path : Bytes}
    (hpath : tryGetPath { compilerDigest := compilerDigest } = some path) (workDir seen : Bytes) :
    ∃ result,
      Loop.Returns (fun fuel => rewriteFile z hasher fuel cacheControl (some language) sourcePath runs)
        (.ok (some result)) ∧
      ∀ task, task = submittedTask pid compilerArgs compiler compilerDigest result →
        ∃ chunks remote,
          Loop.Returns (fun fuel => task.sentChunks chunkSize fuel token grantId) chunks ∧
          Loop.Returns (fun fuel => Cloud.queueCxxTask z hasher fuel tokenVerifier tryGetPath workDir
            seen chunks) (.ok (Status.OK, some remote)) ∧
          remote.source = preprocessed runs ∧
          remote.getDigest hasher = task.getDigest hasher ∧
          ∀ key, remote.getCacheKey hasher = some key → key = task.cacheKey hasher := by
  obtain ⟨result, hframe, hdigest, hrewrite⟩ :=
    rewriteFile_spec hz hhasher hcntl language sourcePath hruns
  refine ⟨result, hrewrite, ?_⟩
  intro task htask
  have hsource : task.source = result.zstdRewritten := by
    rw [htask]
    rfl
  have henv : task.envDesc = { compilerDigest := compilerDigest } := by
    rw [htask]
    rfl
  have hdigest' : task.sourceDigest = Common.encodeHex (Common.blake3 hasher [preprocessed runs]) := by
    rw [← hdigest, htask]
    rfl
  obtain ⟨pieces, hpieces, hsent⟩ := task.sentChunks_spec hchunk token grantId
  -- the pieces make up the frame that the client has written
  have hframe' : z.Frame pieces.flatten (preprocessed runs) := by
    rw [hpieces, hsource]
    exact hframe
  have hacc' : tokenVerifier.verify (task.request token grantId).token = true := hacc
  have hpath' : tryGetPath (task.request token grantId).envDesc = some path := by
    rw [← hpath, ← henv]
    rfl
  have hqueue := Cloud.queueCxxTask_sent hz hasher hacc' hpath' rfl workDir seen hframe'
  exact ⟨_, _, hsent, hqueue, rfl, names_eq hdigest' token grantId path workDir seen⟩

/-- A source, and the arguments it is compiled with. -/
def sampleSource : Bytes := Bytes.ofString "char*t=__TIME__;\n"

def sampleArgs : Bytes := Bytes.ofString "-O2 -fpreprocessed -x c++ -"

/-- The hashes of the source, and of the compile by the compiler `c0ffee`. -/
def sampleHash (input : Bytes) : Bytes :=
  if input = sampleSource then
    [0x10, 0x08, 0x8E, 0xF7, 0x42, 0x19, 0x17, 0xA9, 0xCD, 0x5B, 0x18, 0x93, 0xE7, 0xA8, 0xD3, 0x6F,
      0x17, 0xCE, 0xC4, 0x14, 0xB9, 0xF1, 0xE2, 0x0B, 0x81, 0xC4, 0xBC, 0xD3, 0x93, 0x90, 0x08, 0x37]
  else if input = Bytes.ofString "c0ffee" ++ sampleArgs ++
      Bytes.ofString "10088ef7421917a9cd5b1893e7a8d36f17cec414b9f1e20b81c4bcd393900837" then
    [0x80, 0xFD, 0x1C, 0xA7, 0x70, 0xFD, 0x47, 0x92, 0x97, 0x40, 0xC3, 0xB7, 0xCB, 0xE1, 0x6C, 0xCB,
      0x5B, 0xDA, 0xF1, 0x20, 0x00, 0xF7, 0x77, 0xC7, 0xA1, 0x74, 0x77, 0xDE, 0x43, 0x8E, 0x43, 0x5C]
  else []

/-- The preprocessor fails with `-fdirectives-only`, and then writes the source in three parts. -/
def sampleRuns : Bool → ℤ × List Bytes
  | true => (1, [])
  | false => (0, [Bytes.ofString "char*t=", [], Bytes.ofString "__TIME__;\n"])

/-- The one compiler of a servant. -/
def samplePath (env : EnviromentDesc) : Option Bytes :=
  if env.compilerDigest = "c0ffee" then some (Bytes.ofString "/usr/bin/g++") else none

/-- A compile whose source is sent in pieces of five bytes is known alike. -/
theorem identified_sample : ∃ result,
    Loop.Returns (fun fuel => rewriteFile .rawBlocks (.collecting sampleHash) fuel .allow
      (some (Bytes.ofString "c++")) (Bytes.ofString "t.cc") sampleRuns) (.ok (some result)) ∧
    ∃ chunks remote,
      Loop.Returns (fun fuel => (submittedTask 4711 sampleArgs ⟨Bytes.ofString "/usr/bin/g++", 9, 3⟩
        "c0ffee" result).sentChunks 5 fuel "token" 7) chunks ∧
      Loop.Returns (fun fuel => Cloud.queueCxxTask .rawBlocks (.collecting sampleHash) fuel
        { recognizedTokens := ["token"] } samplePath (Bytes.ofString "/tmp/1") sampleSource chunks)
        (.ok (Status.OK, some remote)) ∧
      remote.source = sampleSource ∧
      remote.getDigest (.collecting sampleHash) = (submittedTask 4711 sampleArgs
        ⟨Bytes.ofString "/usr/bin/g++", 9, 3⟩ "c0ffee" result).getDigest (.collecting sampleHash) := by
  have hacc : ({ recognizedTokens := ["token"] } : TokenVerifier).verify "token" = true := by decide
  have hpath : samplePath { compilerDigest := "c0ffee" } = some (Bytes.ofString "/usr/bin/g++") := by
    decide
  obtain ⟨result, hrewrite, halike⟩ := identified_alike Compressor.rawBlocks_lawful
    (Hasher.collecting_incremental sampleHash) (show CacheControl.allow ≠ .disallow by decide)
    (Bytes.ofString "c++") (Bytes.ofString "t.cc") (show _ ∨ (sampleRuns false).1 = 0 from .inr rfl)
    4711 sampleArgs ⟨Bytes.ofString "/usr/bin/g++", 9, 3⟩ "c0ffee" (show 1 ≤ 5 by decide) 7 hacc hpath
    (Bytes.ofString "/tmp/1") sampleSource
  obtain ⟨chunks, remote, hsent, hqueue, hsource, hdigest, -⟩ := halike _ rfl
  exact ⟨result, hrewrite, chunks, remote, hsent, hqueue, hsource, hdigest⟩

end Client

namespace Local

open Scheduler (Status)

/-! ### Different compiles -/

/-- `Prepare` accepts the request and makes this task of it. -/
def Accepted (task : CxxDistTask) : Prop :=
  ∃ req bytes compilerDigest,
    CxxDistTask.prepare req bytes (some compilerDigest) = .ok (Status.OK, some task)

/-- How long the three parts of an identity are.  `Prepare` sees to it that the last two are not
empty. -/
structure Lengths where
  compilerDigest : ℕ
  args : ℕ
  sourceDigest : ℕ
  args_pos : 0 < args
  sourceDigest_pos : 0 < sourceDigest
deriving DecidableEq

/-- The length of what is hashed. -/
def Lengths.total (lengths : Lengths) : ℕ :=
  lengths.compilerDigest + lengths.args + lengths.sourceDigest

/-- The parts of the task's identity have these lengths. -/
def CxxDistTask.HasLengths (task : CxxDistTask) (lengths : Lengths) : Prop :=
  (Bytes.ofString task.envDesc.compilerDigest).length = lengths.compilerDigest ∧
    task.args.length = lengths.args ∧ task.sourceDigest.length = lengths.sourceDigest

/-- The two tasks are about the same compile. -/
def CxxDistTask.SameCompile (task₁ task₂ : CxxDistTask) : Prop :=
  task₁.envDesc.compilerDigest = task₂.envDesc.compilerDigest ∧ task₁.args = task₂.args ∧
    task₁.sourceDigest = task₂.sourceDigest

theorem CxxDistTask.flatten_identity (task : CxxDistTask) :
    task.identity.flatten =
      Bytes.ofString task.envDesc.compilerDigest ++ (task.args ++ task.sourceDigest) := by
  simp only [identity, List.flatten_cons, List.flatten_nil, List.append_nil]

theorem CxxDistTask.HasLengths.length_flatten {task : CxxDistTask} {lengths : Lengths}
    (h : task.HasLengths lengths) : task.identity.flatten.length = lengths.total := by
  obtain ⟨hcompiler, hargs, hsource⟩ := h
  rw [flatten_identity, List.length_append, List.length_append, hcompiler, hargs, hsource,
    Lengths.total, Nat.add_assoc]

/-- Parts of known lengths are taken out of what is hashed. -/
theorem CxxDistTask.HasLengths.sameCompile {task₁ task₂ : CxxDistTask} {lengths : Lengths}
    (h₁ : task₁.HasLengths lengths) (h₂ : task₂.HasLengths lengths)
    (h : task₁.identity.flatten = task₂.identity.flatten) : task₁.SameCompile task₂ := by
  rw [flatten_identity, flatten_identity] at h
  obtain ⟨hcompiler, hrest⟩ := List.append_inj h (h₁.1.trans h₂.1.symm)
  obtain ⟨hargs, hsource⟩ := List.append_inj hrest (h₁.2.1.trans h₂.2.1.symm)
  exact ⟨Bytes.ofString_injective hcompiler, hargs, hsource⟩

/-- A task whose identity is made of one byte over and over. -/
theorem exists_accepted_replicate (lengths : Lengths) :
    ∃ task, Accepted task ∧ task.HasLengths lengths ∧
      task.identity.flatten = List.replicate lengths.total 97 := by
  obtain ⟨digest, hdigest⟩ := Bytes.exists_ofString_eq_replicate lengths.compilerDigest
  have hargs : List.replicate lengths.args (97 : UInt8) ≠ [] :=
    List.ne_nil_of_length_pos (by rw [List.length_replicate]; exact lengths.args_pos)
  have hsource : List.replicate lengths.sourceDigest (97 : UInt8) ≠ [] :=
    List.ne_nil_of_length_pos (by rw [List.length_replicate]; exact lengths.sourceDigest_pos)
  let req : SubmitCxxTaskRequest :=
    { requestorPid := 2, sourcePath := [97], sourceDigest := List.replicate lengths.sourceDigest 97,
      cacheControl := 1, compilerArgs := List.replicate lengths.args 97,
      compiler := { path := [97], size := 1, mtime := 1 } }
  refine ⟨CxxDistTask.update req digest [97], ⟨req, [[97]], digest, ?_⟩, ⟨?_, ?_, ?_⟩, ?_⟩
  · rw [CxxDistTask.prepare, if_neg]
    rintro (hpid | hpath | hempty | hempty)
    · have htwo : (2 : ℤ) ≤ 1 := hpid
      omega
    · cases hpath
    · exact hargs hempty
    · exact hsource hempty
  · simp [CxxDistTask.update, hdigest]
  · simp [CxxDistTask.update, req]
  · simp [CxxDistTask.update, req]
  · simp only [CxxDistTask.flatten_identity, CxxDistTask.update, hdigest, req, Lengths.total,
      List.replicate_add, List.append_assoc]

/-- **Lengths that keep compiles apart**: accepted tasks with parts of these lengths are about the
same compile whenever the same bytes are hashed for them, if and only if the parts are equally long
one by one, or not even their sums are equal. -/
theorem sameCompile_iff_lengths (lengths₁ lengths₂ : Lengths) :
    (∀ task₁ task₂, Accepted task₁ → Accepted task₂ → task₁.HasLengths lengths₁ →
      task₂.HasLengths lengths₂ → task₁.identity.flatten = task₂.identity.flatten →
        task₁.SameCompile task₂) ↔
    lengths₁ = lengths₂ ∨ lengths₁.total ≠ lengths₂.total := by
  constructor
  · intro h
    by_contra hno
    rw [not_or, not_not] at hno
    obtain ⟨hne, htotal⟩ := hno
    obtain ⟨task₁, hacc₁, hlen₁, hflat₁⟩ := exists_accepted_replicate lengths₁
    obtain ⟨task₂, hacc₂, hlen₂, hflat₂⟩ := exists_accepted_replicate lengths₂
    have hflat : task₁.identity.flatten = task₂.identity.flatten := by
      rw [hflat₁, hflat₂, htotal]
    obtain ⟨hcompiler, hargs, hsource⟩ := h task₁ task₂ hacc₁ hacc₂ hlen₁ hlen₂ hflat
    -- Equal parts would have equal lengths.
    apply hne
    obtain ⟨hc₁, ha₁, hs₁⟩ := hlen₁
    obtain ⟨hc₂, ha₂, hs₂⟩ := hlen₂
    rw [hcompiler, hc₂] at hc₁
    rw [hargs, ha₂] at ha₁
    rw [hsource, hs₂] at hs₁
    cases lengths₁
    cases lengths₂
    simp only [Lengths.mk.injEq]
    exact ⟨hc₁.symm, ha₁.symm, hs₁.symm⟩
  · rintro (rfl | htotal) task₁ task₂ - - hlen₁ hlen₂ hflat
    · exact hlen₁.sameCompile hlen₂ hflat
    · exact absurd (hlen₁.length_flatten.symm.trans
        ((congrArg List.length hflat).trans hlen₂.length_flatten)) htotal

/-- The arguments `yz` of the compiler `x` and the arguments `z` of the compiler `xy`. -/
theorem sameCompile_shifted :
    ¬ ∀ task₁ task₂, Accepted task₁ → Accepted task₂ →
      task₁.identity.flatten = task₂.identity.flatten → task₁.SameCompile task₂ := by
  intro h
  let req (args : Bytes) : SubmitCxxTaskRequest :=
    { requestorPid := 2, sourcePath := Bytes.ofString "a.cpp", sourceDigest := Bytes.ofString "w",
      cacheControl := 1, compilerArgs := args,
      compiler := { path := Bytes.ofString "/usr/bin/g++", size := 1, mtime := 1 } }
  have hsame := h (CxxDistTask.update (req (Bytes.ofString "yz")) "x" [40])
    (CxxDistTask.update (req (Bytes.ofString "z")) "xy" [40])
    ⟨req (Bytes.ofString "yz"), [[40]], "x", rfl⟩ ⟨req (Bytes.ofString "z"), [[40]], "xy", rfl⟩ rfl
  exact absurd hsame.1 (by decide)

end Local
