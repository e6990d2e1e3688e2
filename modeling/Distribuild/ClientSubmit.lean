/-
**A request of the client, and whether the daemon accepts it.**

The client decides by itself whether a compile may be sent away, runs the preprocessor and builds
the request; the daemon on the same machine checks the request before it makes a task of it.  Each
of the two looks right alone.  The client hashes the source only if the cache is allowed, because
nothing else asks for the digest on its side; the daemon refuses a request without a digest, because
a task is known by it.  So whoever sets `CACHE_CONTROL` to `0` has every compile refused.  And the
client takes an empty argument for a file name, which the daemon refuses as well.

This module embeds the part of `client/client.cpp` and `client/cxx/rewrite_file.cpp` that leads from
a command line to `CompileOnCloud`, and the request that `SubmitComileTask` of
`client/cxx/compilition.cpp` makes there.  What the preprocessor does with a command and what
`lstat` says of the compiler are inputs.

Main definitions:

* `Client.getCacheControl` — the setting for the cache, as the environment has it;
* `Client.isDistributable` — which command lines may be sent away;
* `Client.determineLanguage`, `Client.CompilerArgs.rewriteFile` — `RewriteFile`, for a command line;
* `Client.submitComileTask` — the request;
* `Client.Accepts` — the daemon accepts it.

Main results:

* `Client.rewriteFile_fields` — what `RewriteFile` puts into its result;
* `Client.accepts_iff_fields` — which requests are accepted;
* `Client.accepts_iff` — **when the client's request is accepted**: exactly if the cache is not
  disallowed and the name of the source is not empty;
* `Client.refused_without_cache` — a compile that is refused.
-/

import Distribuild.ClientArgs
import Distribuild.CompileIdentity
import Distribuild.LocalHttpService

set_option relaxedAutoImplicit false
set_option autoImplicit false

namespace Client

open Scheduler (Status)
open Local (FileDesc SubmitCxxTaskRequest CxxDistTask FileCache)

/-! ### The setting for the cache -/

/-- `std::stoi`. -/
def stoi (s : Bytes) : Except Fault ℤ := do
  let value ← Bytes.stol s
  if value < -2 ^ 31 ∨ 2 ^ 31 ≤ value then .error .outOfRange else .ok value

/-- `static_cast<CacheControl>`. -/
def CacheControl.ofInt : ℤ → CacheControl
  | 0 => .disallow
  | 1 => .allow
  | 2 => .refill
  | value => .other value

/-- `GetCacheControl`, where `env` is what `getenv("CACHE_CONTROL")` returns. -/
def getCacheControl : Option Bytes → Except Fault CacheControl
  | none => .ok .allow
  | some env => (stoi env).map .ofInt

/-! ### From a command line to a result -/

/-- `IsDistributable`. -/
def isDistributable (args : CompilerArgs) : Bool :=
  (args.tryGet (Bytes.ofString "-c")).isSome && (args.tryGet (Bytes.ofString "-")).isNone &&
    match args.filenames with
    | [filename] =>
        !(endWith filename (Bytes.ofString ".s") || endWith filename (Bytes.ofString ".S"))
    | _ => false

/-- `DetermineLanguage`. -/
def determineLanguage (args : CompilerArgs) : Except Fault (Option Bytes) :=
  match args.tryGet (Bytes.ofString "-x") with
  | some (some value :: _) => .ok (some value)
  | some _ => .error .undefined
  | none =>
      match args.filenames with
      | [] => .error .undefined
      | filename :: _ =>
          if endWith filename (Bytes.ofString ".cc") || endWith filename (Bytes.ofString ".cpp") ||
              endWith filename (Bytes.ofString ".cxx") then
            .ok (some (Bytes.ofString "c++"))
          else if endWith filename (Bytes.ofString ".c") then .ok (some (Bytes.ofString "c"))
          else .ok none

/-- The options that the preprocessor is not given. -/
def kIgnorePreprocessArgs : List Bytes := List.map Bytes.ofString ["-c", "-o", "-fworking-directory"]

/-- The command that runs the preprocessor, with or without `-fdirectives-only`. -/
def preprocessCommand (args : CompilerArgs) (directivesOnly : Bool) : Except Fault RewrittenArgs :=
  args.rewrite kIgnorePreprocessArgs []
    (List.map Bytes.ofString
      (if directivesOnly then ["-fno-working-directory", "-E", "-fdirectives-only"]
      else ["-fno-working-directory", "-E"]))
    true

/-- What `RewriteFile` finds out before it runs the preprocessor: the language, the setting for the
cache and the two commands. -/
def prepareRewrite (env : Option Bytes) (args : CompilerArgs) :
    Except Fault (Option (Bytes × CacheControl × (Bool → RewrittenArgs))) := do
  match ← determineLanguage args with
  | none => return none
  | some language =>
      let cacheControl ← getCacheControl env
      let command ← preprocessCommand args true
      let retry ← preprocessCommand args false
      return some (language, cacheControl, fun directivesOnly =>
        if directivesOnly then command else retry)

/-- `RewriteFile`, where `execute` says of a command which exit code it has and what it writes. -/
def CompilerArgs.rewriteFile (z : Compressor) (hasher : Hasher) (fuel : ℕ) (env : Option Bytes)
    (execute : RewrittenArgs → ℤ × List Bytes) (args : CompilerArgs) :
    Option (Except Fault (Option RewriteResult)) :=
  match args.filenames, prepareRewrite env args with
  | [], _ => some (.error .undefined)
  | _, .error fault => some (.error fault)
  | _, .ok none => some (.ok none)
  | filename :: _, .ok (some (language, cacheControl, command)) =>
      Client.rewriteFile z hasher fuel cacheControl (some language) filename fun directivesOnly =>
        execute (command directivesOnly)

/-! ### The request -/

def kIgnoreCloudArgs : List Bytes :=
  List.map Bytes.ofString ["-MMD", "-MF", "-MD", "-MT", "-MP", "-o", "-Wmissing-include-dirs"]

def kIgnoreCloudPrefixes : List Bytes :=
  List.map Bytes.ofString ["-Wp,-MMD", "-Wp,-MF", "-Wp,-MD", "-Wp,-MD", "-Wp,-MP", "-I", "-include",
    "-isystem"]

/-- The command line of the remote compile. -/
def cloudCommand (args : CompilerArgs) (result : RewriteResult) : Except Fault RewrittenArgs :=
  args.rewrite kIgnoreCloudArgs kIgnoreCloudPrefixes
    [Bytes.ofString "-fpreprocessed",
      if result.directivesOnly then Bytes.ofString "-fdirectives-only" else [], Bytes.ofString "-x",
      result.language, Bytes.ofString "-"]
    false

/-- The request that `SubmitComileTask` sends.  `GetFileModifytimeAndSize` returns the time first.
-/
def submitComileTask (pid : ℤ) (getFileModifytimeAndSize : Bytes → UInt64 × UInt64)
    (args : CompilerArgs) (result : RewriteResult) : Except Fault SubmitCxxTaskRequest := do
  let (mtime, size) := getFileModifytimeAndSize args.compiler
  let command ← cloudCommand args result
  return submitRequest pid (command.toCommandLine false)
    { path := args.compiler, size := size, mtime := mtime } result

/-- **The daemon accepts the request**: `Prepare` makes a task of it. -/
def Accepts (cache : FileCache) (req : SubmitCxxTaskRequest) (source : Bytes) : Prop :=
  ∃ task, CxxDistTask.prepare req [source]
    (cache.tryGet req.compiler.path req.compiler.size req.compiler.mtime) = .ok (Status.OK, some task)

/-! ### What is accepted -/

/-- **Which requests are accepted**, of those whose compiler is known. -/
theorem accepts_iff_fields {cache : FileCache} {req : SubmitCxxTaskRequest} {digest : String}
    (hcache : cache.tryGet req.compiler.path req.compiler.size req.compiler.mtime = some digest)
    (source : Bytes) :
    Accepts cache req source ↔
      1 < req.requestorPid ∧ req.sourcePath ≠ [] ∧ req.compilerArgs ≠ [] ∧ req.sourceDigest ≠ [] := by
  rw [Accepts, hcache, CxxDistTask.prepare, ← not_le, ← not_or, ← not_or, ← not_or]
  by_cases hfault : req.requestorPid ≤ 1 ∨ req.sourcePath = [] ∨ req.compilerArgs = [] ∨
      req.sourceDigest = []
  · rw [if_pos hfault]
    refine iff_of_false ?_ (not_not_intro hfault)
    rintro ⟨task, htask⟩
    cases htask
  · rw [if_neg hfault]
    exact iff_of_true ⟨_, rfl⟩ hfault

/-! ### What is put into the request -/

/-- Something is written for every byte. -/
theorem escapeByte_ne_nil (b : UInt8) : Common.escapeByte b ≠ [] := by
  rw [Common.escapeByte]
  split
  · exact List.cons_ne_nil _ _
  · split <;> exact List.cons_ne_nil _ _

/-- A command line with an argument that is not empty is not empty. -/
theorem toCommandLine_ne_nil {args : RewrittenArgs} {arg : Bytes} (hmem : arg ∈ args.args_)
    (hne : arg ≠ []) : args.toCommandLine false ≠ [] := by
  intro hempty
  have hblank := args.toCommandLine_blank (List.ne_nil_of_mem hmem)
  rw [hempty, List.nil_append] at hblank
  -- the first byte of the argument is written before the blank behind it
  obtain ⟨b, rest, rfl⟩ := List.exists_cons_of_ne_nil hne
  have hlength : 1 < (Common.escapeCommandArgument (b :: rest) ++ [32]).length := by
    have hpos := List.length_pos_iff.2 (escapeByte_ne_nil b)
    rw [Common.escapeCommandArgument, List.flatMap_cons]
    simp only [List.length_append, List.length_singleton]
    omega
  have hle : (Common.escapeCommandArgument (b :: rest) ++ [32]).length ≤
      (args.args_.flatMap fun e => Common.escapeCommandArgument e ++ [32]).length := by
    refine List.Sublist.length_le (List.sublist_flatten_of_mem ?_)
    exact List.mem_map.2 ⟨b :: rest, hmem, rfl⟩
  rw [← hblank, List.length_singleton] at hle
  omega

/-- The digest of a stream is not empty. -/
theorem getResult_ne_nil {hasher : Hasher} (hlen : hasher.OutLen) (os : Blake3OutStream hasher) :
    os.finalize.getResult ≠ [] := by
  intro hempty
  have hdigits : ∀ e, printfHex e ≠ [] := by
    intro e
    rw [printfHex_eq]
    exact List.cons_ne_nil _ _
  have hnone : os.finalize.digest = [] := by
    rw [Blake3OutStream.getResult, List.flatMap_eq_nil_iff] at hempty
    exact List.eq_nil_iff_forall_not_mem.2 fun e he => hdigits e (hempty e he)
  have hlength : os.finalize.digest.length = 32 := hlen os.state
  rw [hnone] at hlength
  cases hlength

/-- The digest that a run of the preprocessor brings: there is one exactly if the cache is not
disallowed. -/
theorem tryRewrite_fields {z : Compressor} {hasher : Hasher} (hlen : hasher.OutLen) {fuel : ℕ}
    {cacheCntl : CacheControl} {exitCode : ℤ} {writes : List Bytes} {opt : Bytes × CacheControl × Bytes}
    (h : tryRewriteFileWithCommandLine z hasher fuel cacheCntl exitCode writes =
      some (.ok (some opt))) :
    opt.2.1 = cacheCntl ∧ (opt.2.2 = [] ↔ cacheCntl = .disallow) := by
  rw [tryRewriteFileWithCommandLine, ForwardOutStream.writeAll_eq] at h
  obtain ⟨written, hwritten, h⟩ := Option.bind_eq_some_iff.1 h
  obtain ⟨zstd, -, rfl⟩ := Option.map_eq_some_iff.1 hwritten
  cases zstd with
  | none => cases h
  | some zstdOs =>
      dsimp only [Option.map_some] at h
      split_ifs at h with hexit
      · cases h
      · obtain ⟨rewritten, -, hopt⟩ := Option.map_eq_some_iff.1 h
        cases rewritten with
        | none => cases hopt
        | some rewritten =>
            have hopt := Option.some_inj.1 (Except.ok.inj hopt)
            subst hopt
            refine ⟨rfl, ?_⟩
            by_cases hcntl : cacheCntl = .disallow
            · exact iff_of_true (by simp [outputStreams, hcntl]) hcntl
            · refine iff_of_false ?_ hcntl
              simp only [outputStreams, ne_eq, hcntl, not_false_eq_true, if_true, Option.map_some,
                Option.getD_some]
              exact getResult_ne_nil hlen _

/-- **What `RewriteFile` puts into its result**: the name of the source, and a digest exactly if the
cache is not disallowed. -/
theorem rewriteFile_fields {z : Compressor} {hasher : Hasher} (hlen : hasher.OutLen) {fuel : ℕ}
    {cacheControl : CacheControl} {language : Option Bytes} {sourcePath : Bytes}
    {runs : Bool → ℤ × List Bytes} {result : RewriteResult}
    (h : rewriteFile z hasher fuel cacheControl language sourcePath runs = some (.ok (some result))) :
    result.sourcePath = sourcePath ∧ (result.sourceDigest = [] ↔ cacheControl = .disallow) := by
  cases language with
  | none => cases Except.ok.inj (Option.some_inj.1 h)
  | some language =>
      rw [rewriteFile] at h
      obtain ⟨first, hfirst, h⟩ := Option.bind_eq_some_iff.1 h
      cases first with
      | error fault => cases Option.some_inj.1 h
      | ok opt =>
          cases opt with
          | some opt =>
              have hresult := Option.some_inj.1 (Except.ok.inj (Option.some_inj.1 h))
              subst hresult
              exact ⟨rfl, (tryRewrite_fields hlen hfirst).2⟩
          | none =>
              -- the second run, without `-fdirectives-only`
              obtain ⟨second, hsecond, h⟩ := Option.map_eq_some_iff.1 h
              cases second with
              | error fault => cases h
              | ok opt =>
                  cases opt with
                  | none => cases Except.ok.inj h
                  | some opt =>
                      have hresult := Option.some_inj.1 (Except.ok.inj h)
                      subst hresult
                      exact ⟨rfl, (tryRewrite_fields hlen hsecond).2⟩

/-! ### The request of a command line -/

/-- A command line that may be sent away has one source. -/
theorem filenames_of_isDistributable {args : CompilerArgs} (h : isDistributable args = true) :
    ∃ filename, args.filenames = [filename] := by
  rw [isDistributable, Bool.and_eq_true] at h
  obtain ⟨-, hfile⟩ := h
  split at hfile
  · next filename hfilenames => exact ⟨filename, hfilenames⟩
  · cases hfile

/-- An option that is to be kept on the way to the cloud is kept for the preprocessor, if the option
is one with a value. -/
theorem keeps_preprocess {k : Bytes} (hmem : k ∈ kOneValueArguments)
    (h : CompilerArgs.keeps kIgnoreCloudArgs kIgnoreCloudPrefixes k = true) :
    CompilerArgs.keeps kIgnorePreprocessArgs [] k = true := by
  have hall : (kOneValueArguments.all fun k =>
      !CompilerArgs.keeps kIgnoreCloudArgs kIgnoreCloudPrefixes k ||
        CompilerArgs.keeps kIgnorePreprocessArgs [] k) = true := by
    decide +kernel
  have hk := List.all_eq_true.1 hall k hmem
  rwa [h, Bool.not_true, Bool.false_or] at hk

/-- The command line of the remote compile can be made if that of the preprocessor could, and it is
not empty. -/
theorem cloudCommand_of_preprocessCommand {compiler : Bytes} {argv : List Bytes} {args : CompilerArgs}
    (hargs : CompilerArgs.ofArgv compiler argv = .ok args) {directivesOnly : Bool}
    {command : RewrittenArgs} (hcommand : preprocessCommand args directivesOnly = .ok command)
    (result : RewriteResult) :
    ∃ cloud, cloudCommand args result = .ok cloud ∧ cloud.toCommandLine false ≠ [] := by
  have hparse : args.args = (CompilerArgs.parse argv).1 := by
    rw [CompilerArgs.ofArgv] at hargs
    split_ifs at hargs with hempty
    rw [← Except.ok.inj hargs]
  have hnull : ¬CompilerArgs.KeepsNull kIgnorePreprocessArgs [] args.args := by
    intro hnull
    rw [preprocessCommand, CompilerArgs.rewrite_spec, if_pos hnull] at hcommand
    cases hcommand
  have hcloud : ¬CompilerArgs.KeepsNull kIgnoreCloudArgs kIgnoreCloudPrefixes args.args := by
    rintro ⟨e, he, hkeeps, hvalue⟩
    rw [hparse] at he
    have hmem := CompilerArgs.mem_kOneValueArguments_of_null he hvalue
    exact hnull ⟨e, hparse ▸ he, keeps_preprocess hmem hkeeps, hvalue⟩
  have hne : Bytes.ofString "-fpreprocessed" ≠ [] := by decide
  refine ⟨_, by rw [cloudCommand, CompilerArgs.rewrite_spec, if_neg hcloud],
    toCommandLine_ne_nil ?_ hne⟩
  simp

/-- What `RewriteFile` has found out when it succeeds. -/
theorem rewriteFile_eq_some {z : Compressor} {hasher : Hasher} {fuel : ℕ} {env : Option Bytes}
    {execute : RewrittenArgs → ℤ × List Bytes} {args : CompilerArgs} {result : RewriteResult}
    {filename : Bytes} (hfilenames : args.filenames = [filename])
    (h : args.rewriteFile z hasher fuel env execute = some (.ok (some result))) :
    ∃ language cacheControl command retry, getCacheControl env = .ok cacheControl ∧
      preprocessCommand args true = .ok command ∧
      rewriteFile z hasher fuel cacheControl (some language) filename
        (fun directivesOnly => execute (if directivesOnly then command else retry)) =
          some (.ok (some result)) := by
  rw [CompilerArgs.rewriteFile, hfilenames] at h
  cases hprepare : prepareRewrite env args with
  | error fault =>
      rw [hprepare] at h
      cases h
  | ok prepared =>
      rw [hprepare] at h
      obtain ⟨language, -, hprepare⟩ := Fault.bind_eq_ok.1 hprepare
      cases language with
      | none =>
          cases hprepare
          cases h
      | some language =>
          obtain ⟨cacheControl, hcntl, hprepare⟩ := Fault.bind_eq_ok.1 hprepare
          obtain ⟨command, hcommand, hprepare⟩ := Fault.bind_eq_ok.1 hprepare
          obtain ⟨retry, -, hprepare⟩ := Fault.bind_eq_ok.1 hprepare
          cases hprepare
          exact ⟨language, cacheControl, command, retry, hcntl, hcommand, h⟩

/-- **When the client's request is accepted**: for every command line that may be sent away, every
result of `RewriteFile` and a compiler that is known, exactly if the cache is not disallowed and the
name of the source is not empty. -/
theorem accepts_iff {z : Compressor} {hasher : Hasher} (hlen : hasher.OutLen) {env : Option Bytes}
    {execute : RewrittenArgs → ℤ × List Bytes} {compiler : Bytes} {argv : List Bytes}
    {args : CompilerArgs} (hargs : CompilerArgs.ofArgv compiler argv = .ok args)
    (hdist : isDistributable args = true) {result : RewriteResult}
    (hrewrite : Loop.Returns (fun fuel => args.rewriteFile z hasher fuel env execute)
      (.ok (some result)))
    {pid : ℤ} (hpid : 1 < pid) {getFileModifytimeAndSize : Bytes → UInt64 × UInt64} {cache : FileCache}
    {digest : String}
    (hcache : cache.tryGet args.compiler (getFileModifytimeAndSize args.compiler).2
      (getFileModifytimeAndSize args.compiler).1 = some digest) :
    ∃ req, submitComileTask pid getFileModifytimeAndSize args result = .ok req ∧
      (Accepts cache req result.zstdRewritten ↔
        getCacheControl env ≠ .ok .disallow ∧ args.filenames ≠ [[]]) := by
  obtain ⟨filename, hfilenames⟩ := filenames_of_isDistributable hdist
  obtain ⟨fuel, hfuel⟩ := hrewrite.exists_eq
  obtain ⟨language, cacheControl, command, retry, hcntl, hcommand, hfile⟩ :=
    rewriteFile_eq_some hfilenames hfuel
  obtain ⟨hpath, hdigest⟩ := rewriteFile_fields hlen hfile
  obtain ⟨cloud, hcloud, hline⟩ := cloudCommand_of_preprocessCommand hargs hcommand result
  refine ⟨submitRequest pid (cloud.toCommandLine false)
    { path := args.compiler
      size := (getFileModifytimeAndSize args.compiler).2
      mtime := (getFileModifytimeAndSize args.compiler).1 } result, ?_, ?_⟩
  · rw [submitComileTask, hcloud]
    rfl
  · rw [accepts_iff_fields hcache]
    have hsetting : getCacheControl env ≠ .ok .disallow ↔ result.sourceDigest ≠ [] := by
      rw [hcntl, ne_eq, ne_eq, hdigest, Except.ok.injEq]
    have hname : args.filenames ≠ [[]] ↔ result.sourcePath ≠ [] := by
      rw [hfilenames, hpath, ne_eq, ne_eq, List.singleton_inj]
    rw [hsetting, hname]
    constructor
    · rintro ⟨-, hsource, -, hkey⟩
      exact ⟨hkey, hsource⟩
    · rintro ⟨hkey, hsource⟩
      exact ⟨hpid, hsource, hline, hkey⟩

/-! ### Two compiles -/

/-- A command line whose first run of the preprocessor succeeds has a result. -/
theorem returns_rewriteFile {z : Compressor} (hz : z.Lawful) (hasher : Hasher) {env : Option Bytes}
    {execute : RewrittenArgs → ℤ × List Bytes} {args : CompilerArgs} {filename language : Bytes}
    {cacheControl : CacheControl} {writes : List Bytes} (hfilenames : args.filenames = [filename])
    (hlanguage : determineLanguage args = .ok (some language))
    (hcntl : getCacheControl env = .ok cacheControl)
    (hnull : ¬CompilerArgs.KeepsNull kIgnorePreprocessArgs [] args.args)
    (hexecute : ∀ command, execute command = (0, writes)) :
    ∃ frame, z.Frame frame writes.flatten ∧
      Loop.Returns (fun fuel => args.rewriteFile z hasher fuel env execute)
        (.ok (some (rewriteResult true language filename
          (frame, cacheControl, sourceKey hasher cacheControl writes)))) := by
  have hcommand : ∀ directivesOnly, ∃ command,
      preprocessCommand args directivesOnly = .ok command := by
    intro directivesOnly
    rw [preprocessCommand, CompilerArgs.rewrite_spec, if_neg hnull]
    exact ⟨_, rfl⟩
  obtain ⟨command, htrue⟩ := hcommand true
  obtain ⟨retry, hfalse⟩ := hcommand false
  have hprepare : prepareRewrite env args =
      .ok (some (language, cacheControl, fun directivesOnly =>
        if directivesOnly then command else retry)) := by
    rw [prepareRewrite, hlanguage, hcntl, htrue, hfalse]
    rfl
  obtain ⟨frame, hframe, hrun⟩ := returns_tryRewrite_key hz hasher cacheControl writes
  refine ⟨frame, hframe, ?_⟩
  simp only [CompilerArgs.rewriteFile, hfilenames, hprepare, Client.rewriteFile, hexecute]
  exact hrun.bind (Loop.Returns.of_forall fun _ => rfl)

/-- `g++ -O2 -c t.cc -o t.o`. -/
def sampleCompilerArgs : CompilerArgs where
  compiler := Bytes.ofString "/usr/bin/g++"
  args := [(Bytes.ofString "-O2", []), (Bytes.ofString "-c", []),
    (Bytes.ofString "-o", [some (Bytes.ofString "t.o")])]
  filenames := [Bytes.ofString "t.cc"]
  rebuiltArg := Bytes.ofString "-O2 -c t.cc -o t.o"

theorem ofArgv_sample :
    CompilerArgs.ofArgv (Bytes.ofString "/usr/bin/g++")
      (List.map Bytes.ofString ["-O2", "-c", "t.cc", "-o", "t.o"]) = .ok sampleCompilerArgs := by
  decide +kernel

theorem isDistributable_sample : isDistributable sampleCompilerArgs = true := by decide

/-- What a run of the preprocessor makes of it. -/
theorem returns_sample (hasher : Hasher) {env : Option Bytes} {cacheControl : CacheControl}
    (hcntl : getCacheControl env = .ok cacheControl) (source : Bytes) :
    ∃ frame, Compressor.storedBlock.Frame frame source ∧
      Loop.Returns (fun fuel => sampleCompilerArgs.rewriteFile .storedBlock hasher fuel env
        fun _ => (0, [source]))
        (.ok (some (rewriteResult true (Bytes.ofString "c++") (Bytes.ofString "t.cc")
          (frame, cacheControl, sourceKey hasher cacheControl [source])))) := by
  have hlanguage : determineLanguage sampleCompilerArgs = .ok (some (Bytes.ofString "c++")) := by
    decide
  have hnull : ¬CompilerArgs.KeepsNull kIgnorePreprocessArgs [] sampleCompilerArgs.args := by decide
  have hexecute : ∀ command : RewrittenArgs,
      (fun _ => (0, [source]) : RewrittenArgs → ℤ × List Bytes) command = (0, [source]) := fun _ => rfl
  obtain ⟨frame, hframe, hrewrite⟩ := returns_rewriteFile Compressor.storedBlock_lawful hasher rfl
    hlanguage hcntl hnull hexecute
  rw [List.flatten_singleton] at hframe
  exact ⟨frame, hframe, hrewrite⟩

/-- The one compiler that a daemon knows. -/
def sampleCache : FileCache := ({} : FileCache).set (Bytes.ofString "/usr/bin/g++") 9 3 "c0ffee"

/-- When it was changed, and how long it is. -/
def sampleStat (_ : Bytes) : UInt64 × UInt64 := (3, 9)

theorem tryGet_sample : sampleCache.tryGet sampleCompilerArgs.compiler
    (sampleStat sampleCompilerArgs.compiler).2 (sampleStat sampleCompilerArgs.compiler).1 =
      some "c0ffee" := by
  decide

/-- The hash of the source, in the length that it has. -/
def sampleDigest (input : Bytes) : Bytes := (sampleHash input).takeD 32 0

/-- A compile is accepted where the cache is left alone. -/
theorem accepted_with_cache : ∃ result req,
    Loop.Returns (fun fuel => sampleCompilerArgs.rewriteFile .storedBlock (.collecting sampleDigest)
      fuel none fun _ => (0, [sampleSource])) (.ok (some result)) ∧
    submitComileTask 4711 sampleStat sampleCompilerArgs result = .ok req ∧
    Accepts sampleCache req result.zstdRewritten := by
  have hlen : (Hasher.collecting sampleDigest).OutLen := fun _ => List.takeD_length 32 _ _
  have hpid : (1 : ℤ) < 4711 := by decide
  obtain ⟨frame, -, hrewrite⟩ := returns_sample (.collecting sampleDigest)
    (show getCacheControl none = .ok .allow from rfl) sampleSource
  obtain ⟨req, hreq, haccepts⟩ := accepts_iff hlen ofArgv_sample isDistributable_sample hrewrite hpid
    tryGet_sample
  refine ⟨_, req, hrewrite, hreq, haccepts.2 ⟨?_, ?_⟩⟩
  · exact fun hcntl => CacheControl.noConfusion (Except.ok.inj hcntl)
  · decide

/-- A source that does not get smaller when it is compressed. -/
def noisySource : Bytes :=
  Bytes.ofString "/*" ++
    (List.range 8192).map (fun n => UInt8.ofNat ((n * n * n * 2654435761 + n * 40503) / 65536)) ++
    Bytes.ofString "*/\n"

/-- **A compile that is refused**: with `CACHE_CONTROL=0`, though the source is large enough to be
sent away and the compiler is known. -/
theorem refused_without_cache : ∃ result req,
    CompilerArgs.ofArgv (Bytes.ofString "/usr/bin/g++")
      (List.map Bytes.ofString ["-O2", "-c", "t.cc", "-o", "t.o"]) = .ok sampleCompilerArgs ∧
    isDistributable sampleCompilerArgs = true ∧
    Loop.Returns (fun fuel => sampleCompilerArgs.rewriteFile .storedBlock (.collecting sampleDigest)
      fuel (some (Bytes.ofString "0")) fun _ => (0, [noisySource])) (.ok (some result)) ∧
    ¬result.zstdRewritten.length < 8192 ∧
    submitComileTask 4711 sampleStat sampleCompilerArgs result = .ok req ∧
    sampleCache.tryGet req.compiler.path req.compiler.size req.compiler.mtime = some "c0ffee" ∧
    ¬Accepts sampleCache req result.zstdRewritten := by
  have hcntl : getCacheControl (some (Bytes.ofString "0")) = .ok .disallow := by decide
  obtain ⟨frame, hframe, hrewrite⟩ := returns_sample (.collecting sampleDigest) hcntl noisySource
  have hlong : 8192 ≤ noisySource.length := by
    simp only [noisySource, List.length_append, List.length_map, List.length_range]
    omega
  refine ⟨_, _, ofArgv_sample, isDistributable_sample, hrewrite, ?_, rfl, tryGet_sample, ?_⟩
  · have hlt := Compressor.storedBlock_length_lt hframe
    exact not_lt.2 (hlong.trans hlt.le)
  · rw [accepts_iff_fields tryGet_sample]
    rintro ⟨-, -, -, hdigest⟩
    exact hdigest rfl

end Client
