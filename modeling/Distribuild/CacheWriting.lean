/-
**Which compiles are written to the cache.**

A source that asks for the time must not be cached.  For a task that is to fill the cache a servant
starts `PrepareCachePocoTask`, which searches the source for the three macros and sets a promise:
`false` if one is found, `true` if none is.  At the end of the compile `GetCacheKey` reads the
future of that promise, and `OnCompleted` hands the result to the cache if there is a key.

Two things go wrong.  `GetCacheKey` takes `true` for the answer that there must be no key, so that
it is the sources with such a macro that are cached.  And the search reads `source_` in place while
`GetSource` moves it away, so that what is found depends on which of them comes first.

Main definitions:

* `Cloud.setValue`, `Cloud.runTask` — the search, with a promise that can be set only once;
* `Cloud.AsksForTime`, `Cloud.DefinesAll` — what a source and the arguments hold;
* `Cloud.CxxCompileTask.onCompleted` — the end of a compile with what is handed to the cache;
* `Cloud.scanning` — the search and `GetSource`, in any order.

Main results:

* `Cloud.runTask_eq` — the value that the promise gets;
* `Cloud.getCacheKey_isSome_iff` — a task has a key if and only if it should not have one;
* `Cloud.cachesRightly_iff` — **the cache is handed what it should be only where nothing is asked**;
* `Cloud.scanning_iff` — **the order does not matter if and only if the string that is moved from
  looks like the source**.
-/

import Distribuild.CacheEntry
import Distribuild.CloudCxxTask
import Distribuild.Machine
import Mathlib.Data.List.Permutation

set_option relaxedAutoImplicit false
set_option autoImplicit false

namespace Cloud

/-! ### The search -/

/-- `std::promise<bool>::set_value`: the value of the promise afterwards.  A promise that has a
value keeps it, and an exception is thrown. -/
def setValue (value : Bool) : Option Bool → Except (Option Bool) (Option Bool)
  | none => .ok (some value)
  | some earlier => .error (some earlier)

/-- The loop of `runTask` over the macros. -/
def searchMacros (source : Bytes) (rejects : List Bytes) (promise : Option Bool) :
    Except (Option Bool) (Option Bool) :=
  rejects.foldlM (fun promise reject =>
    if (Bytes.find reject source).isSome then setValue false promise else .ok promise) promise

/-- The promise after an activity, whether or not it ended with an exception. -/
def promiseAfter : Except (Option Bool) (Option Bool) → Option Bool
  | .ok promise => promise
  | .error promise => promise

/-- `PrepareCachePocoTask::runTask`: what it leaves in its promise. -/
def runTask (source : Bytes) : Option Bool :=
  promiseAfter (searchMacros source kRejectMacros none >>= setValue true)

/-- One of the macros occurs in the source. -/
def AsksForTime (source : Bytes) : Prop := ∃ reject ∈ kRejectMacros, reject <:+: source

/-- The arguments define all of the macros. -/
def DefinesAll (args : Bytes) : Prop :=
  ∀ reject ∈ kRejectMacros, Bytes.ofString "-D" ++ reject ++ Bytes.ofString "=" <:+: args

instance (source : Bytes) : Decidable (AsksForTime source) :=
  inferInstanceAs (Decidable (∃ reject ∈ kRejectMacros, reject <:+: source))

instance (args : Bytes) : Decidable (DefinesAll args) :=
  inferInstanceAs (Decidable (∀ reject ∈ kRejectMacros,
    Bytes.ofString "-D" ++ reject ++ Bytes.ofString "=" <:+: args))

/-- Once the value `false` is set, it stays. -/
theorem promiseAfter_searchMacros_set (source : Bytes) (rejects : List Bytes) :
    promiseAfter (searchMacros source rejects (some false) >>= setValue true) = some false := by
  induction rejects with
  | nil => rfl
  | cons reject rejects ih =>
      rw [searchMacros, List.foldlM_cons]
      split_ifs
      · rfl
      · exact ih

/-- The first macro that is found decides. -/
theorem promiseAfter_searchMacros (source : Bytes) (rejects : List Bytes) :
    promiseAfter (searchMacros source rejects none >>= setValue true) =
      some !(rejects.any fun reject => (Bytes.find reject source).isSome) := by
  induction rejects with
  | nil => rfl
  | cons reject rejects ih =>
      rw [searchMacros, List.foldlM_cons, List.any_cons]
      cases hfound : (Bytes.find reject source).isSome with
      | true => exact promiseAfter_searchMacros_set source rejects
      | false => exact ih

/-- **The value that the promise gets** is that of `scanSource`, however many macros are found. -/
theorem runTask_eq (source : Bytes) : runTask source = some (scanSource source) :=
  promiseAfter_searchMacros source kRejectMacros

theorem scanSource_eq (source : Bytes) : scanSource source = decide (¬ AsksForTime source) := by
  rw [scanSource, Bool.eq_iff_iff, decide_eq_true_eq, AsksForTime, Bool.not_eq_true', Bool.eq_false_iff,
    ne_eq, not_iff_not, List.any_eq_true]
  exact exists_congr fun reject => and_congr_right fun _ => Bytes.find_isSome_iff reject source

theorem prepareCache_eq (args seen : Bytes) :
    prepareCache args seen = if DefinesAll args then none else runTask seen := by
  have hall : (kRejectMacros.all fun reject =>
      (Bytes.find (Bytes.ofString "-D" ++ reject ++ Bytes.ofString "=") args).isSome) = true ↔
        DefinesAll args := by
    rw [List.all_eq_true]
    exact forall₂_congr fun reject _ => Bytes.find_isSome_iff _ args
  rw [prepareCache, runTask_eq]
  exact if_congr hall rfl rfl

/-! ### The end of the compile -/

/-- The entry that `OnCompleted` copies from the result. -/
def CompileTask.toCacheEntry (result : CompileTask) : Daemon.CacheEntry where
  exitCode := Int32.ofInt result.exitCode
  stdOut := result.stdOut
  stdErr := result.stdErr
  extraInfo := result.extraInfo
  packed := result.filePack

/-- The end of `OnCompleted`: what is handed to the `CacheWriter`. -/
def CxxCompileTask.handed (hasher : Hasher) (task : CxxCompileTask) (exitCode : ℤ)
    (result : CompileTask) : Option (Bytes × Daemon.CacheEntry) :=
  match task.getCacheKey hasher with
  | none => none
  | some key => if exitCode = 0 then some (key, result.toCacheEntry) else none

/-- `CxxCompileTask::OnCompleted`: the result that the task then holds, and what it hands to the
`CacheWriter`. -/
def CxxCompileTask.onCompleted (hasher : Hasher) (z : Compressor) (task : CxxCompileTask)
    (exitCode : ℤ) (stdOut stdErr : Bytes) (outputFiles : List (Bytes × Bytes)) (extraInfo : Bytes) :
    Except Fault (CompileTask × Option (Bytes × Daemon.CacheEntry)) :=
  (Cloud.onCompleted z exitCode stdOut stdErr (task.tempSubDir ++ Bytes.ofString "/output")
    outputFiles extraInfo).map fun result => (result, task.handed hasher exitCode result)

/-- **A task has a key if and only if it should not have one.** -/
theorem getCacheKey_isSome_iff (hasher : Hasher) (request : QueueCxxTaskRequest)
    (h : request.fillCache = true) (compiler workDir source seen : Bytes) :
    ((CxxCompileTask.update hasher request compiler workDir source seen).getCacheKey hasher).isSome =
        true ↔ ¬ DefinesAll request.args ∧ AsksForTime seen := by
  have hfuture : (CxxCompileTask.update hasher request compiler workDir source seen).writeCacheFuture =
      if DefinesAll request.args then none else some (decide (¬ AsksForTime seen)) := by
    rw [CxxCompileTask.update, h, if_pos rfl, prepareCache_eq, runTask_eq, scanSource_eq]
  rw [CxxCompileTask.getCacheKey, hfuture]
  by_cases hargs : DefinesAll request.args
  · simp [hargs]
  · by_cases hseen : AsksForTime seen
    · simp [hargs, hseen]
    · simp [hargs, hseen]

/-- The end of a compile does not fail: there is a result, and it is offered to the cache. -/
theorem CxxCompileTask.onCompleted_total {z : Compressor} (hz : z.Lawful) (hasher : Hasher)
    (task : CxxCompileTask) (exitCode : ℤ) (stdOut stdErr : Bytes) (files : List (Bytes × Bytes))
    (extraInfo : Bytes) :
    ∃ result, task.onCompleted hasher z exitCode stdOut stdErr
        (files.map fun file => (task.tempSubDir ++ Bytes.ofString "/output" ++ file.1, file.2))
        extraInfo = .ok (result, task.handed hasher exitCode result) := by
  have hoffer : ∀ outcome result, outcome = Except.ok result →
      outcome.map (fun result => (result, task.handed hasher exitCode result)) =
        (.ok (result, task.handed hasher exitCode result) : Except Fault _) := by
    rintro outcome result rfl
    rfl
  by_cases hexit : exitCode = 0
  · subst hexit
    obtain ⟨result, compressed, hresult, -⟩ := onCompleted_eq hz stdOut stdErr
      (task.tempSubDir ++ Bytes.ofString "/output") files extraInfo
    exact ⟨result, hoffer _ result hresult⟩
  · have houtput : getOutput exitCode (task.tempSubDir ++ Bytes.ofString "/output")
        (files.map fun file => (task.tempSubDir ++ Bytes.ofString "/output" ++ file.1, file.2))
        extraInfo = .ok {} := by
      rw [getOutput, if_pos hexit]
    have hfiles : compressFiles z ({} : TaskOutput).files = .ok [] := rfl
    obtain ⟨result, hresult, -⟩ := onCompleted_ok stdOut stdErr houtput hfiles
    exact ⟨result, hoffer _ result hresult⟩

/-- What is asked of the cache: nothing is written for a source that asks for the time, and a
compile of any other source is, if it ends well; unless the arguments define all the macros. -/
structure CachesRightly (hasher : Hasher) (task : CxxCompileTask) (source : Bytes) (exitCode : ℤ)
    (result : CompileTask) (handed : Option (Bytes × Daemon.CacheEntry)) : Prop where
  asking : AsksForTime source → ¬ DefinesAll task.args →
    task.getCacheKey hasher = none ∧ handed = none
  notAsking : ¬ AsksForTime source → ¬ DefinesAll task.args → exitCode = 0 →
    ∃ key, task.getCacheKey hasher = some key ∧ handed = some (key, result.toCacheEntry)

/-- **The cache is handed what it should be only where nothing is asked**: where the arguments
define all the macros, or where no macro occurs and the compile failed. -/
theorem cachesRightly_iff {z : Compressor} (hz : z.Lawful) (hasher : Hasher)
    (request : QueueCxxTaskRequest) (h : request.fillCache = true) (compiler workDir source : Bytes)
    (exitCode : ℤ) (stdOut stdErr : Bytes) (files : List (Bytes × Bytes)) (extraInfo : Bytes) :
    let task := CxxCompileTask.update hasher request compiler workDir source source
    (∃ result handed, task.onCompleted hasher z exitCode stdOut stdErr
        (files.map fun file => (task.tempSubDir ++ Bytes.ofString "/output" ++ file.1, file.2))
        extraInfo = .ok (result, handed) ∧
      CachesRightly hasher task source exitCode result handed) ↔
    DefinesAll request.args ∨ (¬ AsksForTime source ∧ exitCode ≠ 0) := by
  intro task
  have hkey := getCacheKey_isSome_iff hasher request h compiler workDir source source
  constructor
  · rintro ⟨result, handed, -, hright⟩
    by_contra hno
    rw [not_or] at hno
    by_cases hasks : AsksForTime source
    · have hsome := hkey.2 ⟨hno.1, hasks⟩
      rw [(hright.asking hasks hno.1).1] at hsome
      cases hsome
    · have hexit : exitCode = 0 := by
        by_contra hexit
        exact hno.2 ⟨hasks, hexit⟩
      obtain ⟨key, hsome, -⟩ := hright.notAsking hasks hno.1 hexit
      exact hasks (hkey.1 (Option.isSome_iff_exists.2 ⟨key, hsome⟩)).2
  · intro hcond
    obtain ⟨result, hresult⟩ :=
      CxxCompileTask.onCompleted_total hz hasher task exitCode stdOut stdErr files extraInfo
    refine ⟨result, _, hresult, ?_, ?_⟩
    · intro hasks hdef
      rcases hcond with hall | ⟨hnot, -⟩
      · exact absurd hall hdef
      · exact absurd hasks hnot
    · intro hasks hdef hexit
      rcases hcond with hall | ⟨-, hne⟩
      · exact absurd hall hdef
      · exact absurd hexit hne

/-- A request to compile with the given arguments and to fill the cache. -/
def fillRequest (args : Bytes) : QueueCxxTaskRequest where
  token := "t"
  taskGrantId := 1
  envDesc := { compilerDigest := "c" }
  sourcePath := Bytes.ofString "a.cpp"
  args := args
  compressType := .zstd
  fillCache := true

/-- An empty source with arguments that define all the macros. -/
theorem cachesRightly_defined :
    let args := Bytes.ofString "-D__TIME__=0 -D__DATE__=0 -D__TIMESTAMP__=0"
    let task := CxxCompileTask.update Daemon.emptyHasher (fillRequest args) (Bytes.ofString "/usr/bin/g++")
      (Bytes.ofString "/tmp/w") [] []
    ∃ result handed, task.onCompleted Daemon.emptyHasher Compressor.rawBlocks 0 [] [] [] [] =
      .ok (result, handed) ∧ CachesRightly Daemon.emptyHasher task [] 0 result handed :=
  (cachesRightly_iff Compressor.rawBlocks_lawful Daemon.emptyHasher
    (fillRequest (Bytes.ofString "-D__TIME__=0 -D__DATE__=0 -D__TIMESTAMP__=0")) rfl
    (Bytes.ofString "/usr/bin/g++") (Bytes.ofString "/tmp/w") [] 0 [] [] [] []).2 (Or.inl (by decide))

/-- A source that asks for the time is cached. -/
theorem cachesRightly_time :
    ¬ ∀ (z : Compressor) (hasher : Hasher) (request : QueueCxxTaskRequest)
      (compiler workDir source : Bytes) (exitCode : ℤ) (stdOut stdErr : Bytes)
      (files : List (Bytes × Bytes)) (extraInfo : Bytes), z.Lawful → request.fillCache = true →
      let task := CxxCompileTask.update hasher request compiler workDir source source
      ∃ result handed, task.onCompleted hasher z exitCode stdOut stdErr
          (files.map fun file => (task.tempSubDir ++ Bytes.ofString "/output" ++ file.1, file.2))
          extraInfo = .ok (result, handed) ∧
        CachesRightly hasher task source exitCode result handed := by
  intro hall
  obtain ⟨result, handed, -, hright⟩ := hall Compressor.rawBlocks Daemon.emptyHasher
    (fillRequest (Bytes.ofString "-O2")) (Bytes.ofString "/usr/bin/g++") (Bytes.ofString "/tmp/w")
    (Bytes.ofString "char*t=__TIME__;") 0 [] [] [] [] Compressor.rawBlocks_lawful rfl
  have hnone := (hright.asking (by decide) (by decide)).1
  have hsome := (getCacheKey_isSome_iff Daemon.emptyHasher (fillRequest (Bytes.ofString "-O2")) rfl
    (Bytes.ofString "/usr/bin/g++") (Bytes.ofString "/tmp/w") (Bytes.ofString "char*t=__TIME__;")
    (Bytes.ofString "char*t=__TIME__;")).2 (by decide)
  rw [hnone] at hsome
  cases hsome

/-! ### The search and the compile -/

/-- What the search and the rest of the daemon share. -/
structure ScanState where
  source_ : Bytes
  /-- The promise of the search. -/
  promise_ : Option Bool
deriving DecidableEq, Repr

/-- The two steps after `Prepare`. -/
inductive ScanStep
  /-- `PrepareCachePocoTask::runTask`. -/
  | runTask
  /-- `GetSource`, called by `TryQueueTask`. -/
  | getSource
deriving DecidableEq, Repr

/-- The two steps.  `GetSource` outputs the source and leaves in `source_` what a string holds that
has been moved from. -/
def scanning (moved : Bytes) : Machine ScanState ScanStep (Option Bytes) where
  step s
    | .runTask => ({ s with promise_ := Cloud.runTask s.source_ }, none)
    | .getSource => ({ s with source_ := moved }, some s.source_)

/-- **The order does not matter if and only if the string that is moved from looks like the
source**: if a macro occurs in the one exactly if one occurs in the other. -/
theorem scanning_iff (source moved : Bytes) :
    (∀ order : List ScanStep, order.Perm [.runTask, .getSource] →
      ((scanning moved).run ⟨source, none⟩ order).promise_ = Cloud.runTask source) ↔
    (AsksForTime moved ↔ AsksForTime source) := by
  have hvalue : Cloud.runTask moved = Cloud.runTask source ↔
      (AsksForTime moved ↔ AsksForTime source) := by
    rw [runTask_eq, runTask_eq, Option.some_inj, scanSource_eq, scanSource_eq, decide_eq_decide,
      not_iff_not]
  rw [← hvalue]
  constructor
  · intro h
    exact h [.getSource, .runTask] (List.Perm.swap ..)
  · intro h order horder
    rcases List.perm_pair.1 horder with rfl | rfl
    · rfl
    · exact h

/-- A moved-from string is empty in practice, and then the macro is not seen. -/
theorem scanning_late :
    ¬ ∀ (source moved : Bytes) (order : List ScanStep), order.Perm [.runTask, .getSource] →
      ((scanning moved).run ⟨source, none⟩ order).promise_ = Cloud.runTask source := by
  intro hall
  have hlate := hall (Bytes.ofString "char*t=__TIME__;") [] [.getSource, .runTask] (List.Perm.swap ..)
  rw [runTask_eq] at hlate
  revert hlate
  decide

end Cloud
