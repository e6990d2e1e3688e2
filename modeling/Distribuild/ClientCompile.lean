/-
**How the client compiles.**

`Compile` is what the client does with a command line.  What cannot be sent away is compiled on the
machine itself.  Otherwise the source is preprocessed and sent, and if the cloud fails the client
compiles on the machine as soon as it gets a quota for that, or tries again, with a source that is
preprocessed anew because the last one has been moved away.  In the end the object file and the
files next to it are written.  This module embeds `Compile` and `WriteCompileResult` of
`client/client.cpp` and `AcquireTaskQuota` of `client/common/task_quota.cpp`.

The environment is a sequence of answers for every function that the loop calls: what
`CompileOnCloud` returns, whether `TryAcquireTaskQuota` gets a quota, what `RewriteFile` makes of
the source, and how the compile on the machine ends.  `RewriteFile` waits for a quota of its own, a
light one, before it preprocesses; that it may wait for ever is left out, and its answer is there as
soon as it is called.

Two things are proved about the loop, whatever the answers are: it tries at most six times, always
with a source of its own, and it returns nothing but the success of an attempt or the exit code of
the machine's compiler.  It does not always return, for a compile on the machine waits until there
is a quota, and there need not ever be one.

As to the files, `WriteCompileResult` is meant to take the `.o` off the destination and put the
extension of the file in its place.  The call of `substr` leaves just the `.o` instead.

Main definitions:

* `Client.isLightweight`, `Client.writeCompileResult`, `Client.acquireTaskQuota`;
* `Client.Environment`, `Client.CompileState`, `Client.retryRound`, `Client.compile` — `Compile`;
* `Client.Attempted` — what the loop has done so far.

Main results:

* `Client.writeCompileResult_iff` — **when the files land next to the object file**;
* `Client.attempted_round`, `Client.returns_retryLoop` — the loop ends, after at most six attempts;
* `Client.compile_result` — **the client returns the success of an attempt or the exit code of a
  compile on the machine**, or it waits for a quota that never comes.
-/

import Distribuild.ClientOutput
import Distribuild.ClientSubmit
import Distribuild.OutputDelivery

set_option relaxedAutoImplicit false
set_option autoImplicit false

namespace Client

open Loop (Returns)

/-! ### Writing the files -/

/-- `".o"`. -/
def dotO : Bytes := Bytes.ofString ".o"

/-- `prefix` of `WriteCompileResult`. -/
def outputPrefix (destination : Bytes) : Bytes :=
  if 2 ≤ destination.length ∧ destination.drop (destination.length - 2) = dotO then
    destination.drop (destination.length - 2)
  else destination

/-- `WriteCompileResult`: the files that are written, in order, each with its path. -/
def writeCompileResult (destination : Bytes) (outputFiles : List (Bytes × Bytes)) :
    List (Bytes × Bytes) :=
  outputFiles.map fun file =>
    if file.1 = dotO then (destination, file.2) else (outputPrefix destination ++ file.1, file.2)

/-- A destination without a final `.o`. -/
def outputStem (destination : Bytes) : Bytes :=
  if dotO <:+ destination then destination.take (destination.length - 2) else destination

/-- Where a file is meant to land. -/
def intendedPath (destination suffix : Bytes) : Bytes :=
  if suffix = dotO then destination else outputStem destination ++ suffix

theorem outputPrefix_of_not_suffix {destination : Bytes} (h : ¬ dotO <:+ destination) :
    outputPrefix destination = destination := by
  rw [outputPrefix, if_neg]
  rintro ⟨-, hdrop⟩
  exact h (hdrop ▸ List.drop_suffix _ _)

theorem length_append_dotO (front : Bytes) : (front ++ dotO).length = front.length + 2 := by
  rw [List.length_append]
  rfl

theorem outputPrefix_append (front : Bytes) : outputPrefix (front ++ dotO) = dotO := by
  have hdrop : (front ++ dotO).drop ((front ++ dotO).length - 2) = dotO := by
    rw [length_append_dotO, Nat.add_sub_cancel, List.drop_left]
  have hle : 2 ≤ (front ++ dotO).length := by
    rw [length_append_dotO]
    exact Nat.le_add_left _ _
  rw [outputPrefix, if_pos ⟨hle, hdrop⟩, hdrop]

theorem outputStem_append (front : Bytes) : outputStem (front ++ dotO) = front := by
  rw [outputStem, if_pos (List.suffix_append _ _), length_append_dotO, Nat.add_sub_cancel,
    List.take_left]

/-- The prefix is right for a destination without `.o`, and for one other. -/
theorem outputPrefix_eq_stem_iff (destination : Bytes) :
    outputPrefix destination = outputStem destination ↔
      ¬ dotO <:+ destination ∨ destination = dotO ++ dotO := by
  by_cases h : dotO <:+ destination
  · obtain ⟨front, rfl⟩ := h
    rw [outputPrefix_append, outputStem_append, or_iff_right (not_not.2 (List.suffix_append _ _)),
      List.append_cancel_right_eq]
    exact eq_comm
  · rw [outputPrefix_of_not_suffix h, outputStem, if_neg h]
    exact iff_of_true rfl (Or.inl h)

/-- The path that is written to. -/
def writtenPath (destination suffix : Bytes) : Bytes :=
  if suffix = dotO then destination else outputPrefix destination ++ suffix

theorem writeCompileResult_eq (destination : Bytes) (outputFiles : List (Bytes × Bytes)) :
    writeCompileResult destination outputFiles =
      outputFiles.map fun file => (writtenPath destination file.1, file.2) := by
  refine List.map_congr_left fun file _ => ?_
  rw [writtenPath]
  split_ifs
  · rfl
  · rfl

theorem writtenPath_eq_iff (destination suffix : Bytes) :
    writtenPath destination suffix = intendedPath destination suffix ↔
      suffix = dotO ∨ ¬ dotO <:+ destination ∨ destination = dotO ++ dotO := by
  by_cases h : suffix = dotO
  · rw [writtenPath, intendedPath, if_pos h, if_pos h]
    exact iff_of_true rfl (Or.inl h)
  · rw [writtenPath, intendedPath, if_neg h, if_neg h, List.append_cancel_right_eq,
      outputPrefix_eq_stem_iff, or_iff_right h]

/-- Two compiles write none of their files of the same extension to the same path. -/
def Apart (destination : Bytes) (files : List (Bytes × Bytes)) (destination' : Bytes)
    (files' : List (Bytes × Bytes)) : Prop :=
  ∀ file ∈ files, ∀ file' ∈ files', file.1 = file'.1 →
    writtenPath destination file.1 ≠ writtenPath destination' file'.1

/-- Different destinations with `.o` share the paths of all extensions but `.o`. -/
theorem writtenPath_ne_iff {destination destination' : Bytes} (hne : destination ≠ destination')
    (h : dotO <:+ destination) (h' : dotO <:+ destination') (suffix : Bytes) :
    writtenPath destination suffix ≠ writtenPath destination' suffix ↔ suffix = dotO := by
  obtain ⟨front, rfl⟩ := h
  obtain ⟨front', rfl⟩ := h'
  by_cases hsuffix : suffix = dotO
  · rw [writtenPath, writtenPath, if_pos hsuffix, if_pos hsuffix]
    exact iff_of_true hne hsuffix
  · rw [writtenPath, writtenPath, if_neg hsuffix, if_neg hsuffix, outputPrefix_append,
      outputPrefix_append]
    exact iff_of_false (not_not.2 rfl) hsuffix

/-- **When the files land next to the object file**: if the destination has no final `.o` to take
off, or happens to be `.o.o`, or there is only the object file.  Two compiles whose destinations end
in `.o` keep out of each other's way exactly if they have no extension in common but `.o`. -/
theorem writeCompileResult_iff (destination destination' : Bytes)
    (files files' : List (Bytes × Bytes)) :
    ((writeCompileResult destination files =
        files.map fun file => (intendedPath destination file.1, file.2)) ↔
      (∀ file ∈ files, file.1 = dotO) ∨ ¬ dotO <:+ destination ∨ destination = dotO ++ dotO) ∧
    (destination ≠ destination' → dotO <:+ destination → dotO <:+ destination' →
      (Apart destination files destination' files' ↔
        ∀ file ∈ files, ∀ file' ∈ files', file.1 = file'.1 → file.1 = dotO)) := by
  refine ⟨?_, fun hne h h' => ?_⟩
  · rw [writeCompileResult_eq, List.map_inj_left]
    simp only [Prod.mk.injEq, and_true, writtenPath_eq_iff]
    constructor
    · intro hall
      by_cases hdestination : ¬ dotO <:+ destination ∨ destination = dotO ++ dotO
      · exact Or.inr hdestination
      · exact Or.inl fun file hfile => (hall file hfile).resolve_right hdestination
    · rintro (hall | hdestination) file hfile
      · exact Or.inl (hall file hfile)
      · exact Or.inr hdestination
  · refine forall₂_congr fun file _ => forall₂_congr fun file' _ => ?_
    constructor
    · intro hapart hsame
      have hpath := hapart hsame
      rw [← hsame] at hpath
      exact (writtenPath_ne_iff hne h h' file.1).1 hpath
    · intro hdotO hsame
      rw [← hsame]
      exact (writtenPath_ne_iff hne h h' file.1).2 (hdotO hsame)

/-- Two compiles that only have object files. -/
theorem writeCompileResult_iff_objects :
    ((writeCompileResult (Bytes.ofString "a.o") [(dotO, [1])] =
        [(dotO, [1])].map fun file => (intendedPath (Bytes.ofString "a.o") file.1, file.2)) ↔
      (∀ file ∈ [(dotO, ([1] : Bytes))], file.1 = dotO) ∨
        ¬ dotO <:+ Bytes.ofString "a.o" ∨ Bytes.ofString "a.o" = dotO ++ dotO) ∧
    (Apart (Bytes.ofString "a.o") [(dotO, [1])] (Bytes.ofString "b.o") [(dotO, [2])] ↔
      ∀ file ∈ [(dotO, ([1] : Bytes))], ∀ file' ∈ [(dotO, ([2] : Bytes))],
        file.1 = file'.1 → file.1 = dotO) := by
  have h := writeCompileResult_iff (Bytes.ofString "a.o") (Bytes.ofString "b.o") [(dotO, [1])]
    [(dotO, [2])]
  exact ⟨h.1, h.2 (by decide) (by decide) (by decide)⟩

/-- The coverage notes of `main.o` are written to `.o.gcno`, and so are those of `util.o`. -/
theorem writeCompileResult_gcno :
    writeCompileResult (Bytes.ofString "out/main.o") [(Bytes.ofString ".gcno", [1])] =
        [(Bytes.ofString ".o.gcno", [1])] ∧
      [(Bytes.ofString ".o.gcno", [1])] ≠ [(Bytes.ofString ".gcno", [1])].map
        (fun file => (intendedPath (Bytes.ofString "out/main.o") file.1, file.2)) ∧
      ¬ Apart (Bytes.ofString "out/main.o") [(Bytes.ofString ".gcno", [1])]
        (Bytes.ofString "out/util.o") [(Bytes.ofString ".gcno", [2])] := by
  refine ⟨by decide, by decide, fun hapart => ?_⟩
  exact hapart _ List.mem_cons_self _ List.mem_cons_self rfl (by decide)

/-! ### The loop -/

/-- `IsLightweight`. -/
def isLightweight (args : CompilerArgs) : Bool :=
  [Bytes.ofString "-dumpversion", Bytes.ofString "-dumpmachine", Bytes.ofString "-E"].any fun e =>
    (args.tryGet e).isSome

/-- What the functions return that `Compile` calls, one answer for every call.  An answer of
`TryAcquireTaskQuota` says whether there is a quota; it is asked for a light compile or not.
`RewriteFile` is taken to return: its own wait for a light quota is not part of the environment. -/
structure Environment where
  cloud : ℕ → CompileResult
  quota : Bool → ℕ → Bool
  rewrite : ℕ → Option RewriteResult
  /-- The exit code of a compile on the machine. -/
  native : ℤ

/-- The variable `rewritten`, a `std::optional<RewriteResult>`. -/
inductive Rewritten
  | nullopt
  | fresh (result : RewriteResult)
  | movedFrom
deriving DecidableEq

namespace Rewritten

def ofOption : Option RewriteResult → Rewritten
  | none => .nullopt
  | some result => .fresh result

/-- What `std::move(*rewritten)` hands over: nothing of its own if there is no result or it has been
moved from. -/
def moved : Rewritten → Option RewriteResult
  | .fresh result => some result
  | _ => none

/-- The variable after the move. -/
def afterMove : Rewritten → Rewritten
  | .nullopt => .nullopt
  | _ => .movedFrom

end Rewritten

/-- The variables of `Compile`, how often the functions were called, and what was done. -/
structure CompileState where
  rewritten : Rewritten := .nullopt
  retries : ℤ := 5
  rewrites : ℕ := 0
  quotas : ℕ := 0
  /-- What `CompileOnCloud` was given and what it returned, call by call. -/
  attempts : List (Option RewriteResult × CompileResult) := []
  /-- The exit code of the compile on the machine, if there was one. -/
  native : Option ℤ := none
  /-- The files that were written. -/
  written : List (Bytes × Bytes) := []
deriving DecidableEq

/-- How the loop is left: with a result, or for a compile on the machine that needs a quota. -/
inductive LoopExit
  | returned (exitCode : ℤ) (s : CompileState)
  | onNative (s : CompileState)
deriving DecidableEq

/-- `compile_on_native`. -/
def compileOnNative (env : Environment) (s : CompileState) : ℤ × CompileState :=
  (env.native, { s with native := some env.native })

/-- The end of a round: a compile that has failed is done again on the machine, and what the others
have left behind is written. -/
def settle (destination : Bytes) (result : CompileResult) (s : CompileState) : LoopExit :=
  if result.exitCode ≠ 0 then .onNative s
  else
    .returned 0 { s with written := s.written ++ writeCompileResult destination result.outputFiles }

/-- One round of the loop of `Compile`, where `destination` is what `GetOutputFile` returns. -/
def retryRound (env : Environment) (destination : Bytes) (s : CompileState) :
    CompileState ⊕ LoopExit :=
  let result := env.cloud s.attempts.length
  let s := { s with
    rewritten := s.rewritten.afterMove
    attempts := s.attempts ++ [(s.rewritten.moved, result)] }
  if result.exitCode < 0 ∨ result.exitCode = 127 then
    let quota := env.quota false s.quotas
    let s := { s with quotas := s.quotas + 1 }
    if quota then
      let native := compileOnNative env s
      .inr (.returned native.1 native.2)
    else
      let again := s.retries
      let s := { s with retries := s.retries - 1 }
      if again ≠ 0 then
        let outcome := env.rewrite s.rewrites
        let s := { s with rewritten := .ofOption outcome, rewrites := s.rewrites + 1 }
        if outcome.isSome then .inl s else .inr (settle destination result s)
      else .inr (settle destination result s)
  else .inr (settle destination result s)

/-- The loop of `Compile`. -/
def retryLoop (env : Environment) (destination : Bytes) (s : CompileState) (fuel : ℕ) :
    Option LoopExit :=
  Loop.run (retryRound env destination) fuel s

/-- `AcquireTaskQuota`: how often has been asked when there is a quota. -/
def acquireTaskQuota (env : Environment) (lightweight : Bool) (asked : ℕ) (fuel : ℕ) : Option ℕ :=
  Loop.run (fun n => if env.quota lightweight n then .inr (n + 1) else .inl (n + 1)) fuel asked

/-- `compile_on_native_using_quota`. -/
def compileOnNativeUsingQuota (env : Environment) (args : CompilerArgs) (s : CompileState)
    (fuel : ℕ) : Option (ℤ × CompileState) :=
  (acquireTaskQuota env (isLightweight args) s.quotas fuel).map fun quotas =>
    compileOnNative env { s with quotas := quotas }

/-- The loop of `Compile` and what follows it. -/
def compileLoop (env : Environment) (args : CompilerArgs) (destination : Bytes) (s : CompileState)
    (fuel : ℕ) : Option (ℤ × CompileState) :=
  (retryLoop env destination s fuel).bind fun exit =>
    match exit with
    | .returned exitCode s => some (exitCode, s)
    | .onNative s => compileOnNativeUsingQuota env args s fuel

/-- `Compile`, from the point on where the compiler has been found, but for the wait for a quota
inside `RewriteFile`. -/
def compile (env : Environment) (args : CompilerArgs) (destination : Bytes) (fuel : ℕ) :
    Option (ℤ × CompileState) :=
  let s : CompileState := {}
  if !isDistributable args then compileOnNativeUsingQuota env args s fuel
  else
    let outcome := env.rewrite s.rewrites
    let s := { s with rewritten := .ofOption outcome, rewrites := s.rewrites + 1 }
    match outcome with
    | none => compileOnNativeUsingQuota env args s fuel
    | some rewritten =>
        -- a small file is compiled faster on the machine
        if rewritten.zstdRewritten.length < 8192 then compileOnNativeUsingQuota env args s fuel
        else compileLoop env args destination s fuel

/-! ### What the loop does -/

/-- The attempts made so far: each was given what `RewriteFile` returned last. -/
structure Attempted (env : Environment) (n : ℕ) (s : CompileState) : Prop where
  le : n ≤ 6
  attempts : s.attempts = (List.range n).map fun i => (env.rewrite i, env.cloud i)
  rewritten : ∀ i < n, (env.rewrite i).isSome = true

/-- What holds before the attempt after `n` others. -/
structure Ready (env : Environment) (n : ℕ) (s : CompileState) : Prop
    extends Attempted env n s where
  lt : n < 6
  fresh : s.rewritten = .ofOption (env.rewrite n)
  isSome : (env.rewrite n).isSome = true
  rewrites : s.rewrites = n + 1
  retries : s.retries = 5 - n
  native : s.native = none
  written : s.written = []

/-- What a loop that has been left has done. -/
inductive Left (env : Environment) (destination : Bytes) : LoopExit → Prop
  | succeeded {n : ℕ} {s : CompileState} (attempted : Attempted env (n + 1) s)
      (exitCode : (env.cloud n).exitCode = 0) (native : s.native = none)
      (written : s.written = writeCompileResult destination (env.cloud n).outputFiles) :
      Left env destination (.returned 0 s)
  | native {n : ℕ} {s : CompileState} (attempted : Attempted env n s)
      (native : s.native = some env.native) (written : s.written = []) :
      Left env destination (.returned env.native s)
  | failed {n : ℕ} {s : CompileState} (attempted : Attempted env (n + 1) s)
      (exitCode : (env.cloud n).exitCode ≠ 0) (native : s.native = none)
      (written : s.written = []) :
      Left env destination (.onNative s)

section Attempts

variable {env : Environment} {destination : Bytes} {n : ℕ} {s : CompileState}

theorem Ready.moved (h : Ready env n s) : s.rewritten.moved = env.rewrite n := by
  obtain ⟨result, hresult⟩ := Option.isSome_iff_exists.1 h.isSome
  rw [h.fresh, hresult]
  rfl

/-- An attempt is made with a result of `RewriteFile` that has not been moved from. -/
theorem Ready.attempted (h : Ready env n s) {s' : CompileState}
    (hs' : s'.attempts = s.attempts ++ [(s.rewritten.moved, env.cloud s.attempts.length)]) :
    Attempted env (n + 1) s' := by
  have hlen : s.attempts.length = n := by
    rw [h.attempts, List.length_map, List.length_range]
  refine ⟨h.lt, ?_, fun i hi => ?_⟩
  · rw [hs', hlen, h.moved, h.attempts, List.range_succ, List.map_append]
    rfl
  · rcases Nat.lt_succ_iff_lt_or_eq.1 hi with hlt | rfl
    · exact h.rewritten i hlt
    · exact h.isSome

/-- The end of a round. -/
theorem left_settle (h : Attempted env (n + 1) s) (hnative : s.native = none)
    (hwritten : s.written = []) : Left env destination (settle destination (env.cloud n) s) := by
  rw [settle]
  split_ifs with hexit
  · exact .failed h hexit hnative hwritten
  · refine .succeeded ⟨h.le, h.attempts, h.rewritten⟩ (not_not.1 hexit) hnative ?_
    show s.written ++ _ = _
    rw [hwritten, List.nil_append]

/-- **A round makes one attempt**, and either goes on with a new result of `RewriteFile` or leaves
the loop. -/
theorem attempted_round (h : Ready env n s) :
    Loop.Round (fun s => ∃ n, Ready env n s)
      (fun t s => 6 - t.attempts.length < 6 - s.attempts.length)
      (Left env destination) s (retryRound env destination s) := by
  have hlen : s.attempts.length = n := by
    rw [h.attempts, List.length_map, List.length_range]
  have hlt := h.lt
  have hattempted : ∀ s' : CompileState,
      s'.attempts = s.attempts ++ [(s.rewritten.moved, env.cloud n)] → Attempted env (n + 1) s' :=
    fun s' hs' => h.attempted (hlen.symm ▸ hs')
  simp only [retryRound, hlen]
  split_ifs with hfailed hquota hagain hrewrite
  · exact .native (hattempted _ rfl) rfl h.written
  · -- the result has been moved from, and there is a new one
    refine ⟨⟨n + 1, ⟨hattempted _ rfl, ?_, ?_, ?_, ?_, ?_, h.native, h.written⟩⟩, ?_⟩
    · have hretries := h.retries
      omega
    · show Rewritten.ofOption (env.rewrite s.rewrites) = _
      rw [h.rewrites]
    · rw [h.rewrites] at hrewrite
      exact hrewrite
    · show s.rewrites + 1 = _
      rw [h.rewrites]
    · show s.retries - 1 = _
      rw [h.retries]
      omega
    · show 6 - (s.attempts ++ _).length < 6 - s.attempts.length
      rw [List.length_append, hlen, List.length_singleton]
      omega
  · exact left_settle (hattempted _ rfl) h.native h.written
  · exact left_settle (hattempted _ rfl) h.native h.written
  · exact left_settle (hattempted _ rfl) h.native h.written

/-- **The loop ends**, after at most six attempts. -/
theorem returns_retryLoop (h : Ready env n s) :
    ∃ exit, Left env destination exit ∧ Returns (retryLoop env destination s) exit := by
  refine Loop.run_measure _ (fun s => ∃ n, Ready env n s) (fun s => 6 - s.attempts.length) _ ?_
    ⟨n, h⟩
  rintro s ⟨n, hs⟩
  exact attempted_round hs

/-! ### Waiting for a quota -/

/-- `AcquireTaskQuota` returns as soon as there is a quota, -/
theorem returns_acquireTaskQuota {lightweight : Bool} {asked k : ℕ} (hle : asked ≤ k)
    (hk : env.quota lightweight k = true) :
    ∃ quotas, Returns (acquireTaskQuota env lightweight asked) quotas := by
  have hround : ∀ n, n ≤ k →
      Loop.Round (fun n => n ≤ k) (fun t s => k - t < k - s) (fun _ => True) n
      (if env.quota lightweight n then .inr (n + 1) else .inl (n + 1) : ℕ ⊕ ℕ) := by
    intro n hn
    split_ifs with hquota
    · trivial
    · have hne : n ≠ k := fun heq => hquota (heq ▸ hk)
      exact ⟨by omega, by omega⟩
  obtain ⟨quotas, -, hreturns⟩ := Loop.run_measure _ _ _ _ hround hle
  exact ⟨quotas, hreturns⟩

/-- and not at all if there is none. -/
theorem acquireTaskQuota_eq_none {lightweight : Bool} {asked : ℕ}
    (h : ∀ k, asked ≤ k → env.quota lightweight k = false) (fuel : ℕ) :
    acquireTaskQuota env lightweight asked fuel = none := by
  refine Loop.run_eq_none (fun n => asked ≤ n) (fun n hn => ?_) (Nat.le_refl asked) fuel
  refine ⟨n + 1, ?_, by omega⟩
  rw [h n hn]
  rfl

end Attempts

section Compile

variable {env : Environment} {args : CompilerArgs} {destination : Bytes}

/-- What is promised of a run of `Compile` that makes `n` attempts and comes to the state `s`. -/
def Finishes (env : Environment) (args : CompilerArgs) (destination : Bytes)
    (run : ℕ → Option (ℤ × CompileState)) (n : ℕ) (s : CompileState) : Prop :=
  -- an attempt has succeeded, and its files are written
  (∃ m, n = m + 1 ∧ (env.cloud m).exitCode = 0 ∧ s.native = none ∧
      s.written = writeCompileResult destination (env.cloud m).outputFiles ∧ Returns run (0, s)) ∨
    -- the machine has compiled
    (s.native = some env.native ∧ s.written = [] ∧ Returns run (env.native, s)) ∨
    -- the machine would compile, but there is never a quota
    (s.native = none ∧ s.written = [] ∧
      (∀ k, s.quotas ≤ k → env.quota (isLightweight args) k = false) ∧ ∀ fuel, run fuel = none)

/-- A compile on the machine, after some attempts. -/
theorem finishes_onNative {n : ℕ} {s : CompileState} (h : Attempted env n s)
    (hnative : s.native = none) (hwritten : s.written = []) :
    ∃ s', Attempted env n s' ∧
      Finishes env args destination (compileOnNativeUsingQuota env args s) n s' := by
  by_cases hquota : ∃ k, s.quotas ≤ k ∧ env.quota (isLightweight args) k = true
  · obtain ⟨k, hle, hk⟩ := hquota
    obtain ⟨quotas, hreturns⟩ := returns_acquireTaskQuota hle hk
    refine ⟨{ s with quotas := quotas, native := some env.native },
      ⟨h.le, h.attempts, h.rewritten⟩, Or.inr (Or.inl ⟨rfl, hwritten, ?_⟩)⟩
    exact hreturns.map fun quotas => compileOnNative env { s with quotas := quotas }
  · have hnone : ∀ k, s.quotas ≤ k → env.quota (isLightweight args) k = false := fun k hle =>
      Bool.eq_false_iff.2 fun hk => hquota ⟨k, hle, hk⟩
    refine ⟨s, h, Or.inr (Or.inr ⟨hnative, hwritten, hnone, fun fuel => ?_⟩)⟩
    rw [compileOnNativeUsingQuota, acquireTaskQuota_eq_none hnone]
    rfl

/-- A loop that is left for a compile on the machine finishes as that does. -/
theorem Finishes.of_onNative {n : ℕ} {s₀ s s' : CompileState}
    (hloop : Returns (retryLoop env destination s₀) (.onNative s))
    (h : Finishes env args destination (compileOnNativeUsingQuota env args s) n s') :
    Finishes env args destination (compileLoop env args destination s₀) n s' := by
  rcases h with ⟨m, hn, hexit, hnative, hwritten, hreturns⟩ | ⟨hnative, hwritten, hreturns⟩ |
    ⟨hnative, hwritten, hquota, hnone⟩
  · exact Or.inl ⟨m, hn, hexit, hnative, hwritten, hloop.bind hreturns⟩
  · exact Or.inr (Or.inl ⟨hnative, hwritten, hloop.bind hreturns⟩)
  · refine Or.inr (Or.inr ⟨hnative, hwritten, hquota, fun fuel => ?_⟩)
    rw [compileLoop]
    cases hfuel : retryLoop env destination s₀ fuel with
    | none => rfl
    | some exit =>
        rw [(Loop.returns_of_run hfuel).unique hloop]
        exact hnone fuel

/-- The loop, and what follows it. -/
theorem finishes_compileLoop {n : ℕ} {s : CompileState} (h : Ready env n s) :
    ∃ m s', Attempted env m s' ∧
      Finishes env args destination (compileLoop env args destination s) m s' := by
  obtain ⟨exit, hleft, hloop⟩ : ∃ exit, Left env destination exit ∧
    Returns (retryLoop env destination s) exit := returns_retryLoop h
  cases hleft with
  | @succeeded m s' hattempted hexit hnative hwritten =>
      refine ⟨m + 1, s', hattempted, Or.inl ⟨m, rfl, hexit, hnative, hwritten, ?_⟩⟩
      exact hloop.bind (Returns.of_forall fun _ => rfl)
  | @native m s' hattempted hnative hwritten =>
      refine ⟨m, s', hattempted, Or.inr (Or.inl ⟨hnative, hwritten, ?_⟩)⟩
      exact hloop.bind (Returns.of_forall fun _ => rfl)
  | @failed m s' hattempted _ hnative hwritten =>
      obtain ⟨s'', hattempted', hfinishes⟩ := finishes_onNative hattempted hnative hwritten
      exact ⟨m + 1, s'', hattempted', hfinishes.of_onNative hloop⟩

/-- `Compile` with a source that is large enough. -/
theorem compile_eq_loop {result : RewriteResult} (hdist : isDistributable args = true)
    (hrewrite : env.rewrite 0 = some result) (hsmall : ¬ result.zstdRewritten.length < 8192) :
    compile env args destination =
      compileLoop env args destination { rewritten := .fresh result, rewrites := 1 } := by
  funext fuel
  simp [compile, hdist, hrewrite, Rewritten.ofOption, hsmall]

/-- `Compile` compiles on the machine at once, or it begins the loop with a result of `RewriteFile`.
-/
theorem compile_cases (env : Environment) (args : CompilerArgs) (destination : Bytes) :
    (∃ s : CompileState, Attempted env 0 s ∧ s.native = none ∧ s.written = [] ∧
        compile env args destination = compileOnNativeUsingQuota env args s) ∨
      ∃ s, Ready env 0 s ∧ compile env args destination = compileLoop env args destination s := by
  have hnone : ∀ i < 0, (env.rewrite i).isSome = true := fun i hi => absurd hi (Nat.not_lt_zero i)
  by_cases hdist : isDistributable args = true
  · cases hrewrite : env.rewrite 0 with
    | none =>
        refine Or.inl ⟨{ rewritten := .nullopt, rewrites := 1 }, ⟨Nat.zero_le _, rfl, hnone⟩, rfl,
          rfl, ?_⟩
        funext fuel
        simp [compile, hdist, hrewrite, Rewritten.ofOption]
    | some result =>
        by_cases hsmall : result.zstdRewritten.length < 8192
        · refine Or.inl ⟨{ rewritten := .fresh result, rewrites := 1 }, ⟨Nat.zero_le _, rfl, hnone⟩,
            rfl, rfl, ?_⟩
          funext fuel
          simp [compile, hdist, hrewrite, Rewritten.ofOption, hsmall]
        · refine Or.inr ⟨{ rewritten := .fresh result, rewrites := 1 },
            ⟨⟨Nat.zero_le _, rfl, hnone⟩, by decide, ?_, ?_, rfl, rfl, rfl, rfl⟩, ?_⟩
          · rw [hrewrite]
            rfl
          · rw [hrewrite]
            rfl
          · exact compile_eq_loop hdist hrewrite hsmall
  · refine Or.inl ⟨{}, ⟨Nat.zero_le _, rfl, hnone⟩, rfl, rfl, ?_⟩
    funext fuel
    simp [compile, hdist]

end Compile

/-- **What `Compile` returns.**  It makes at most six attempts, each with a result of `RewriteFile`
of its own, and then it returns `0` with the files of an attempt whose exit code was `0`, or the
exit code of a compile on the machine, or it waits for a quota that never comes. -/
theorem compile_result (env : Environment) (args : CompilerArgs) (destination : Bytes) :
    ∃ n s, n ≤ 6 ∧ s.attempts = ((List.range n).map fun i => (env.rewrite i, env.cloud i)) ∧
      (∀ i < n, (env.rewrite i).isSome = true) ∧
      Finishes env args destination (compile env args destination) n s := by
  rcases compile_cases env args destination with
    ⟨s, hattempted, hnative, hwritten, hcompile⟩ | ⟨s, hready, hcompile⟩
  · obtain ⟨s', hattempted', hfinishes⟩ := finishes_onNative hattempted hnative hwritten
    rw [hcompile]
    exact ⟨0, s', hattempted'.le, hattempted'.attempts, hattempted'.rewritten, hfinishes⟩
  · obtain ⟨n, s', hattempted, hfinishes⟩ := finishes_compileLoop hready
    rw [hcompile]
    exact ⟨n, s', hattempted.le, hattempted.attempts, hattempted.rewritten, hfinishes⟩

/-- A preprocessed source that is not too small for the cloud. -/
def largeSource : RewriteResult where
  directivesOnly := true
  cacheControl := .allow
  language := Bytes.ofString "c++"
  sourcePath := Bytes.ofString "t.cc"
  zstdRewritten := List.replicate 8192 0
  sourceDigest := []

/-- The cloud cannot compile the source, and the daemon gives out no quota. -/
def overloaded : Environment where
  cloud := fun _ => { exitCode := 1 }
  quota := fun _ _ => false
  rewrite := fun _ => some largeSource
  native := 0

theorem largeSource_not_small : ¬ largeSource.zstdRewritten.length < 8192 := by
  rw [largeSource, List.length_replicate]
  exact Nat.lt_irrefl _

/-- The client asks for a quota for ever. -/
theorem compile_overloaded :
    ¬ ∃ r, Returns
      (compile overloaded (compileOnly (Bytes.ofString "t.cc")) (Bytes.ofString "t.o")) r := by
  rintro ⟨r, hreturns⟩
  obtain ⟨fuel, hfuel⟩ := hreturns.exists_eq
  have hdist : isDistributable (compileOnly (Bytes.ofString "t.cc")) = true := by decide
  have hnone : ∀ s fuel, compileLoop overloaded (compileOnly (Bytes.ofString "t.cc"))
      (Bytes.ofString "t.o") s fuel = none := by
    intro s fuel
    cases fuel with
    | zero => rfl
    | succ fuel =>
        show compileOnNativeUsingQuota overloaded _ _ _ = none
        rw [compileOnNativeUsingQuota, acquireTaskQuota_eq_none fun _ _ => rfl]
        rfl
  rw [compile_eq_loop hdist rfl largeSource_not_small, hnone] at hfuel
  cases hfuel

end Client
