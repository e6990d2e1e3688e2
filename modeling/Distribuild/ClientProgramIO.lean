/-
**Feeding a program and reading what it says.**

The client preprocesses a source by running the compiler: it starts a program, writes its standard
input into a pipe and reads its standard output and standard error from two others.
`HandleProgramIO` does this in one loop around `poll`: whichever pipe is ready is served, and the
loop ends when all three are done.  This module embeds `HandleProgramIO` from
`client/common/command.cpp`, with `ReadTo` from `common/io.h`.

The input is fed by `WriteTo`, which may take only a part of it; `stdin_bytes` is where the next
round goes on.  That part of the loop is right, and `Client.received_run` says so.  What is not
right is the end of an input: when nothing is left to write, a call of `write` returns `0` without
looking at anything, and `WriteTo` takes that for a failure and looks at `errno`.  The value it
finds there is the one that the last failing call has left behind, which may have been an
interrupted `poll`.

In a round the operating system answers `poll` and every `write` and `read` there is.  Closing a
pipe is taken to succeed.

Main definitions:

* `Common.ReadAnswer`, `Common.readTo` — `read` and `ReadTo`;
* `Client.ProgramPipes`, `Client.handleRound`, `Client.handleProgramIO` — the loop;
* `Client.Received` — what the program has received of its input.

Main results:

* `Client.received_round`, `Client.received_run` — **the program receives its input in order**;
* `Client.writeTo_count_iff` — when `WriteTo` returns what `write` has returned;
* `Client.writeTo_returns_iff_of_success` — **when `WriteTo` is done after one call**, and when the
  loop is done with an input that is empty.
-/

import Distribuild.SystemWrite

set_option relaxedAutoImplicit false
set_option autoImplicit false

namespace Common

/-- The size of `io_buffer`. -/
def ioBufferSize : ℕ := 128 * 1024

/-- What a call of `read` into the buffer does. -/
inductive ReadAnswer
  | read (bytes : Bytes) (le : bytes.length ≤ ioBufferSize)
  | failed (errno : ℕ)
deriving DecidableEq

/-- One round of `ReadTo`, with the number of calls and `errno`.  The result is what was read, or
nothing for `-1`. -/
def readToRound (answers : ℕ → ReadAnswer) (s : ℕ × ℕ) : (ℕ × ℕ) ⊕ (Option Bytes × ℕ) :=
  match answers s.1 with
  | .read bytes _ => .inr (some bytes, s.2)
  | .failed errno => if errno = eintr then .inl (s.1 + 1, errno) else .inr (none, errno)

/-- `ReadTo`, with the `errno` before and after it. -/
def readTo (answers : ℕ → ReadAnswer) (errno : ℕ) (fuel : ℕ) : Option (Option Bytes × ℕ) :=
  Loop.run (readToRound answers) fuel (0, errno)

end Common

namespace Client

open Common Loop

/-! ### The loop -/

/-- What `poll` does: it fails, or it says which of the pipes are ready. -/
inductive PollAnswer
  | failed (errno : ℕ)
  | ready (stdin stdout stderr : Bool)
deriving DecidableEq, Repr

/-- What the operating system does in one round. -/
structure IORound where
  poll : PollAnswer
  write : (requested : ℕ) → ℕ → WriteAnswer requested
  readStdout : ℕ → ReadAnswer
  readStderr : ℕ → ReadAnswer

/-- The variables of `HandleProgramIO`, what the program has received, and `errno`. -/
structure ProgramPipes where
  errno : ℕ
  stdinBytes : ℕ := 0
  inDone : Bool := false
  outDone : Bool := false
  errDone : Bool := false
  stdin : Bytes := []
  standardOutput : Bytes := []
  standardError : Bytes := []
  /-- History: the calls of `write`. -/
  writes : ℕ := 0
deriving DecidableEq

namespace ProgramPipes

/-- The branch of `stdin_writer` behind `WriteTo`.  With a failure the input is done with. -/
def fed (input : Bytes) (s : ProgramPipes) (r : ℤ × Written) : ProgramPipes :=
  let bytes := r.1
  let s := { s with stdin := r.2.file, errno := r.2.errno, writes := s.writes + r.2.calls }
  if bytes ≥ 0 then
    let s := { s with stdinBytes := s.stdinBytes + bytes.toNat }
    if s.stdinBytes = input.length then { s with inDone := true } else s
  else { s with inDone := true }

/-- The branch of `stdin_writer`. -/
def serveStdin (input : Bytes) (round : IORound) (s : ProgramPipes) (fuel : ℕ) :
    Option ProgramPipes :=
  (writeTo input s.stdinBytes (round.write _) s.stdin s.errno fuel).map (s.fed input)

/-- The branch of `stdout_reader`.  A failed `read` is logged, and taken for the end. -/
def serveStdout (round : IORound) (s : ProgramPipes) (fuel : ℕ) : Option ProgramPipes :=
  (readTo round.readStdout s.errno fuel).map fun (bytes, errno) =>
    match bytes with
    | some (b :: bytes) =>
        { s with standardOutput := s.standardOutput ++ b :: bytes, errno := errno }
    | _ => { s with outDone := true, errno := errno }

/-- The branch of `stderr_reader`. -/
def serveStderr (round : IORound) (s : ProgramPipes) (fuel : ℕ) : Option ProgramPipes :=
  (readTo round.readStderr s.errno fuel).map fun (bytes, errno) =>
    match bytes with
    | some (b :: bytes) => { s with standardError := s.standardError ++ b :: bytes, errno := errno }
    | _ => { s with errDone := true, errno := errno }

/-- The condition of the loop. -/
def done (s : ProgramPipes) : Bool := s.inDone && s.outDone && s.errDone

end ProgramPipes

/-- One round of `HandleProgramIO`.  Outside it returns nothing if a branch does not return, and
inside if the program is aborted.  A pipe that is done is not registered with `poll`. -/
def handleRound (input : Bytes) (round : IORound) (s : ProgramPipes) (fuel : ℕ) :
    Option (Option ProgramPipes) :=
  match round.poll with
  | .failed errno => if errno = eintr then some (some { s with errno := errno }) else some none
  | .ready stdin stdout stderr =>
      ((if !s.inDone && stdin then s.serveStdin input round fuel else some s).bind fun s =>
        (if !s.outDone && stdout then s.serveStdout round fuel else some s).bind fun s =>
          if !s.errDone && stderr then s.serveStderr round fuel else some s).map some

/-- `HandleProgramIO` for as many rounds as there are. -/
def handleProgramIO (input : Bytes) (fuel : ℕ) :
    List IORound → ProgramPipes → Option (Option ProgramPipes)
  | [], s => some (some s)
  | round :: rounds, s =>
      if s.done then some (some s)
      else
        match handleRound input round s fuel with
        | none => none
        | some none => some none
        | some (some s) => handleProgramIO input fuel rounds s

/-! ### What the program receives -/

/-- The program has received the first `stdin_bytes` bytes of its input. -/
structure Received (input : Bytes) (s : ProgramPipes) : Prop where
  le : s.stdinBytes ≤ input.length
  eq : s.stdin = input.take s.stdinBytes

section Rounds

variable {input : Bytes} {round : IORound} {s s' : ProgramPipes} {fuel : ℕ}

/-- What `WriteTo` returns is what the descriptor has received, unless it is `-1`: then it has
received nothing. -/
theorem result_eq_count {requested : ℕ} (answer : WriteAnswer requested) (errno : ℕ) :
    answer.result errno = answer.count ∨ answer.result errno = -1 ∧ answer.count = 0 := by
  rw [WriteAnswer.result]
  split_ifs with hpos heagain
  · exact Or.inl rfl
  · exact Or.inl (by omega)
  · exact Or.inr ⟨rfl, by omega⟩

theorem count_le {requested : ℕ} (answer : WriteAnswer requested) : answer.count ≤ requested := by
  cases answer with
  | wrote n hle => exact Nat.le_trans hle (Nat.min_le_left _ _)
  | failed e => exact Nat.zero_le _

@[simp] theorem ProgramPipes.fed_stdin (input : Bytes) (s : ProgramPipes) (r : ℤ × Written) :
    (s.fed input r).stdin = r.2.file := by
  simp only [ProgramPipes.fed]
  split_ifs
  · rfl
  · rfl
  · rfl

@[simp] theorem ProgramPipes.fed_writes (input : Bytes) (s : ProgramPipes) (r : ℤ × Written) :
    (s.fed input r).writes = s.writes + r.2.calls := by
  simp only [ProgramPipes.fed]
  split_ifs
  · rfl
  · rfl
  · rfl

/-- The input is gone on with behind what was written. -/
theorem ProgramPipes.fed_stdinBytes {input : Bytes} {s : ProgramPipes} {r : ℤ × Written} {n : ℕ}
    (h : r.1 = n) : (s.fed input r).stdinBytes = s.stdinBytes + n := by
  simp only [ProgramPipes.fed, h]
  rw [if_pos (Int.natCast_nonneg n)]
  split_ifs
  · rfl
  · rfl

theorem ProgramPipes.fed_failed {input : Bytes} {s : ProgramPipes} {r : ℤ × Written}
    (h : r.1 = -1) :
    (s.fed input r).stdinBytes = s.stdinBytes ∧ (s.fed input r).inDone = true := by
  simp only [ProgramPipes.fed, h]
  rw [if_neg (by decide)]
  exact ⟨rfl, rfl⟩

theorem ProgramPipes.fed_inDone {input : Bytes} {s : ProgramPipes} {r : ℤ × Written} {n : ℕ}
    (h : r.1 = n) (hend : s.stdinBytes + n = input.length) : (s.fed input r).inDone = true := by
  simp only [ProgramPipes.fed, h]
  rw [if_pos (Int.natCast_nonneg n)]
  exact if_pos hend ▸ rfl

theorem received_serveStdin (h : Received input s)
    (hserve : s.serveStdin input round fuel = some s') : Received input s' := by
  rw [ProgramPipes.serveStdin, Option.map_eq_some_iff] at hserve
  obtain ⟨r, hwrite, rfl⟩ := hserve
  obtain ⟨k, -, rfl⟩ := writeTo_returns_iff.1 (returns_of_run hwrite)
  have hcount := count_le (round.write (input.length - s.stdinBytes) k)
  have hstdin : s.stdin ++ (input.drop s.stdinBytes).take
      (round.write (input.length - s.stdinBytes) k).count =
        input.take (s.stdinBytes + (round.write (input.length - s.stdinBytes) k).count) := by
    rw [h.eq, List.take_add]
  have hle := h.le
  rcases result_eq_count (round.write (input.length - s.stdinBytes) k)
    (errnoBefore s.errno k) with hresult | ⟨hresult, hzero⟩
  · refine ⟨?_, ?_⟩
    · rw [ProgramPipes.fed_stdinBytes hresult]
      omega
    · rw [ProgramPipes.fed_stdinBytes hresult, ProgramPipes.fed_stdin]
      exact hstdin
  · rw [hzero, Nat.add_zero] at hstdin
    refine ⟨?_, ?_⟩
    · rw [(ProgramPipes.fed_failed hresult).1]
      exact hle
    · rw [(ProgramPipes.fed_failed hresult).1, ProgramPipes.fed_stdin, ← hstdin, ← hzero]
      rfl

theorem received_serveStdout (h : Received input s)
    (hserve : s.serveStdout round fuel = some s') : Received input s' := by
  rw [ProgramPipes.serveStdout, Option.map_eq_some_iff] at hserve
  obtain ⟨⟨bytes, errno⟩, -, rfl⟩ := hserve
  rcases bytes with _ | _ | ⟨b, bytes⟩
  · exact ⟨h.le, h.eq⟩
  · exact ⟨h.le, h.eq⟩
  · exact ⟨h.le, h.eq⟩

theorem received_serveStderr (h : Received input s)
    (hserve : s.serveStderr round fuel = some s') : Received input s' := by
  rw [ProgramPipes.serveStderr, Option.map_eq_some_iff] at hserve
  obtain ⟨⟨bytes, errno⟩, -, rfl⟩ := hserve
  rcases bytes with _ | _ | ⟨b, bytes⟩
  · exact ⟨h.le, h.eq⟩
  · exact ⟨h.le, h.eq⟩
  · exact ⟨h.le, h.eq⟩

/-- A branch is taken or left out. -/
theorem received_branch {branch : Option ProgramPipes} {taken : Bool} (h : Received input s)
    (hbranch : ∀ s', branch = some s' → Received input s')
    (heq : (if taken = true then branch else some s) = some s') : Received input s' := by
  split at heq
  · exact hbranch s' heq
  · rw [← Option.some_inj.1 heq]
    exact h

/-- **A round goes on where the program stopped receiving.** -/
theorem received_round (h : Received input s)
    (hround : handleRound input round s fuel = some (some s')) : Received input s' := by
  rw [handleRound] at hround
  split at hround
  · split at hround
    · cases hround
      exact ⟨h.le, h.eq⟩
    · cases hround
  · simp only [Option.map_eq_some_iff, Option.bind_eq_some_iff] at hround
    obtain ⟨s₃, ⟨s₁, h₁, s₂, h₂, h₃⟩, heq⟩ := hround
    cases heq
    have hstdin := received_branch h (fun _ => received_serveStdin h) h₁
    have hstdout := received_branch hstdin (fun _ => received_serveStdout hstdin) h₂
    exact received_branch hstdout (fun _ => received_serveStderr hstdout) h₃

/-- **The program receives its input in order**, however little a call of `write` takes. -/
theorem received_run {rounds : List IORound} (h : Received input s)
    (hrun : handleProgramIO input fuel rounds s = some (some s')) : Received input s' := by
  induction rounds generalizing s with
  | nil =>
      cases hrun
      exact h
  | cons round rounds ih =>
      rw [ handleProgramIO] at hrun
      split at hrun
      · cases hrun
        exact h
      · split at hrun
        · cases hrun
        · cases hrun
        next s₁ hround => exact ih (received_round h hround) hrun

end Rounds

/-! ### When nothing is left to write -/

/-- A call of `write` that succeeds is the last one, and what it returns is returned, exactly if it
has written something or `errno` happens to be `EAGAIN`. -/
theorem writeTo_count_iff {data : Bytes} {start : ℕ}
    {answers : ℕ → WriteAnswer (data.length - start)} {file : Bytes} {errno n : ℕ}
    {hle : n ≤ min (data.length - start) writeMax} (h : answers 0 = .wrote n hle) :
    (∃ written, Returns (writeTo data start answers file errno) (↑n, written) ∧ written.calls = 1) ↔
      0 < n ∨ errno = eagain := by
  have hfirst : Decisive answers errno 0 ↔ ¬ (n = 0 ∧ errno = eintr) := by
    simp [Decisive, h, WriteAnswer.repeated, errnoBefore]
  have hafter : writtenAfter data start answers file errno 0 =
      (if 0 < n then ↑n else if errno = eagain then 0 else -1,
        { file := file ++ (data.drop start).take n, errno := errno, calls := 1 }) := by
    simp [writtenAfter, h, WriteAnswer.result, WriteAnswer.count, WriteAnswer.errnoAfter,
      errnoBefore]
  constructor
  · rintro ⟨written, hreturns, hcalls⟩
    obtain ⟨k, hk, heq⟩ := writeTo_returns_iff.1 hreturns
    have hzero : k = 0 := by
      have := congrArg (fun r => r.2.calls) heq
      simp only [writtenAfter, hcalls] at this
      omega
    subst hzero
    rw [hafter] at heq
    have hresult := congrArg Prod.fst heq
    simp only at hresult
    by_contra hnot
    rw [not_or] at hnot
    rw [if_neg hnot.1, if_neg hnot.2] at hresult
    omega
  · intro hor
    have hk : Decisive answers errno 0 := by
      rw [hfirst]
      rintro ⟨rfl, rfl⟩
      rcases hor with hlt | heq
      · exact Nat.lt_irrefl 0 hlt
      · exact absurd heq (by decide)
    have hreturns : Returns (writeTo data start answers file errno) _ := writeTo_of_decisive hk
    have hresult : (if 0 < n then (n : ℤ) else if errno = eagain then 0 else -1) = n := by
      rcases Nat.eq_zero_or_pos n with rfl | hpos
      · rw [if_neg (Nat.lt_irrefl 0), if_pos (hor.resolve_left (Nat.lt_irrefl 0))]
        rfl
      · rw [if_pos hpos]
    rw [hafter, hresult] at hreturns
    exact ⟨_, hreturns, rfl⟩

/-- A call that was asked to write nothing and succeeded is repeated if `errno` is `EINTR`. -/
theorem repeated_of_success {requested : ℕ} {answer : WriteAnswer requested}
    (h : ∃ n hle, answer = .wrote n hle) (hzero : requested = 0) (errno : ℕ) :
    answer.count = 0 ∧ answer.repeated errno = decide (errno = eintr) := by
  obtain ⟨n, hle, rfl⟩ := h
  have hn : n = 0 := by omega
  subst hn
  exact ⟨rfl, by simp [WriteAnswer.repeated]⟩

/-- **An input that is empty**: its branch is left after one call of `write`, unless `errno` is
`EINTR` from before. -/
theorem serveStdin_nil_iff {s : ProgramPipes} {round : IORound} (h : Received [] s)
    (hwrite : ∀ k, ∃ n hle, round.write (([] : Bytes).length - s.stdinBytes) k = .wrote n hle) :
    (∃ s', Returns (s.serveStdin [] round) s' ∧ s'.writes = s.writes + 1 ∧ s'.inDone = true) ↔
      s.errno ≠ eintr := by
  have hbytes : s.stdinBytes = 0 := Nat.le_zero.1 h.le
  have hanswer := fun k errno => repeated_of_success (hwrite k) (Nat.zero_sub _) errno
  by_cases herrno : s.errno = eintr
  · -- every call returns `0` and is repeated
    refine iff_of_false ?_ (not_not.2 herrno)
    rintro ⟨s', hreturns, -⟩
    obtain ⟨fuel, hfuel⟩ := hreturns.exists_eq
    have hnone : ∀ k, ¬ Decisive (round.write (([] : Bytes).length - s.stdinBytes)) s.errno k := by
      rintro k ⟨-, hk⟩
      rw [(hanswer k _).2, errnoBefore, herrno, ite_self] at hk
      exact absurd hk (by decide)
    rw [ProgramPipes.serveStdin, writeTo_not_decisive hnone] at hfuel
    cases hfuel
  · refine iff_of_true ?_ herrno
    have hk : Decisive (round.write (([] : Bytes).length - s.stdinBytes)) s.errno 0 := by
      refine ⟨fun i hi => absurd hi (Nat.not_lt_zero i), ?_⟩
      rw [(hanswer 0 _).2]
      exact decide_eq_false herrno
    have hreturns : Returns (writeTo [] s.stdinBytes (round.write _) s.stdin s.errno) _ :=
      writeTo_of_decisive hk
    refine ⟨_, hreturns.map (s.fed []), ProgramPipes.fed_writes _ _ _, ?_⟩
    rcases result_eq_count (round.write (([] : Bytes).length - s.stdinBytes) 0)
      (errnoBefore s.errno 0) with hresult | ⟨hresult, -⟩
    · refine ProgramPipes.fed_inDone hresult ?_
      rw [(hanswer 0 0).1]
      exact hbytes
    · exact (ProgramPipes.fed_failed hresult).2

/-- The program has received nothing at the start. -/
theorem received_start (input : Bytes) (errno : ℕ) : Received input { errno := errno } :=
  ⟨Nat.zero_le _, rfl⟩

/-- **When `WriteTo` is done after one call.**  A call of `write` that succeeds is the last one and
gives the result exactly if it has written something or `errno` is `EAGAIN` from before.  In a run
of `HandleProgramIO` with an empty input, the branch of `stdin_writer` is left after one call
exactly if `errno` is not `EINTR` from before. -/
theorem writeTo_returns_iff_of_success (errno : ℕ) :
    (∀ (data : Bytes) (start : ℕ) (answers : ℕ → WriteAnswer (data.length - start)) (file : Bytes)
        (n : ℕ) (hle : n ≤ min (data.length - start) writeMax), start ≤ data.length →
        answers 0 = .wrote n hle →
        ((∃ written, Returns (writeTo data start answers file errno) (↑n, written) ∧
            written.calls = 1) ↔
          0 < n ∨ errno = eagain)) ∧
      ∀ (fuel : ℕ) (rounds : List IORound) (s : ProgramPipes) (round : IORound),
        handleProgramIO [] fuel rounds { errno := errno } = some (some s) → s.inDone = false →
        (∀ k, ∃ n hle, round.write (([] : Bytes).length - s.stdinBytes) k = .wrote n hle) →
        ((∃ s', Returns (s.serveStdin [] round) s' ∧ s'.writes = s.writes + 1 ∧ s'.inDone = true) ↔
          s.errno ≠ eintr) := by
  refine ⟨?_, ?_⟩
  · intro data start answers file n hle _ h
    exact writeTo_count_iff h
  · intro fuel rounds s round hrun _ hwrite
    exact serveStdin_nil_iff (received_run (received_start [] errno) hrun) hwrite

/-- A round that `poll` is interrupted in. -/
def interruptedRound : IORound where
  poll := .failed eintr
  write := fun _ _ => .wrote 0 (Nat.zero_le _)
  readStdout := fun _ => .read [] (Nat.zero_le _)
  readStderr := fun _ => .read [] (Nat.zero_le _)

/-- A round in which the program can be fed. -/
def writableRound : IORound := { interruptedRound with poll := .ready true false false }

/-- A call that takes everything after an interrupted one, and an empty input before any failure. -/
theorem writeTo_returns_iff_of_success_abc :
    ((∃ written, Returns (writeTo (Bytes.ofString "abc") 0 (fun _ => .wrote 3 (by decide)) [] eintr)
        (3, written) ∧ written.calls = 1) ↔ 0 < 3 ∨ eintr = eagain) ∧
      ((∃ s', Returns (ProgramPipes.serveStdin [] writableRound { errno := 0 }) s' ∧
          s'.writes = 0 + 1 ∧ s'.inDone = true) ↔ 0 ≠ eintr) :=
  ⟨(writeTo_returns_iff_of_success eintr).1 _ 0 _ [] 3 (by decide) (by decide) rfl,
    (writeTo_returns_iff_of_success 0).2 1 [] { errno := 0 } writableRound rfl rfl fun _ =>
      ⟨0, Nat.zero_le _, rfl⟩⟩

/-- With nothing left to write and a stale `errno`, a call that returns `0` is taken for an
interrupted one or for a failed one; so an interrupted `poll` makes `HandleProgramIO` write nothing
for ever. -/
theorem writeTo_stale_errno :
    (¬ ∃ written, Returns (writeTo [120] 1 (fun _ => .wrote 0 (Nat.zero_le _)) [] eintr)
        (0, written) ∧ written.calls = 1) ∧
      (¬ ∃ written, Returns (writeTo [120] 1 (fun _ => .wrote 0 (Nat.zero_le _)) [] 0)
        (0, written) ∧ written.calls = 1) ∧
      handleProgramIO [] 1 [interruptedRound] { errno := 0 } = some (some { errno := eintr }) ∧
      ¬ ∃ s', Returns (ProgramPipes.serveStdin [] writableRound { errno := eintr }) s' ∧
        s'.writes = 1 ∧ s'.inDone = true := by
  refine ⟨fun h => ?_, fun h => ?_, rfl, fun h => ?_⟩
  · exact absurd ((writeTo_count_iff (n := 0) rfl).1 h) (by decide)
  · exact absurd ((writeTo_count_iff (n := 0) rfl).1 h) (by decide)
  · have hreceived : Received [] { errno := eintr } := received_start [] eintr
    exact absurd rfl ((serveStdin_nil_iff hreceived fun _ => ⟨0, Nat.zero_le _, rfl⟩).1 h)

end Client
