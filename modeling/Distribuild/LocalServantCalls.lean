/-
**What a daemon makes of the answers of a servant.**

A local daemon talks to the servant that compiles for it in two places.  `CxxDistTask::StartTask`
sends the source in messages and gets the id of the task; `WaitServantTask` polls for the result.
Both are about calls that may fail at any point, and both treat one way of failing as something
else.

* `StartTask` returns `false` where a message cannot be written.  The function returns an optional
  id, so the caller sees an id, and the id is `0`.
* The polling loop sets its retries back when the servant answers that the compile still runs, and
  then goes on to use the result that this answer does not have.

The functions themselves are those of `Distribuild/LocalCxxTask.lean` and
`Distribuild/LocalPerform.lean`.  This module says what they should do for every sequence of
outcomes, and exactly when they do.

Main definitions:

* `Local.PollOutcome` — what one poll can bring;
* `Local.deciding`, `Local.expectedOutput` — the outcome that should end the loop, and the output
  that it should leave;
* `Local.SubmissionRight` — a failed submission is not taken for a started task.

Main results:

* `Local.settle_eq_expectedOutput` — the loop as it is meant leaves that output;
* `Local.poll_loop_iff` — **when the polling loop does**;
* `Local.submission_right_iff` — **when a submission is taken for what it is**.
-/

import Distribuild.LocalPerform

set_option relaxedAutoImplicit false
set_option autoImplicit false

namespace Local

open Scheduler (Status)

/-! ### The outcomes of polls -/

/-- What a poll brings. -/
inductive PollOutcome
  | rpcError
  | running
  | failed
  | done (output : DistOutput)
deriving DecidableEq, Repr

namespace PollOutcome

/-- The outcome as `WaitServantTask(stub, id)` returns it. -/
def result : PollOutcome → Option DistOutput × ℕ
  | rpcError => (none, 1)
  | running => (none, 2)
  | failed => (none, 3)
  | done output => (some output, 0)

/-- The outcome settles nothing yet. -/
def pending : PollOutcome → Bool
  | rpcError => true
  | running => true
  | _ => false

end PollOutcome

open PollOutcome (rpcError running failed done)

/-- Five RPC errors in a row. -/
def GivesUp (outcomes : List PollOutcome) : Prop :=
  List.replicate kRetries rpcError <:+: outcomes

instance (outcomes : List PollOutcome) : Decidable (GivesUp outcomes) :=
  inferInstanceAs (Decidable (_ <:+: _))

/-- **The outcome that should end the loop**: the first one that is not pending, unless there are
five RPC errors in a row before it. -/
def deciding (outcomes : List PollOutcome) : Option PollOutcome :=
  if GivesUp (outcomes.takeWhile PollOutcome.pending) then none
  else outcomes.find? fun outcome => !outcome.pending

/-- **The output that the loop should leave**, when the outcomes are those of the polls that are
made before an abort is seen. -/
def expectedOutput (outcomes : List PollOutcome) (output : DistOutput) : DistOutput :=
  match deciding outcomes with
  | some (.done result) => result
  | some .failed => { output with exitCode := -125 }
  | _ => output

/-! ### The loop as it is meant -/

/-- The loop, if an answer that the compile still runs only set the retries back. -/
def settle : ℕ → List PollOutcome → DistOutput → DistOutput
  | 0, _, output => output
  | _ + 1, [], output => output
  | retries + 1, .rpcError :: outcomes, output => settle retries outcomes output
  | _ + 1, .running :: outcomes, output => settle kRetries outcomes output
  | _ + 1, .failed :: _, output => { output with exitCode := -125 }
  | _ + 1, .done result :: _, _ => result

/-- Too few errors in front of another outcome are no reason to give up. -/
theorem not_replicate_prefix_append {n k : ℕ} (h : k < n) {x : PollOutcome} (hx : x ≠ rpcError)
    (outcomes : List PollOutcome) :
    ¬List.replicate n rpcError <+: List.replicate k rpcError ++ x :: outcomes := by
  induction k generalizing n with
  | zero =>
      obtain ⟨m, rfl⟩ : ∃ m, n = m + 1 := ⟨n - 1, by omega⟩
      rw [List.replicate_succ, List.replicate_zero, List.nil_append, List.cons_prefix_cons]
      exact fun hprefix => hx hprefix.1.symm
  | succ k ih =>
      obtain ⟨m, rfl⟩ : ∃ m, n = m + 1 := ⟨n - 1, by omega⟩
      rw [List.replicate_succ, List.replicate_succ, List.cons_append, List.cons_prefix_cons]
      exact fun hprefix => ih (by omega) hprefix.2

theorem givesUp_append_cons {k : ℕ} (h : k < kRetries) {x : PollOutcome} (hx : x ≠ rpcError)
    (outcomes : List PollOutcome) :
    GivesUp (List.replicate k rpcError ++ x :: outcomes) ↔ GivesUp outcomes := by
  induction k with
  | zero =>
      rw [GivesUp, List.replicate_zero, List.nil_append, List.infix_cons_iff]
      exact or_iff_right (not_replicate_prefix_append h hx outcomes)
  | succ k ih =>
      rw [GivesUp, List.replicate_succ, List.cons_append, List.infix_cons_iff]
      exact (or_iff_right (not_replicate_prefix_append h hx outcomes)).trans (ih (by omega))

/-- Four errors or fewer are no reason to give up. -/
theorem not_givesUp_replicate {k : ℕ} (h : k < kRetries) :
    ¬GivesUp (List.replicate k rpcError) := by
  intro hgives
  have hle := hgives.length_le
  simp only [List.length_replicate] at hle
  omega

/-- Errors are pending. -/
theorem takeWhile_replicate_append (k : ℕ) (outcomes : List PollOutcome) :
    (List.replicate k rpcError ++ outcomes).takeWhile PollOutcome.pending =
      List.replicate k rpcError ++ outcomes.takeWhile PollOutcome.pending := by
  induction k with
  | zero => rfl
  | succ k ih =>
      rw [List.replicate_succ, List.cons_append, List.takeWhile_cons_of_pos rfl, ih,
        List.cons_append]

theorem find?_replicate_append (k : ℕ) (outcomes : List PollOutcome) :
    (List.replicate k rpcError ++ outcomes).find? (fun outcome => !outcome.pending) =
      outcomes.find? fun outcome => !outcome.pending := by
  induction k with
  | zero => rfl
  | succ k ih =>
      rw [List.replicate_succ, List.cons_append, List.find?_cons_of_neg Bool.false_ne_true, ih]

/-- **The loop as it is meant leaves the expected output.** -/
theorem settle_eq_expectedOutput {retries errors : ℕ} (h : errors + retries = kRetries)
    (outcomes : List PollOutcome) (output : DistOutput) :
    settle retries outcomes output =
      expectedOutput (List.replicate errors rpcError ++ outcomes) output := by
  -- the errors since the last answer have been taken from the retries
  induction outcomes generalizing retries errors with
  | nil =>
      have hsettle : settle retries [] output = output := by cases retries <;> rfl
      rw [hsettle, expectedOutput, deciding, find?_replicate_append]
      simp
  | cons outcome outcomes ih =>
      cases retries with
      | zero =>
          have hgives : GivesUp ((List.replicate errors rpcError ++ outcome :: outcomes).takeWhile
              PollOutcome.pending) := by
            rw [takeWhile_replicate_append, GivesUp, ← h]
            exact (List.prefix_append _ _).isInfix
          rw [expectedOutput, deciding, if_pos hgives]
          rfl
      | succ retries =>
          have hlt : errors < kRetries := by omega
          cases outcome with
          | rpcError =>
              rw [settle, ih (show errors + 1 + retries = kRetries by omega), List.replicate_succ',
                List.append_assoc]
              rfl
          | running =>
              rw [settle, ih (show 0 + kRetries = kRetries by omega), List.replicate_zero,
                List.nil_append, expectedOutput, expectedOutput, deciding, deciding, takeWhile_replicate_append,
                find?_replicate_append, List.takeWhile_cons_of_pos rfl,
                List.find?_cons_of_neg Bool.false_ne_true]
              simp only [givesUp_append_cons hlt (by decide : running ≠ rpcError)]
          | failed =>
              rw [settle, expectedOutput, deciding, takeWhile_replicate_append,
                find?_replicate_append, List.takeWhile_cons_of_neg Bool.false_ne_true,
                List.append_nil, if_neg (not_givesUp_replicate hlt), List.find?_cons_of_pos rfl]
          | done result =>
              rw [settle, expectedOutput, deciding, takeWhile_replicate_append,
                find?_replicate_append, List.takeWhile_cons_of_neg Bool.false_ne_true,
                List.append_nil, if_neg (not_givesUp_replicate hlt), List.find?_cons_of_pos rfl]

/-! ### The loop as it is -/

/-- The outcomes of a sequence of polls. -/
def HaveOutcomes (polls : List WaitReply) (outcomes : List PollOutcome) : Prop :=
  List.Forall₂ (fun reply outcome => waitServantTask reply = .ok outcome.result) polls outcomes

/-- An answer that the compile still runs is reached: fewer errors come before it than there are
retries, and nothing else. -/
def ReachesRunning (retries : ℕ) (outcomes : List PollOutcome) : Prop :=
  ∃ errors < retries, ∃ rest, outcomes = List.replicate errors rpcError ++ running :: rest

theorem reachesRunning_rpcError {retries : ℕ} {outcomes : List PollOutcome} :
    ReachesRunning (retries + 1) (rpcError :: outcomes) ↔ ReachesRunning retries outcomes := by
  constructor
  · rintro ⟨errors, hlt, rest, heq⟩
    cases errors with
    | zero => cases heq
    | succ errors =>
        rw [List.replicate_succ, List.cons_append] at heq
        exact ⟨errors, by omega, rest, List.tail_eq_of_cons_eq heq⟩
  · rintro ⟨errors, hlt, rest, rfl⟩
    exact ⟨errors + 1, by omega, rest, rfl⟩

/-- An outcome that is neither an error nor such an answer keeps it from being reached. -/
theorem not_reachesRunning {retries : ℕ} {outcome : PollOutcome} {outcomes : List PollOutcome}
    (h : outcome.pending = false) : ¬ReachesRunning retries (outcome :: outcomes) := by
  rintro ⟨errors, -, rest, heq⟩
  cases errors with
  | zero =>
      cases heq
      cases h
  | succ errors =>
      cases heq
      cases h

/-- **What the loop does**: if an answer is reached that the compile still runs, the absent result
is used; otherwise it does what it is meant to do. -/
theorem waitServantTaskLoop_outcomes {polls : List WaitReply} {outcomes : List PollOutcome}
    (h : HaveOutcomes polls outcomes) (retries : ℕ) (output : DistOutput) :
    (ReachesRunning retries outcomes ∧
      waitServantTaskLoop retries polls output = .error .undefined) ∨
    (¬ReachesRunning retries outcomes ∧
      waitServantTaskLoop retries polls output = .ok (settle retries outcomes output)) := by
  induction h generalizing retries with
  | nil =>
      refine Or.inr ⟨?_, by cases retries <;> rfl⟩
      rintro ⟨errors, -, rest, heq⟩
      cases errors <;> cases heq
  | @cons reply outcome polls outcomes hreply _ ih =>
      cases retries with
      | zero => exact Or.inr ⟨fun ⟨_, hlt, _⟩ => absurd hlt (Nat.not_lt_zero _), rfl⟩
      | succ retries =>
          rw [waitServantTaskLoop, hreply]
          cases outcome with
          | rpcError =>
              rw [reachesRunning_rpcError]
              exact ih retries
          | running => exact Or.inl ⟨⟨0, Nat.succ_pos _, outcomes, rfl⟩, rfl⟩
          | failed => exact Or.inr ⟨not_reachesRunning rfl, rfl⟩
          | done result => exact Or.inr ⟨not_reachesRunning rfl, rfl⟩

/-- **When the polling loop leaves the expected output.**  For every sequence of outcomes, up to the
moment at which an abort is seen, it does so if and only if no answer that the compile still runs
comes first or after fewer than five RPC errors and nothing else. -/
theorem poll_loop_iff (outcomes : List PollOutcome) (polls : List WaitReply)
    (h : HaveOutcomes polls outcomes) (output : DistOutput) :
    waitServantTaskLoop kRetries polls output = .ok (expectedOutput outcomes output) ↔
      ∀ errors < kRetries, ∀ rest,
        outcomes ≠ List.replicate errors rpcError ++ running :: rest := by
  have hmeant : settle kRetries outcomes output = expectedOutput outcomes output :=
    settle_eq_expectedOutput (Nat.zero_add _) outcomes output
  rcases waitServantTaskLoop_outcomes h kRetries output with ⟨hreach, hloop⟩ | ⟨hnot, hloop⟩
  · rw [hloop]
    obtain ⟨errors, hlt, rest, heq⟩ := hreach
    exact iff_of_false (fun h => by cases h) fun hall => hall errors hlt rest heq
  · rw [hloop, hmeant]
    exact iff_of_true rfl fun errors hlt rest heq => hnot ⟨errors, hlt, rest, heq⟩

/-- A poll that is not answered. -/
def unanswered : WaitReply where
  chunks := []
  status := { code := .notFound }

/-- A poll with this answer. -/
def answeredWith (response : Cloud.WaitForTaskResponse) : WaitReply where
  chunks := [{ response := some response }]
  status := Status.OK

/-- Four calls fail and the fifth brings the output of a compile that has failed. -/
theorem poll_loop_late_answer :
    waitServantTaskLoop kRetries (List.replicate 4 unanswered ++
        [answeredWith { taskStatus := .done, exitCode := 1 }]) pendingOutput =
      .ok { exitCode := 1 } := by
  have hout : HaveOutcomes (List.replicate 4 unanswered ++
      [answeredWith { taskStatus := .done, exitCode := 1 }])
      (List.replicate 4 rpcError ++ [.done { exitCode := 1 }]) :=
    .cons rfl (.cons rfl (.cons rfl (.cons rfl (.cons rfl .nil))))
  refine (poll_loop_iff _ _ hout pendingOutput).2 fun errors hlt rest heq => ?_
  have hmem : running ∈ List.replicate 4 rpcError ++ [.done { exitCode := 1 }] := by
    rw [heq]
    simp
  exact absurd hmem (by decide)

/-- **The first answer is that the compile still runs**, and the absent result is used; the second
would have brought the output. -/
theorem running_answer_used :
    let polls := [answeredWith { taskStatus := .running },
      answeredWith { taskStatus := .done, exitCode := 1 }]
    HaveOutcomes polls [.running, .done { exitCode := 1 }] ∧
      expectedOutput [.running, .done { exitCode := 1 }] pendingOutput = { exitCode := 1 } ∧
      waitServantTaskLoop kRetries polls pendingOutput = .error .undefined :=
  ⟨.cons rfl (.cons rfl .nil), by decide, rfl⟩

/-! ### Submissions -/

/-- **A failed submission is not taken for a started task**: `StartTask` returns an id exactly if
the call `QueueCxxTask` is finished and its status is `OK`, and then that of the response; in every
other case the grant is given back, and there is neither a wait nor a task to free. -/
structure SubmissionRight (b : Behaviour) : Prop where
  engaged : ∀ taskId, b.task.startTask b.chunkSize b.submit = some taskId →
    b.task.queued b.chunkSize b.submit = true ∧ taskId = b.submit.taskId
  started : b.task.queued b.chunkSize b.submit = true →
    b.task.startTask b.chunkSize b.submit = some b.submit.taskId
  givenUp : b.task.queued b.chunkSize b.submit = false →
    ∀ grant, getGrant b.grants = some grant → startNewServantTask b =
      { calls := [.grantObtained grant.grantId, .freeGrant grant.grantId]
        result := .ok pendingOutput }

/-- If every message is written, the status decides. -/
theorem startTask_of_written {task : CxxDistTask} {chunkSize : ℕ} {reply : SubmitReply}
    (h : (Loop.sendFile chunkSize task.source reply.acceptedWrites).isSome = true) :
    task.startTask chunkSize reply =
      if task.queued chunkSize reply then some reply.taskId else none := by
  obtain ⟨pieces, hsend⟩ := Option.isSome_iff_exists.1 h
  rw [CxxDistTask.startTask, CxxDistTask.queued, hsend]
  by_cases hcode : reply.status.code = .ok
  · simp [hcode]
  · simp [hcode]

/-- Where a message cannot be written, there is an id all the same. -/
theorem startTask_of_refused {task : CxxDistTask} {chunkSize : ℕ} {reply : SubmitReply}
    (h : (Loop.sendFile chunkSize task.source reply.acceptedWrites).isSome = false) :
    task.startTask chunkSize reply = some 0 ∧ task.queued chunkSize reply = false := by
  rw [Option.isSome_eq_false_iff, Option.isNone_iff_eq_none] at h
  rw [CxxDistTask.startTask, CxxDistTask.queued, h]
  exact ⟨rfl, rfl⟩

/-- **When a submission is taken for what it is.**  For every source, every chunk size and every way
in which the writes and the call go, it is so if and only if every message is written: the request,
and as many chunks as the source has. -/
theorem submission_right_iff (b : Behaviour) :
    SubmissionRight b ↔ 1 ≤ b.submit.acceptedWrites ∧
      b.task.source.length ≤ (b.submit.acceptedWrites - 1) * b.chunkSize := by
  rw [← Loop.sendFile_isSome]
  cases hsend : (Loop.sendFile b.chunkSize b.task.source b.submit.acceptedWrites).isSome with
  | false =>
      refine iff_of_false (fun hright => ?_) Bool.false_ne_true
      obtain ⟨hstart, hqueued⟩ := startTask_of_refused hsend
      have hengaged := (hright.engaged 0 hstart).1
      rw [hqueued] at hengaged
      cases hengaged
  | true =>
      refine iff_of_true ?_ rfl
      have hstart := startTask_of_written hsend
      constructor
      · intro taskId hid
        rw [hstart] at hid
        split at hid
        next hqueued =>
          cases hid
          exact ⟨hqueued, rfl⟩
        next => cases hid
      · intro hqueued
        rw [hstart, if_pos hqueued]
      · intro hqueued grant hgrant
        rw [hqueued, if_neg Bool.false_ne_true] at hstart
        simp only [startNewServantTask, hgrant, hstart]

/-- `Local.fruitlessCompile`, but the message with the source is not written. -/
def brokenSubmission : Behaviour :=
  { fruitlessCompile with
    submit := { acceptedWrites := 1, status := { code := .resourceExhausted }, taskId := 0 }
    polls := [] }

/-- **A broken stream is taken for a started task** with the id `0`: the daemon waits for it, and
frees the task of that id at the servant. -/
theorem broken_stream_started :
    1 ≤ brokenSubmission.chunkSize ∧
      brokenSubmission.task.queued brokenSubmission.chunkSize brokenSubmission.submit = false ∧
      brokenSubmission.task.startTask brokenSubmission.chunkSize brokenSubmission.submit = some 0 ∧
      (startNewServantTask brokenSubmission).calls =
        [.grantObtained 7, .freeServantTask "10.0.0.1:8335" 0, .freeGrant 7] ∧
      ¬SubmissionRight brokenSubmission := by
  have hqueued : brokenSubmission.task.queued brokenSubmission.chunkSize
      brokenSubmission.submit = false := by decide
  have hstart : brokenSubmission.task.startTask brokenSubmission.chunkSize
      brokenSubmission.submit = some 0 := by decide
  refine ⟨by decide, hqueued, hstart, by decide, fun hright => ?_⟩
  have hengaged := (hright.engaged 0 hstart).1
  rw [hqueued] at hengaged
  cases hengaged

end Local
