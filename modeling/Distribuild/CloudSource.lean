/-
**The source of a compile.**

A servant puts the source of a compile into a temporary file, which becomes the standard input of
the compiler.  `TempFile::Write` makes one call of `WriteTo` for that and does not look at its
result, and `TryQueueTask` starts the compiler whatever the file holds then.  This module embeds
`TempFile::Write` and the part of `TryQueueTask` that passes the source on.

Main definitions:

* `Cloud.TempFile.write`, `Cloud.tryQueueTaskFromSource` — the source of a compile.

Main results:

* `Cloud.tryQueueTaskFromSource_of_decisive` — what the compiler reads is what one call of `write`
  has taken;
* `Cloud.source_complete_iff` — **when the compiler reads the whole source**.
-/

import Mathlib.Data.List.TakeDrop
import Distribuild.CloudExecutor
import Distribuild.SystemWrite

set_option relaxedAutoImplicit false
set_option autoImplicit false

namespace Cloud

open Common Loop

/-! ### Passing the source on -/

/-- `TempFile::Write` on a new file: what is in the file afterwards. -/
def TempFile.write (source : Bytes) (answers : ℕ → WriteAnswer (source.length - 0)) (errno : ℕ)
    (fuel : ℕ) : Option Bytes :=
  (writeTo source 0 answers [] errno fuel).map fun r => r.2.file

variable {τ : Type}

/-- `TryQueueTask` with the standard input of the program that it starts, where `getSource` is
`GetSource` of a task.  Nothing is started when the task is not taken. -/
def tryQueueTaskFromSource (getSource : τ → Bytes) (e : Executor τ) (grantId : UInt64)
    (userTask : τ) (availMemory : UInt64) (pid : Pid) (now : TimePoint)
    (answers : ℕ → WriteAnswer ((getSource userTask).length - 0)) (errno : ℕ) (fuel : ℕ) :
    Option ((Executor τ × Option UInt64) × Option Bytes) :=
  let queued := tryQueueTask e grantId userTask availMemory pid now
  match (tryStartingNewTaskUnsafe e availMemory).2 with
  | none => some (queued, none)
  | some _ =>
      (TempFile.write (getSource userTask) answers errno fuel).map fun stdin => (queued, some stdin)

theorem tryQueueTask_snd (e : Executor τ) (grantId : UInt64) (userTask : τ)
    (availMemory : UInt64) (pid : Pid) (now : TimePoint) :
    (tryQueueTask e grantId userTask availMemory pid now).2 =
      (tryStartingNewTaskUnsafe e availMemory).2 := by
  rw [tryQueueTask]
  rcases tryStartingNewTaskUnsafe e availMemory with ⟨e', _ | taskId⟩
  · rfl
  · rfl

section Source

variable {getSource : τ → Bytes} {e : Executor τ} {grantId : UInt64} {userTask : τ}
  {availMemory : UInt64} {pid : Pid} {now : TimePoint}
  {answers : ℕ → WriteAnswer ((getSource userTask).length - 0)} {errno : ℕ}

/-- A task that is not taken. -/
theorem tryQueueTaskFromSource_of_none (h : (tryStartingNewTaskUnsafe e availMemory).2 = none) :
    Returns (tryQueueTaskFromSource getSource e grantId userTask availMemory pid now answers errno)
      (tryQueueTask e grantId userTask availMemory pid now, none) := by
  refine Returns.of_forall fun fuel => ?_
  simp only [tryQueueTaskFromSource, h]

/-- The compiler is started on what the decisive call wrote. -/
theorem tryQueueTaskFromSource_of_decisive {taskId : UInt64}
    (h : (tryStartingNewTaskUnsafe e availMemory).2 = some taskId) {k : ℕ}
    (hk : Decisive answers errno k) :
    Returns (tryQueueTaskFromSource getSource e grantId userTask availMemory pid now answers errno)
      (tryQueueTask e grantId userTask availMemory pid now,
        some ((getSource userTask).take (answers k).count)) := by
  have hwrite : Returns (writeTo (getSource userTask) 0 answers [] errno) _ :=
    writeTo_of_decisive hk
  obtain ⟨enough, hf⟩ := hwrite.map fun r =>
    (tryQueueTask e grantId userTask availMemory pid now, some r.2.file)
  refine ⟨enough, fun fuel hfuel => ?_⟩
  have heq := hf fuel hfuel
  simp only [tryQueueTaskFromSource, h, TempFile.write, Option.map_map]
  exact heq

theorem tryQueueTaskFromSource_not_decisive {taskId : UInt64}
    (h : (tryStartingNewTaskUnsafe e availMemory).2 = some taskId)
    (hnone : ∀ k, ¬ Decisive answers errno k) (fuel : ℕ) :
    tryQueueTaskFromSource getSource e grantId userTask availMemory pid now answers errno fuel =
      none := by
  simp only [tryQueueTaskFromSource, h, TempFile.write, writeTo_not_decisive hnone, Option.map_none]

end Source

/-- A call writes the whole source if it writes as much as there is. -/
theorem take_count_eq_iff {source : Bytes} (answer : WriteAnswer (source.length - 0)) :
    source.take answer.count = source ↔ answer.count = source.length := by
  rw [List.take_eq_self_iff]
  cases answer with
  | wrote n hle =>
      have hle' : n ≤ source.length := Nat.le_trans hle (Nat.min_le_left _ _)
      exact ⟨fun h => Nat.le_antisymm hle' h, fun h => Nat.le_of_eq h.symm⟩
  | failed e => exact Nat.le_zero.trans eq_comm

/-- **When the compiler reads the whole source.**  `TryQueueTask` returns, and it either takes no
task or starts the compiler on the whole source, exactly if it takes no task or the first call of
`write` that is not repeated writes everything. -/
theorem source_complete_iff (getSource : τ → Bytes) (e : Executor τ) (grantId : UInt64)
    (userTask : τ) (availMemory : UInt64) (pid : Pid) (now : TimePoint)
    (answers : ℕ → WriteAnswer ((getSource userTask).length - 0)) (errno : ℕ) :
    (∃ result, Returns
        (tryQueueTaskFromSource getSource e grantId userTask availMemory pid now answers errno)
          result ∧
        (result.1.2 = none ∨ result.2 = some (getSource userTask))) ↔
      (tryStartingNewTaskUnsafe e availMemory).2 = none ∨
        ∃ k, Decisive answers errno k ∧ (answers k).count = (getSource userTask).length := by
  have hid := tryQueueTask_snd e grantId userTask availMemory pid now
  cases hstart : (tryStartingNewTaskUnsafe e availMemory).2 with
  | none =>
      rw [hstart] at hid
      exact iff_of_true ⟨_, tryQueueTaskFromSource_of_none hstart, Or.inl hid⟩ (Or.inl rfl)
  | some taskId =>
      rw [hstart] at hid
      rw [or_iff_right (Option.some_ne_none taskId)]
      constructor
      · rintro ⟨result, hreturns, hresult⟩
        by_cases hdecisive : ∃ k, Decisive answers errno k
        · obtain ⟨k, hk⟩ := hdecisive
          refine ⟨k, hk, ?_⟩
          rw [hreturns.unique (tryQueueTaskFromSource_of_decisive hstart hk)] at hresult
          rcases hresult with hnone | hsource
          · exact absurd (hid.symm.trans hnone) (Option.some_ne_none taskId)
          · exact (take_count_eq_iff _).1 (Option.some_inj.1 hsource)
        · obtain ⟨fuel, hfuel⟩ := hreturns.exists_eq
          rw [tryQueueTaskFromSource_not_decisive hstart fun k hk => hdecisive ⟨k, hk⟩] at hfuel
          cases hfuel
      · rintro ⟨k, hk, hcount⟩
        refine ⟨_, tryQueueTaskFromSource_of_decisive hstart hk, Or.inr ?_⟩
        exact congrArg some ((take_count_eq_iff _).2 hcount)

/-- An executor with room for one compile, whose tasks are their source. -/
def oneSlot : Executor Bytes := { maxConcurrency := 1, minMemory := 0 }

/-- Every call writes a single byte. -/
def oneByte (source : Bytes) (h : source ≠ []) (_ : ℕ) : WriteAnswer (source.length - 0) :=
  .wrote 1 (Nat.le_min.2 ⟨List.length_pos_iff.2 h, by decide⟩)

/-- A short write: the compiler is started on the first byte of the source, and the caller gets the
id of the compile. -/
theorem source_truncated :
    ¬ ∃ result, Returns (tryQueueTaskFromSource id oneSlot 7 (Bytes.ofString "int x;") 0 100 0
        (oneByte (Bytes.ofString "int x;") (by decide)) 0) result ∧
      (result.1.2 = none ∨ result.2 = some (Bytes.ofString "int x;")) := by
  rintro ⟨result, hreturns, hresult⟩
  have hdecisive : Decisive (oneByte (Bytes.ofString "int x;") (by decide)) 0 0 :=
    ⟨fun i hi => absurd hi (Nat.not_lt_zero i), rfl⟩
  have hstart : (tryStartingNewTaskUnsafe oneSlot 0).2 = some 1 := rfl
  rw [hreturns.unique (tryQueueTaskFromSource_of_decisive hstart hdecisive)] at hresult
  rcases hresult with hnone | hsource
  · cases hnone
  · exact absurd (Option.some_inj.1 hsource) (by decide)

end Cloud
