/-
**Writing to a descriptor.**

`WriteTo` wraps the system call `write`: it repeats an interrupted call, and returns how much was
written.  A call may write less than it was asked to, and then the caller has to go on from there.
This module embeds `WriteTo` from `common/io.h`; the daemon puts the source of a compile into a file
with it, and the client feeds the standard input of a program.

What the operating system does is an input: one answer for every call of `write`.  An answer carries
what the manual promises of it, that no more is written than was asked for and than one call
transfers.  `errno` is a part of the state, since a call that succeeds leaves it alone and `WriteTo`
looks at it all the same.

Main definitions:

* `Common.WriteAnswer`, `Common.writeTo` — `write` and `WriteTo`;
* `Common.Decisive` — the call after which `WriteTo` returns.

Main results:

* `Common.writeToRound_eq` — what one round does;
* `Common.writeTo_of_decisive`, `Common.writeTo_not_decisive` — **when `WriteTo` returns**, and with
  what.
-/

import Distribuild.Loop

set_option relaxedAutoImplicit false
set_option autoImplicit false

namespace Common

/-! ### The system call -/

/-- `EINTR`. -/
def eintr : ℕ := 4

/-- `EAGAIN`. -/
def eagain : ℕ := 11

/-- `EWOULDBLOCK`, which is `EAGAIN` here. -/
def ewouldblock : ℕ := 11

/-- How much one call of `write` transfers at most. -/
def writeMax : ℕ := 0x7ffff000

/-- What a call of `write` does that is asked to write a number of bytes. -/
inductive WriteAnswer (requested : ℕ)
  | wrote (n : ℕ) (le : n ≤ min requested writeMax)
  | failed (errno : ℕ)
deriving DecidableEq

/-- What a descriptor has received, `errno`, and the number of calls of `write`. -/
structure Written where
  file : Bytes
  errno : ℕ
  calls : ℕ := 0
deriving DecidableEq

/-- A call of `write`: what it returns, and what it leaves behind. -/
def Written.write (s : Written) (data : Bytes) {requested : ℕ} (answer : WriteAnswer requested) :
    ℤ × Written :=
  match answer with
  | .wrote n _ => (n, { s with file := s.file ++ data.take n, calls := s.calls + 1 })
  | .failed errno => (-1, { s with errno := errno, calls := s.calls + 1 })

/-- The conversion to `int`. -/
def toInt (n : ℤ) : ℤ := n.bmod (2 ^ 32)

/-! ### The loop around it -/

/-- One round of `WriteTo`. -/
def writeToRound (data : Bytes) (start : ℕ) (answers : ℕ → WriteAnswer (data.length - start))
    (s : Written) : Written ⊕ (ℤ × Written) :=
  let called := s.write (data.drop start) (answers s.calls)
  let bytes := toInt called.1
  let s := called.2
  if bytes > 0 then .inr (bytes, s)
  else if s.errno = eintr then .inl s
  else if s.errno = eagain ∨ s.errno = ewouldblock then .inr (0, s)
  else .inr (-1, s)

/-- `WriteTo(fd, data, start)`, with what `fd` has received before and the `errno` of that time. -/
def writeTo (data : Bytes) (start : ℕ) (answers : ℕ → WriteAnswer (data.length - start))
    (file : Bytes) (errno : ℕ) (fuel : ℕ) : Option (ℤ × Written) :=
  Loop.run (writeToRound data start answers) fuel { file := file, errno := errno }

namespace WriteAnswer

variable {requested : ℕ}

/-- The call is repeated: it was interrupted, or it wrote nothing and `errno` says that an earlier
call was. -/
def repeated (errno : ℕ) : WriteAnswer requested → Bool
  | .wrote n _ => decide (n = 0) && decide (errno = eintr)
  | .failed e => decide (e = eintr)

/-- How much the call wrote. -/
def count : WriteAnswer requested → ℕ
  | .wrote n _ => n
  | .failed _ => 0

/-- What `errno` is behind the call. -/
def errnoAfter (errno : ℕ) : WriteAnswer requested → ℕ
  | .wrote _ _ => errno
  | .failed e => e

/-- What `WriteTo` returns behind a call that it does not repeat. -/
def result (errno : ℕ) (answer : WriteAnswer requested) : ℤ :=
  if 0 < answer.count then answer.count
  else if answer.errnoAfter errno = eagain then 0
  else -1

end WriteAnswer

theorem toInt_natCast {n : ℕ} (h : n ≤ writeMax) : toInt n = n := by
  rw [writeMax] at h
  rw [toInt, Int.bmod_eq_of_le]
  · omega
  · omega

/-- **One round**: an interrupted call is repeated, and any other is the last. -/
theorem writeToRound_eq (data : Bytes) (start : ℕ)
    (answers : ℕ → WriteAnswer (data.length - start)) (s : Written) :
    writeToRound data start answers s =
      let answer := answers s.calls
      if answer.repeated s.errno = true then
        .inl { s with errno := eintr, calls := s.calls + 1 }
      else
        .inr (answer.result s.errno,
          { file := s.file ++ (data.drop start).take answer.count
            errno := answer.errnoAfter s.errno
            calls := s.calls + 1 }) := by
  have hsame : ∀ e : ℕ, (e = eagain ∨ e = ewouldblock) = (e = eagain) := fun e => or_self _
  simp only [writeToRound, hsame]
  cases answers s.calls with
  | wrote n hle =>
      have hint : toInt (n : ℤ) = n := toInt_natCast (Nat.le_trans hle (Nat.min_le_right _ _))
      simp only [Written.write, WriteAnswer.repeated, WriteAnswer.result, WriteAnswer.count,
        WriteAnswer.errnoAfter, hint]
      rcases Nat.eq_zero_or_pos n with rfl | hpos
      · by_cases heintr : s.errno = eintr
        · simp [heintr]
        · by_cases heagain : s.errno = eagain
          · simp [heagain, eagain, eintr]
          · simp [heintr, heagain]
      · have hne : n ≠ 0 := by omega
        simp [hpos, hne]
  | failed e =>
      have hint : toInt (-1) = -1 := by decide
      simp only [Written.write, WriteAnswer.repeated, WriteAnswer.result, WriteAnswer.count,
        WriteAnswer.errnoAfter, hint]
      by_cases heintr : e = eintr
      · simp [heintr]
      · by_cases heagain : e = eagain
        · simp [heagain, eagain, eintr]
        · simp [heintr, heagain]

section Decisive

variable {data : Bytes} {start : ℕ} {answers : ℕ → WriteAnswer (data.length - start)}
  {file : Bytes} {errno : ℕ}

/-- `errno` before the `k`-th call of a `WriteTo` whose earlier calls were all repeated. -/
def errnoBefore (errno : ℕ) (k : ℕ) : ℕ := if k = 0 then errno else eintr

/-- All calls before the `k`-th one are repeated, and it is not. -/
def Decisive {requested : ℕ} (answers : ℕ → WriteAnswer requested) (errno : ℕ) (k : ℕ) : Prop :=
  (∀ i < k, (answers i).repeated (errnoBefore errno i) = true) ∧
    (answers k).repeated (errnoBefore errno k) = false

/-- The state before the `k`-th call. -/
def writtenBefore (file : Bytes) (errno : ℕ) (k : ℕ) : Written :=
  { file := file, errno := errnoBefore errno k, calls := k }

/-- What `WriteTo` returns and leaves behind when the `k`-th call is the last. -/
def writtenAfter (data : Bytes) (start : ℕ) (answers : ℕ → WriteAnswer (data.length - start))
    (file : Bytes) (errno : ℕ) (k : ℕ) : ℤ × Written :=
  ((answers k).result (errnoBefore errno k),
    { file := file ++ (data.drop start).take (answers k).count
      errno := (answers k).errnoAfter (errnoBefore errno k)
      calls := k + 1 })

/-- A call that is repeated leads to the state before the next one. -/
theorem writeToRound_of_repeated {k : ℕ}
    (h : (answers k).repeated (errnoBefore errno k) = true) :
    writeToRound data start answers (writtenBefore file errno k) =
      .inl (writtenBefore file errno (k + 1)) := by
  rw [writeToRound_eq]
  exact if_pos h

/-- **`WriteTo` returns after the decisive call**, with what that call gives. -/
theorem writeTo_of_decisive {k : ℕ} (h : Decisive answers errno k) :
    Loop.Returns (writeTo data start answers file errno)
      (writtenAfter data start answers file errno k) := by
  obtain ⟨hbefore, hk⟩ := h
  -- backwards from the decisive call to the first one
  have hfrom : ∀ i ≤ k, Loop.Returns
      (fun fuel => Loop.run (writeToRound data start answers) fuel
        (writtenBefore file errno (k - i))) (writtenAfter data start answers file errno k) := by
    intro i
    induction i with
    | zero =>
        intro _
        refine Loop.returns_of_inr ?_
        rw [Nat.sub_zero, writeToRound_eq]
        exact if_neg (Bool.not_eq_true _ ▸ hk)
    | succ i ih =>
        intro hi
        have hnext : k - (i + 1) + 1 = k - i := by omega
        refine Loop.returns_of_inl (writeToRound_of_repeated (hbefore _ (by omega))) ?_
        rw [hnext]
        exact ih (by omega)
  have hfirst := hfrom k (Nat.le_refl k)
  rw [Nat.sub_self] at hfirst
  exact hfirst

/-- If every call is repeated, `WriteTo` does not return. -/
theorem writeTo_not_decisive (h : ∀ k, ¬ Decisive answers errno k) (fuel : ℕ) :
    writeTo data start answers file errno fuel = none := by
  have hall : ∀ k, (answers k).repeated (errnoBefore errno k) = true := by
    intro k
    induction k using Nat.strongRecOn with
    | ind k ih =>
        by_contra hk
        exact h k ⟨ih, Bool.eq_false_iff.2 hk⟩
  refine Loop.run_eq_none (fun s => ∃ k, s = writtenBefore file errno k) ?_ ⟨0, rfl⟩ fuel
  rintro s ⟨k, rfl⟩
  exact ⟨_, writeToRound_of_repeated (hall k), k + 1, rfl⟩

/-- What `WriteTo` returns, it returns after its decisive call. -/
theorem writeTo_returns_iff {r : ℤ × Written} :
    Loop.Returns (writeTo data start answers file errno) r ↔
      ∃ k, Decisive answers errno k ∧ r = writtenAfter data start answers file errno k := by
  constructor
  · intro h
    by_cases hdecisive : ∃ k, Decisive answers errno k
    · obtain ⟨k, hk⟩ := hdecisive
      exact ⟨k, hk, h.unique (writeTo_of_decisive hk)⟩
    · obtain ⟨fuel, hfuel⟩ := h.exists_eq
      rw [writeTo_not_decisive fun k hk => hdecisive ⟨k, hk⟩] at hfuel
      cases hfuel
  · rintro ⟨k, hk, rfl⟩
    exact writeTo_of_decisive hk

end Decisive

end Common
