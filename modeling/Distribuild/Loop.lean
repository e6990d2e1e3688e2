/-
**Loops that may not end, and sending a byte string in pieces.**

A loop of a program is a body that either goes on with a new state or leaves with a result.  Whether
it ends is a question about the body, so it is run here with fuel, and nothing comes back when the
fuel runs out.  A loop is then proved to end and to be right by one rule: an invariant, and a
well-founded order in which every round goes down.

The loop that nearly every stream of this development is sent by is the first use of the rule.  It
sends a byte string in pieces of a given size; the last one may be shorter, and with pieces of size
`0` it never ends.

Main definitions:

* `Loop.run` — a loop with fuel;
* `Loop.Returns` — with enough fuel there is a result;
* `Loop.sendFile` — a byte string in pieces.

Main results:

* `Loop.run_spec`, `Loop.run_measure`, `Loop.run_sound` — **the rules of total and of partial
  correctness**;
* `Loop.sendFile_flatten` — **nothing is lost**: the pieces make up the byte string;
* `Loop.sendFile_spec` — the loop ends;
* `Loop.sendFile_isSome` — after how many pieces;
* `Loop.sendFile_zero` — with pieces of size `0` it does not.
-/

import Distribuild.Bytes

set_option relaxedAutoImplicit false
set_option autoImplicit false

universe u v

namespace Loop

variable {σ : Type u} {ρ : Type v}

/-- The loop with the given body, from a state.  The body returns a new state, or the result with
which the loop is left. -/
def run (body : σ → σ ⊕ ρ) : ℕ → σ → Option ρ
  | 0, _ => none
  | fuel + 1, s =>
      match body s with
      | .inl s' => run body fuel s'
      | .inr r => some r

/-- What is computed with fuel returns `a`: it does so with every fuel that is large enough. -/
def Returns {α : Type v} (f : ℕ → Option α) (a : α) : Prop :=
  ∃ enough, ∀ fuel, enough ≤ fuel → f fuel = some a

namespace Returns

variable {α : Type u} {β : Type v} {f : ℕ → Option α} {a : α}

/-- What needs no fuel. -/
theorem of_forall (h : ∀ fuel, f fuel = some a) : Returns f a := ⟨0, fun fuel _ => h fuel⟩

theorem map (h : Returns f a) (g : α → β) : Returns (fun fuel => (f fuel).map g) (g a) := by
  obtain ⟨enough, hf⟩ := h
  refine ⟨enough, fun fuel hfuel => ?_⟩
  simp only [hf fuel hfuel, Option.map_some]

theorem bind (h : Returns f a) {g : ℕ → α → Option β} {b : β} (hg : Returns (fun fuel => g fuel a) b) :
    Returns (fun fuel => (f fuel).bind (g fuel)) b := by
  obtain ⟨enough, hf⟩ := h
  obtain ⟨enough', hg⟩ := hg
  refine ⟨max enough enough', fun fuel hfuel => ?_⟩
  simp only [hf fuel (by omega), Option.bind_some]
  exact hg fuel (by omega)

theorem unique {b : α} (h : Returns f a) (h' : Returns f b) : a = b := by
  obtain ⟨enough, hf⟩ := h
  obtain ⟨enough', hf'⟩ := h'
  have ha := hf (max enough enough') (by omega)
  have hb := hf' (max enough enough') (by omega)
  exact Option.some_inj.1 (ha.symm.trans hb)

/-- With the fuel that is enough it has returned. -/
theorem exists_eq (h : Returns f a) : ∃ fuel, f fuel = some a := by
  obtain ⟨enough, hf⟩ := h
  exact ⟨enough, hf enough (Nat.le_refl _)⟩

end Returns

theorem returns_of_inr {body : σ → σ ⊕ ρ} {s : σ} {r : ρ} (h : body s = .inr r) :
    Returns (fun fuel => run body fuel s) r := by
  refine ⟨1, fun fuel hfuel => ?_⟩
  obtain ⟨n, rfl⟩ : ∃ n, fuel = n + 1 := ⟨fuel - 1, by omega⟩
  simp only [run, h]

theorem returns_of_inl {body : σ → σ ⊕ ρ} {s s' : σ} {r : ρ} (h : body s = .inl s')
    (hs' : Returns (fun fuel => run body fuel s') r) : Returns (fun fuel => run body fuel s) r := by
  obtain ⟨enough, hrun⟩ := hs'
  refine ⟨enough + 1, fun fuel hfuel => ?_⟩
  obtain ⟨n, rfl⟩ : ∃ n, fuel = n + 1 := ⟨fuel - 1, by omega⟩
  simp only [run, h]
  exact hrun n (by omega)

/-- What a loop returns with some fuel, it returns with more. -/
theorem returns_of_run {body : σ → σ ⊕ ρ} {fuel : ℕ} {s : σ} {r : ρ}
    (h : run body fuel s = some r) : Returns (fun fuel => run body fuel s) r := by
  induction fuel generalizing s with
  | zero => cases h
  | succ fuel ih =>
      rw [run] at h
      cases hbody : body s with
      | inl s' =>
          rw [hbody] at h
          exact returns_of_inl hbody (ih h)
      | inr r' =>
          rw [hbody] at h
          rw [← Option.some_inj.1 h]
          exact returns_of_inr hbody

/-- What one round has to do: it keeps the invariant and goes down, or it leaves with a result that
is wanted. -/
def Round (Inv : σ → Prop) (lt : σ → σ → Prop) (Post : ρ → Prop) (s : σ) : σ ⊕ ρ → Prop
  | .inl s' => Inv s' ∧ lt s' s
  | .inr r => Post r

/-- **The rule of total correctness**: a loop whose rounds keep an invariant and go down in a
well-founded order returns a result that is wanted. -/
theorem run_spec (body : σ → σ ⊕ ρ) (Inv : σ → Prop) {lt : σ → σ → Prop} (hwf : WellFounded lt)
    (Post : ρ → Prop) (hround : ∀ s, Inv s → Round Inv lt Post s (body s)) {s : σ} (hs : Inv s) :
    ∃ r, Post r ∧ Returns (fun fuel => run body fuel s) r := by
  induction s using hwf.induction with
  | h s ih =>
      have hr := hround s hs
      cases hbody : body s with
      | inl s' =>
          rw [hbody] at hr
          obtain ⟨hinv, hlt⟩ := hr
          obtain ⟨r, hpost, hreturns⟩ := ih s' hlt hinv
          exact ⟨r, hpost, returns_of_inl hbody hreturns⟩
      | inr r =>
          rw [hbody] at hr
          exact ⟨r, hr, returns_of_inr hbody⟩

/-- The rule of total correctness with a number that goes down. -/
theorem run_measure (body : σ → σ ⊕ ρ) (Inv : σ → Prop) (left : σ → ℕ) (Post : ρ → Prop)
    (hround : ∀ s, Inv s → Round Inv (fun t s => left t < left s) Post s (body s)) {s : σ}
    (hs : Inv s) : ∃ r, Post r ∧ Returns (fun fuel => run body fuel s) r :=
  run_spec body Inv (measure left).wf Post hround hs

/-- The rule of partial correctness: an invariant that gives what is wanted when the loop is left.
-/
theorem run_sound {body : σ → σ ⊕ ρ} (Inv : σ → Prop) {Post : ρ → Prop}
    (hgo : ∀ s s', Inv s → body s = .inl s' → Inv s')
    (hleave : ∀ s r, Inv s → body s = .inr r → Post r) {s : σ} (hs : Inv s) {fuel : ℕ} {r : ρ}
    (h : run body fuel s = some r) : Post r := by
  induction fuel generalizing s with
  | zero => cases h
  | succ fuel ih =>
      rw [run] at h
      cases hbody : body s with
      | inl s' =>
          rw [hbody] at h
          exact ih (hgo s s' hs hbody) h
      | inr r' =>
          rw [hbody] at h
          rw [← Option.some_inj.1 h]
          exact hleave s r' hs hbody

/-- A loop that keeps an invariant under which it is never left does not end. -/
theorem run_eq_none {body : σ → σ ⊕ ρ} (Inv : σ → Prop)
    (hround : ∀ s, Inv s → ∃ s', body s = .inl s' ∧ Inv s') {s : σ} (hs : Inv s) (fuel : ℕ) :
    run body fuel s = none := by
  induction fuel generalizing s with
  | zero => rfl
  | succ fuel ih =>
      obtain ⟨s', hbody, hinv⟩ := hround s hs
      rw [run, hbody]
      exact ih hinv

/-- A loop whose rounds look the same through a function on the states returns the same. -/
theorem run_map {σ' : Type u} {ρ' : Type v} {body : σ → σ ⊕ ρ} {body' : σ' → σ' ⊕ ρ'} (f : σ → σ')
    (g : ρ → ρ') (h : ∀ s, body' (f s) = (body s).map f g) (fuel : ℕ) (s : σ) :
    run body' fuel (f s) = (run body fuel s).map g := by
  induction fuel generalizing s with
  | zero => rfl
  | succ fuel ih =>
      rw [run, run, h]
      cases body s with
      | inl s' => exact ih s'
      | inr r => rfl

/-! ### Sending a byte string in pieces -/

/-- One round of `for (i = 0; i < file.size(); i += size)`, with the pieces sent so far. -/
def sendRound (size : ℕ) (file : Bytes) (s : ℕ × List Bytes) : (ℕ × List Bytes) ⊕ List Bytes :=
  if s.1 < file.length then
    .inl (s.1 + size, s.2 ++ [(file.drop s.1).take (min size (file.length - s.1))])
  else .inr s.2

/-- The pieces in which the loop sends a byte string. -/
def sendFile (size : ℕ) (file : Bytes) (fuel : ℕ) : Option (List Bytes) :=
  run (sendRound size file) fuel (0, [])

/-- A round that goes on sends what follows the part that was sent. -/
theorem sendRound_inl {size : ℕ} {file : Bytes} {s s' : ℕ × List Bytes}
    (hs : s.2.flatten = file.take s.1) (h : sendRound size file s = .inl s') :
    s.1 < file.length ∧ s'.1 = s.1 + size ∧ s'.2.flatten = file.take s'.1 := by
  rw [sendRound] at h
  split at h
  next hlt =>
    have hs' := Sum.inl.inj h
    subst hs'
    have hmin : (file.drop s.1).take (min size (file.length - s.1)) =
        (file.drop s.1).take size := by
      rw [← List.length_drop, ← List.take_eq_take_min]
    refine ⟨hlt, rfl, ?_⟩
    simp only [List.flatten_append, List.flatten_singleton, hs, hmin]
    rw [List.take_add]
  next => cases h

/-- The loop is left when everything has been sent. -/
theorem sendRound_inr {size : ℕ} {file : Bytes} {s : ℕ × List Bytes} {pieces : List Bytes}
    (hs : s.2.flatten = file.take s.1) (h : sendRound size file s = .inr pieces) :
    pieces.flatten = file := by
  rw [sendRound] at h
  split at h
  next => cases h
  next hge => rw [← Sum.inr.inj h, hs, List.take_of_length_le (by omega)]

/-- **Nothing is lost**, and nothing is sent twice. -/
theorem sendFile_flatten {size : ℕ} {file : Bytes} {fuel : ℕ} {pieces : List Bytes}
    (h : sendFile size file fuel = some pieces) : pieces.flatten = file :=
  run_sound (fun s => s.2.flatten = file.take s.1)
    (fun _ _ hs hbody => (sendRound_inl hs hbody).2.2)
    (fun _ _ hs hbody => sendRound_inr hs hbody) rfl h

/-- The loop ends. -/
theorem sendFile_spec {size : ℕ} (h : 1 ≤ size) (file : Bytes) :
    ∃ pieces, pieces.flatten = file ∧ Returns (sendFile size file) pieces := by
  refine run_measure (sendRound size file) (fun s => s.2.flatten = file.take s.1)
    (fun s => file.length - s.1) (fun pieces => pieces.flatten = file) (fun s hs => ?_) rfl
  cases hbody : sendRound size file s with
  | inl s' =>
      obtain ⟨hlt, hnext, hsent⟩ := sendRound_inl hs hbody
      refine ⟨hsent, ?_⟩
      show file.length - s'.1 < file.length - s.1
      omega
  | inr pieces => exact sendRound_inr hs hbody

/-- How much fuel the loop needs from a position: a round for every piece that is left, and one to
leave. -/
theorem run_sendRound_isSome {size : ℕ} {file : Bytes} (fuel : ℕ) (s : ℕ × List Bytes) :
    (run (sendRound size file) fuel s).isSome = true ↔
      1 ≤ fuel ∧ file.length ≤ s.1 + (fuel - 1) * size := by
  induction fuel generalizing s with
  | zero => simp [run]
  | succ fuel ih =>
      rw [run, sendRound]
      by_cases hlt : s.1 < file.length
      · simp only [if_pos hlt, ih]
        cases fuel with
        | zero => simp; omega
        | succ fuel =>
            simp only [Nat.add_sub_cancel, Nat.succ_mul]
            omega
      · simp only [if_neg hlt, Option.isSome_some, true_iff]
        omega

/-- **How many pieces there are**: with the fuel for `n` pieces and the end, the loop is left if and
only if `n` pieces hold the byte string. -/
theorem sendFile_isSome {size : ℕ} {file : Bytes} {fuel : ℕ} :
    (sendFile size file fuel).isSome = true ↔ 1 ≤ fuel ∧ file.length ≤ (fuel - 1) * size := by
  rw [sendFile, run_sendRound_isSome, Nat.zero_add]

theorem sendFile_nil (size : ℕ) : Returns (sendFile size []) [] := returns_of_inr rfl

/-- With pieces of size `0` the loop stays where it is. -/
theorem sendFile_zero {file : Bytes} (h : file ≠ []) (fuel : ℕ) : sendFile 0 file fuel = none := by
  refine run_eq_none (fun s => s.1 = 0) (fun s hs => ?_) rfl fuel
  have hlt : s.1 < file.length := by
    rw [hs]
    exact List.length_pos_iff.2 h
  refine ⟨_, by rw [sendRound, if_pos hlt], ?_⟩
  exact hs

end Loop
