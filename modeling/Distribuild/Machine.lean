/-
**Machines with inputs and outputs, their runs and their histories.**

Every component of this development that takes step after step is presented in the same way: a
state type, a type of inputs and a total function that sends a state and an input to the next
state and an output.  Nothing is probabilistic and nothing is relational; whatever the environment
decides — which thread runs next, what the clock reads, which message arrives — is an input.  A
run is then a list of inputs, and "for every run" is a quantifier over lists.

Main definitions:

* `Machine` — a machine, given by its step function;
* `Machine.run`, `Machine.trace` — the state after a list of inputs, and the inputs paired with
  the outputs they produced;
* `Machine.Along` — every step of a run meets a condition on the state before it and its input;
* `Machine.Reachable` — reachability from a state;
* `Machine.Simulates` — every step of one machine is matched by a run of another.

Main results:

* `Machine.run_invariant`, `Machine.trace_invariant` — **the induction rules**: what a step
  preserves, a run preserves, for properties of the state and for properties that relate the state
  to the history that led to it;
* `Machine.along_iff`, `Machine.run_invariant_along`, `Machine.trace_invariant_along`,
  `Machine.along_of_invariant` — runs whose steps meet a condition, and the same for them;
* `Machine.forall_prefix_iff_along` — **when a property holds all the way through a run**;
* `Machine.mem_trace` — the steps that stand in a history;
* `Machine.run_filter_trace`, `Machine.trace_filter_trace` — **inputs that leave the state alone can
  be left out**;
* `Machine.Simulates.reachable` — reachability is transported along a simulation.
-/

import Mathlib.Data.List.Induction

set_option relaxedAutoImplicit false
set_option autoImplicit false

universe u v w u' v' w'

/-- A machine: a step function from a state and an input to the next state and an output. -/
structure Machine (σ : Type u) (ι : Type v) (ο : Type w) where
  /-- One step. -/
  step : σ → ι → σ × ο

namespace Machine

variable {σ : Type u} {ι : Type v} {ο : Type w} (M : Machine σ ι ο)

/-! ### Runs and traces -/

/-- The state after one input. -/
def next (s : σ) (i : ι) : σ := (M.step s i).1

/-- The output of one input. -/
def out (s : σ) (i : ι) : ο := (M.step s i).2

/-- The state after a list of inputs. -/
def run (s : σ) (is : List ι) : σ := is.foldl M.next s

/-- The history of a run: every input with the output it produced. -/
def trace : σ → List ι → List (ι × ο)
  | _, [] => []
  | s, i :: is => (i, M.out s i) :: trace (M.next s i) is

@[simp] theorem run_nil (s : σ) : M.run s [] = s := rfl

@[simp] theorem run_cons (s : σ) (i : ι) (is : List ι) :
    M.run s (i :: is) = M.run (M.next s i) is := rfl

theorem run_append (s : σ) (is js : List ι) : M.run s (is ++ js) = M.run (M.run s is) js :=
  List.foldl_append ..

@[simp] theorem run_concat (s : σ) (is : List ι) (i : ι) :
    M.run s (is ++ [i]) = M.next (M.run s is) i := by
  rw [run_append]; rfl

@[simp] theorem trace_nil (s : σ) : M.trace s [] = [] := rfl

@[simp] theorem trace_cons (s : σ) (i : ι) (is : List ι) :
    M.trace s (i :: is) = (i, M.out s i) :: M.trace (M.next s i) is := rfl

theorem trace_append (s : σ) (is js : List ι) :
    M.trace s (is ++ js) = M.trace s is ++ M.trace (M.run s is) js := by
  induction is generalizing s with
  | nil => rfl
  | cons i is ih => rw [List.cons_append, trace_cons, trace_cons, run_cons, ih, List.cons_append]

@[simp] theorem trace_concat (s : σ) (is : List ι) (i : ι) :
    M.trace s (is ++ [i]) = M.trace s is ++ [(i, M.out (M.run s is) i)] := by
  rw [trace_append]; rfl

/-! ### Invariants -/

variable {M}

/-- **The induction rule for state invariants.** -/
theorem run_invariant {P : σ → Prop} (hstep : ∀ s i, P s → P (M.next s i)) {s : σ} (h : P s)
    (is : List ι) : P (M.run s is) := by
  induction is generalizing s with
  | nil => exact h
  | cons i is ih => exact ih (hstep s i h)

/-- **The induction rule for histories**: a property of the history and the state that holds of the
empty history, and that one more step preserves, holds of every run. -/
theorem trace_invariant {P : List (ι × ο) → σ → Prop} {s₀ : σ} (h₀ : P [] s₀)
    (hstep : ∀ tr s i, P tr s → P (tr ++ [(i, M.out s i)]) (M.next s i)) (is : List ι) :
    P (M.trace s₀ is) (M.run s₀ is) := by
  induction is using List.reverseRecOn with
  | nil => exact h₀
  | append_singleton is i ih =>
      rw [trace_concat, run_concat]
      exact hstep _ _ _ ih

/-! ### Runs whose steps meet a condition -/

variable (M) in
/-- Every step of the run from `s` on the given inputs meets the condition `C`, which speaks of
the state before the step and of the input. -/
def Along (C : σ → ι → Prop) : σ → List ι → Prop
  | _, [] => True
  | s, i :: is => C s i ∧ Along C (M.next s i) is

instance instDecidableAlong {C : σ → ι → Prop} [∀ s i, Decidable (C s i)] :
    ∀ (s : σ) (is : List ι), Decidable (M.Along C s is)
  | _, [] => .isTrue trivial
  | s, i :: is =>
      have : Decidable (M.Along C (M.next s i) is) := instDecidableAlong (M.next s i) is
      inferInstanceAs (Decidable (C s i ∧ M.Along C (M.next s i) is))

@[simp] theorem along_nil (C : σ → ι → Prop) (s : σ) : M.Along C s [] := trivial

theorem along_append {C : σ → ι → Prop} {s : σ} {is js : List ι} :
    M.Along C s (is ++ js) ↔ M.Along C s is ∧ M.Along C (M.run s is) js := by
  induction is generalizing s with
  | nil => simp
  | cons i is ih => simp only [List.cons_append, Along, run_cons, ih, and_assoc]

theorem along_concat {C : σ → ι → Prop} {s : σ} {is : List ι} {i : ι} :
    M.Along C s (is ++ [i]) ↔ M.Along C s is ∧ C (M.run s is) i := by
  rw [along_append]
  simp [Along]

/-- A run meets a condition if every step of it does. -/
theorem along_iff {C : σ → ι → Prop} {s : σ} {is : List ι} :
    M.Along C s is ↔ ∀ js i ks, is = js ++ i :: ks → C (M.run s js) i := by
  constructor
  · rintro h js i ks rfl
    exact (along_append.1 h).2.1
  · intro h
    induction is using List.reverseRecOn with
    | nil => trivial
    | append_singleton is i ih =>
        refine along_concat.2 ⟨ih fun js j ks heq => h js j (ks ++ [i]) ?_, h is i [] rfl⟩
        rw [heq, List.append_assoc, List.cons_append]

/-- The induction rule for state invariants of the runs that meet a condition. -/
theorem run_invariant_along {C : σ → ι → Prop} {P : σ → Prop}
    (hstep : ∀ s i, C s i → P s → P (M.next s i)) {s : σ} (h : P s) {is : List ι}
    (hC : M.Along C s is) : P (M.run s is) := by
  induction is generalizing s with
  | nil => exact h
  | cons i is ih => exact ih (hstep s i hC.1 h) hC.2

/-- The induction rule for histories of the runs that meet a condition. -/
theorem trace_invariant_along {C : σ → ι → Prop} {P : List (ι × ο) → σ → Prop} {s₀ : σ}
    (h₀ : P [] s₀)
    (hstep : ∀ tr s i, C s i → P tr s → P (tr ++ [(i, M.out s i)]) (M.next s i)) {is : List ι}
    (hC : M.Along C s₀ is) : P (M.trace s₀ is) (M.run s₀ is) := by
  induction is using List.reverseRecOn with
  | nil => exact h₀
  | append_singleton is i ih =>
      rw [trace_concat, run_concat]
      exact hstep _ _ _ (along_concat.1 hC).2 (ih (along_concat.1 hC).1)

/-- If every step that meets `C` keeps an invariant, and the invariant gives `Q` of such a step,
then every step of a run that meets `C` meets `Q`. -/
theorem along_of_invariant {C Q : σ → ι → Prop} {P : σ → Prop}
    (hstep : ∀ s i, C s i → P s → P (M.next s i)) (himp : ∀ s i, C s i → P s → Q s i) {s : σ}
    (h : P s) {is : List ι} (hC : M.Along C s is) : M.Along Q s is := by
  induction is generalizing s with
  | nil => trivial
  | cons i is ih => exact ⟨himp s i hC.1 h, ih (hstep s i hC.1 h) hC.2⟩

/-- A property that every step keeps exactly when it meets `C` holds all the way through a run
exactly when every step of the run meets `C`. -/
theorem forall_prefix_iff_along {C : σ → ι → Prop} {P : σ → Prop}
    (hstep : ∀ s i, P s → (P (M.next s i) ↔ C s i)) {s : σ} (h : P s) {is : List ι} :
    (∀ js ks, is = js ++ ks → P (M.run s js)) ↔ M.Along C s is := by
  induction is generalizing s with
  | nil =>
      refine ⟨fun _ => trivial, fun _ js ks heq => ?_⟩
      rw [(List.append_eq_nil_iff.1 heq.symm).1]
      exact h
  | cons i is ih =>
      constructor
      · intro hall
        have hnext : P (M.next s i) := hall [i] is rfl
        refine ⟨(hstep s i h).1 hnext, (ih hnext).1 fun js ks heq => ?_⟩
        exact hall (i :: js) ks (by rw [heq, List.cons_append])
      · rintro ⟨hC, hrest⟩ js ks heq
        cases js with
        | nil => exact h
        | cons j js =>
            cases heq
            exact (ih ((hstep s i h).2 hC)).2 hrest js ks rfl

/-- What stands in a history is a step of the run. -/
theorem mem_trace {s : σ} {is : List ι} {i : ι} {o : ο} :
    (i, o) ∈ M.trace s is ↔ ∃ js ks, is = js ++ i :: ks ∧ o = M.out (M.run s js) i := by
  induction is generalizing s with
  | nil => simp
  | cons j is ih =>
      rw [trace_cons, List.mem_cons, ih]
      constructor
      · rintro (heq | ⟨js, ks, rfl, ho⟩)
        · cases heq
          exact ⟨[], is, rfl, rfl⟩
        · exact ⟨j :: js, ks, rfl, ho⟩
      · rintro ⟨js, ks, heq, ho⟩
        cases js with
        | nil =>
            cases heq
            exact Or.inl (by rw [ho]; rfl)
        | cons j' js =>
            cases heq
            exact Or.inr ⟨js, ks, rfl, ho⟩

/-- The inputs whose outputs pass a test can be given alone, if the others leave the state as it is:
the run ends in the same state. -/
theorem run_filter_trace {D : ι × ο → Bool} (hskip : ∀ s i, D (i, M.out s i) = false → M.next s i = s)
    (s : σ) (is : List ι) : M.run s (((M.trace s is).filter D).map Prod.fst) = M.run s is := by
  induction is generalizing s with
  | nil => rfl
  | cons i is ih =>
      rw [trace_cons, run_cons, List.filter_cons]
      split
      · rw [List.map_cons, run_cons, ih]
      next hD =>
        rw [hskip s i (by simpa using hD), ih]

/-- They have the same outputs then as they have among the others. -/
theorem trace_filter_trace {D : ι × ο → Bool}
    (hskip : ∀ s i, D (i, M.out s i) = false → M.next s i = s) (s : σ) (is : List ι) :
    M.trace s (((M.trace s is).filter D).map Prod.fst) = (M.trace s is).filter D := by
  induction is generalizing s with
  | nil => rfl
  | cons i is ih =>
      rw [trace_cons, List.filter_cons]
      split
      · rw [List.map_cons, trace_cons, ih]
      next hD =>
        rw [hskip s i (by simpa using hD), ih]

/-! ### Reachability and simulation -/

variable (M) in
/-- `s` is reached from `s₀` by some run. -/
def Reachable (s₀ s : σ) : Prop := ∃ is, M.run s₀ is = s

theorem Reachable.refl (s : σ) : M.Reachable s s := ⟨[], rfl⟩

theorem Reachable.run {s₀ s : σ} (h : M.Reachable s₀ s) (is : List ι) :
    M.Reachable s₀ (M.run s is) := by
  obtain ⟨js, rfl⟩ := h
  exact ⟨js ++ is, M.run_append ..⟩

theorem Reachable.next {s₀ s : σ} (h : M.Reachable s₀ s) (i : ι) :
    M.Reachable s₀ (M.next s i) := h.run [i]

/-- A reachable state satisfies every invariant of the steps that holds at the start. -/
theorem Reachable.invariant {P : σ → Prop} (hstep : ∀ s i, P s → P (M.next s i)) {s₀ s : σ}
    (h : M.Reachable s₀ s) (h₀ : P s₀) : P s := by
  obtain ⟨is, rfl⟩ := h
  exact run_invariant hstep h₀ is

variable {τ : Type u'} {κ : Type v'} {π : Type w'}

/-- Seen through `f`, every step of `M` is a run of `N`. -/
def Simulates (N : Machine τ κ π) (M : Machine σ ι ο) (f : σ → τ) : Prop :=
  ∀ s i, N.Reachable (f s) (f (M.next s i))

/-- **Reachability is transported along a simulation.** -/
theorem Simulates.reachable {N : Machine τ κ π} {f : σ → τ} (h : N.Simulates M f) {s₀ : σ}
    (is : List ι) : N.Reachable (f s₀) (f (M.run s₀ is)) := by
  induction is using List.reverseRecOn with
  | nil => exact Reachable.refl _
  | append_singleton is i ih =>
      rw [run_concat]
      obtain ⟨js, hjs⟩ := h (M.run s₀ is) i
      rw [← hjs]
      exact ih.run js

end Machine
