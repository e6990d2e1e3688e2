/-
**Leases.**

A book of leases: holders that are there for as long as they are heard of in time, and terms that
are granted to a holder under a key.  A term lapses at the first sweep after its deadline; a term
that has lapsed is kept until its holder reports without its key, and a sweep that finds a holder
late takes all its terms away.  Keys, holders and times are arbitrary.

Two questions are asked of a book: to renew a term, which is answered by whether the term is
honoured, and what a holder may not do of what it reports.  What the book answers is determined by
the events since the term was granted, and that is said without the book: a term is honoured as long
as it is not released and every sweep comes before its deadline and before that of its holder.

Main definitions:

* `Lease.Term`, `Lease.Book`, `Lease.Event`, `Lease.book` — the book, as a machine;
* `Lease.Book.Honours` — a term is honoured;
* `Lease.Survives` — the events leave a term honoured.

Main results:

* `Lease.Book.honours_run_iff` — **a term is honoured exactly if it survives the events**;
* `Lease.Book.not_honours_run`, `Lease.Book.holder_run` — a term that is not honoured never is
  again, and a term stays with its holder.
-/

import Distribuild.Machine
import Mathlib.Order.Lattice
import Mathlib.Logic.Function.Basic

set_option relaxedAutoImplicit false
set_option autoImplicit false

namespace Lease

universe u v w

/-! ### The book -/

/-- A term: who holds it, until when, and whether a sweep has come after that. -/
structure Term (α : Type u) (τ : Type w) where
  holder : α
  deadline : τ
  lapsed : Bool := false

/-- The book: until when the holders are there, and the terms by their keys. -/
@[ext] structure Book (α : Type u) (κ : Type v) (τ : Type w) where
  holders : α → Option τ := fun _ => none
  terms : κ → Option (Term α τ) := fun _ => none

inductive Event (α : Type u) (κ : Type v) (τ : Type w)
  | grant (key : κ) (holder : α) (deadline : τ)
  | renew (key : κ) (deadline : τ)
  | release (key : κ)
  /-- A holder is heard of. -/
  | heartbeat (holder : α) (deadline : τ)
  /-- A holder reports the keys it uses. -/
  | report (holder : α) (keys : List κ)
  | sweep (now : τ)

/-- The answers to the two questions. -/
inductive Answer (κ : Type v)
  | none
  | renewed (honoured : Bool)
  | refused (keys : List κ)
deriving DecidableEq

section Definitions

variable {α : Type u} {κ : Type v} {τ : Type w} [DecidableEq α] [DecidableEq κ] [LinearOrder τ]

namespace Book

variable (b : Book α κ τ)

/-- The term is there and has not lapsed. -/
def honours (key : κ) : Bool := (b.terms key).any fun t => !t.lapsed

/-- The holder may use the key. -/
def permits (holder : α) (key : κ) : Bool :=
  (b.terms key).any fun t => t.holder == holder && !t.lapsed

/-- The holders that are not late. -/
def present (now : τ) (holder : α) : Option τ :=
  (b.holders holder).filter fun deadline => decide (now ≤ deadline)

/-- What an event does to the book. -/
def next : Event α κ τ → Book α κ τ
  | .grant key holder deadline =>
      { b with
        terms := Function.update b.terms key (some { holder := holder, deadline := deadline }) }
  | .renew key deadline =>
      { b with
        terms := Function.update b.terms key ((b.terms key).map fun t =>
          if t.lapsed then t else { t with deadline := deadline }) }
  | .release key => { b with terms := Function.update b.terms key none }
  | .heartbeat holder deadline =>
      { b with holders := Function.update b.holders holder (some deadline) }
  | .report holder keys =>
      { b with
        terms := fun key => (b.terms key).filter fun t =>
          !(t.holder == holder && t.lapsed && !keys.contains key) }
  | .sweep now =>
      { holders := b.present now
        terms := fun key =>
          ((b.terms key).filter fun t => (b.present now t.holder).isSome).map fun t =>
            { t with lapsed := t.lapsed || decide (t.deadline < now) } }

/-- What is answered. -/
def answer : Event α κ τ → Answer κ
  | .renew key _ => .renewed (b.honours key)
  | .report holder keys => .refused (keys.filter fun key => !b.permits holder key)
  | _ => .none

end Book

/-- **The book as a machine.** -/
def book : Machine (Book α κ τ) (Event α κ τ) (Answer κ) where
  step b event := (b.next event, b.answer event)

@[simp] theorem book_next (b : Book α κ τ) (event : Event α κ τ) :
    book.next b event = b.next event := rfl

@[simp] theorem book_out (b : Book α κ τ) (event : Event α κ τ) :
    book.out b event = b.answer event := rfl

/-- The event is a grant of the key. -/
def Event.grants (key : κ) : Event α κ τ → Bool
  | .grant key' _ _ => key' == key
  | _ => false

end Definitions

/-! ### What survives -/

section Survival

variable {α : Type u} {κ : Type v} {τ : Type w} [DecidableEq α] [DecidableEq κ] [LinearOrder τ]

/-- **The events leave a term honoured** that is held until `deadline` by a holder that is there
until `present`: the term is not released, and every sweep comes in time. -/
def Survives (key : κ) (holder : α) : τ → τ → List (Event α κ τ) → Prop
  | _, _, [] => True
  | deadline, present, .renew key' deadline' :: events =>
      Survives key holder (if key' = key then deadline' else deadline) present events
  | deadline, present, .heartbeat holder' present' :: events =>
      Survives key holder deadline (if holder' = holder then present' else present) events
  | deadline, present, .release key' :: events =>
      key' ≠ key ∧ Survives key holder deadline present events
  | deadline, present, .sweep now :: events =>
      now ≤ deadline ∧ now ≤ present ∧ Survives key holder deadline present events
  | deadline, present, .grant _ _ _ :: events => Survives key holder deadline present events
  | deadline, present, .report _ _ :: events => Survives key holder deadline present events

namespace Book

variable {b : Book α κ τ} {key : κ}

/-- A term that is not honoured is not honoured after another event, unless it is granted. -/
theorem not_honours_next (h : b.honours key = false) {event : Event α κ τ}
    (hgrant : event.grants key = false) : (b.next event).honours key = false := by
  cases event with
  | grant key' holder deadline =>
      have hne : key ≠ key' := by
        rintro rfl
        simp [Event.grants] at hgrant
      rw [honours, next]
      simp only [Function.update_of_ne hne]
      exact h
  | renew key' deadline =>
      by_cases hkey : key = key'
      · subst hkey
        rw [honours] at h
        simp only [honours, next, Function.update_self, Option.any_map]
        cases hterm : b.terms key with
        | none => rfl
        | some t =>
            rw [hterm, Option.any_some] at h
            simp only [Option.any_some]
            rw [if_pos (by simpa using h)]
            exact h
      · simp only [honours, next, Function.update_of_ne hkey]
        exact h
  | release key' =>
      by_cases hkey : key = key'
      · subst hkey
        simp only [honours, next, Function.update_self, Option.any_none]
      · simp only [honours, next, Function.update_of_ne hkey]
        exact h
  | heartbeat holder deadline => exact h
  | report holder keys =>
      rw [honours] at h
      simp only [honours, next]
      cases hterm : b.terms key with
      | none => rfl
      | some t =>
          rw [hterm, Option.any_some] at h
          rw [Option.filter_some]
          split
          · exact h
          · rfl
  | sweep now =>
      rw [honours] at h
      simp only [honours, next]
      cases hterm : b.terms key with
      | none => rfl
      | some t =>
          rw [hterm, Option.any_some] at h
          rw [Option.filter_some]
          split
          · have hlapsed : t.lapsed = true := by simpa using h
            simp only [Option.map_some, Option.any_some, hlapsed, Bool.true_or, Bool.not_true]
          · rfl

/-- **A term that is not honoured never is again**, unless it is granted. -/
theorem not_honours_run (h : b.honours key = false) {events : List (Event α κ τ)}
    (hgrant : ∀ event ∈ events, event.grants key = false) :
    (book.run b events).honours key = false := by
  induction events generalizing b with
  | nil => exact h
  | cons event events ih =>
      rw [Machine.run_cons]
      exact ih (not_honours_next h (hgrant event (List.mem_cons_self ..))) fun event' hmem =>
        hgrant event' (List.mem_cons_of_mem _ hmem)

/-- No event gives a term to another holder, unless it is granted. -/
theorem holder_next {holder : α} (h : ∀ t, b.terms key = some t → t.holder = holder)
    {event : Event α κ τ} (hgrant : event.grants key = false) {t : Term α τ}
    (ht : (b.next event).terms key = some t) : t.holder = holder := by
  cases event with
  | grant key' holder' deadline =>
      have hne : key ≠ key' := by
        rintro rfl
        simp [Event.grants] at hgrant
      exact h t ((Function.update_of_ne hne _ _).symm.trans ht)
  | renew key' deadline =>
      simp only [next, Function.update_apply] at ht
      split_ifs at ht with hkey
      · obtain ⟨t', ht', rfl⟩ := Option.map_eq_some_iff.1 ht
        split
        · exact h t' (hkey ▸ ht')
        · exact h t' (hkey ▸ ht')
      · exact h t ht
  | release key' =>
      simp only [next, Function.update_apply] at ht
      split_ifs at ht with hkey
      exact h t ht
  | heartbeat holder' deadline => exact h t ht
  | report holder' keys => exact h t (Option.filter_eq_some_iff.1 ht).1
  | sweep now =>
      obtain ⟨t', ht', rfl⟩ := Option.map_eq_some_iff.1 ht
      exact h t' (Option.filter_eq_some_iff.1 ht').1

/-- **A term stays with its holder**, unless it is granted. -/
theorem holder_run {holder : α} (h : ∀ t, b.terms key = some t → t.holder = holder)
    {events : List (Event α κ τ)} (hgrant : ∀ event ∈ events, event.grants key = false)
    {t : Term α τ} (ht : (book.run b events).terms key = some t) : t.holder = holder := by
  induction events generalizing b with
  | nil => exact h t ht
  | cons event events ih =>
      rw [Machine.run_cons, book_next] at ht
      exact ih (fun _ ht' => holder_next h (hgrant event (List.mem_cons_self ..)) ht')
        (fun event' hmem => hgrant event' (List.mem_cons_of_mem _ hmem)) ht

omit [DecidableEq κ] [LinearOrder τ] in
/-- The holder may use a key exactly as long as it is honoured. -/
theorem permits_eq_honours {holder : α} (h : ∀ t, b.terms key = some t → t.holder = holder) :
    b.permits holder key = b.honours key := by
  rw [permits, honours]
  cases hterm : b.terms key with
  | none => rfl
  | some t => rw [Option.any_some, Option.any_some, h t hterm, beq_self_eq_true, Bool.true_and]

/-- What a sweep does to a term that has not lapsed: it stays if it is in time and its holder is. -/
theorem honours_sweep_iff {holder : α} {deadline present now : τ}
    (hterm : b.terms key = some { holder := holder, deadline := deadline })
    (hholder : b.holders holder = some present) :
    (b.next (.sweep now)).honours key = true ↔ now ≤ deadline ∧ now ≤ present := by
  have hpresent : (b.present now holder).isSome = decide (now ≤ present) := by
    rw [Book.present, hholder, Option.filter_some]
    split_ifs with hle
    · simpa using hle
    · simpa using hle
  simp only [honours, next, hterm, Option.filter_some, hpresent]
  by_cases hle : now ≤ present
  · simp [hle]
  · simp [hle]

/-- A term that a sweep leaves honoured is what it was, and so is its holder. -/
theorem terms_sweep {holder : α} {deadline present now : τ}
    (hterm : b.terms key = some { holder := holder, deadline := deadline })
    (hholder : b.holders holder = some present) (hdeadline : now ≤ deadline)
    (hpresent : now ≤ present) :
    (b.next (.sweep now)).terms key = some { holder := holder, deadline := deadline } ∧
      (b.next (.sweep now)).holders holder = some present := by
  have hkept : b.present now holder = some present := by
    rw [Book.present, hholder, Option.filter_some, if_pos (decide_eq_true hpresent)]
  refine ⟨?_, hkept⟩
  simp only [next, hterm, Option.filter_some, hkept, Option.isSome_some, if_true, Option.map_some,
    Bool.false_or, decide_eq_false (not_lt.2 hdeadline)]

/-- **A term is honoured exactly if it survives the events** since it was found honoured. -/
theorem honours_run_iff {holder : α} {deadline present : τ}
    (hterm : b.terms key = some { holder := holder, deadline := deadline })
    (hholder : b.holders holder = some present) {events : List (Event α κ τ)}
    (hgrant : ∀ event ∈ events, event.grants key = false) :
    (book.run b events).honours key = true ↔ Survives key holder deadline present events := by
  induction events generalizing b deadline present with
  | nil => simp [Survives, honours, hterm]
  | cons event events ih =>
      have hrest : ∀ event ∈ events, event.grants key = false := fun event' hmem =>
        hgrant event' (List.mem_cons_of_mem _ hmem)
      have hlost : (b.next event).honours key = false →
          (book.run (b.next event) events).honours key ≠ true := fun hfalse htrue => by
        rw [not_honours_run hfalse hrest] at htrue
        cases htrue
      rw [Machine.run_cons, book_next]
      cases event with
      | grant key' holder' deadline' =>
          have hne : key ≠ key' := by
            rintro rfl
            simpa [Event.grants] using hgrant _ (List.mem_cons_self ..)
          exact ih ((Function.update_of_ne hne _ _).trans hterm) hholder hrest
      | renew key' deadline' =>
          rw [Survives]
          refine ih ?_ hholder hrest
          simp only [next, Function.update_apply, eq_comm (a := key)]
          split_ifs with hkey
          · rw [hkey, hterm]
            rfl
          · exact hterm
      | release key' =>
          rw [Survives]
          by_cases hkey : key' = key
          · subst hkey
            refine iff_of_false (hlost ?_) fun h => h.1 rfl
            simp only [honours, next, Function.update_self, Option.any_none]
          · rw [ih (b := b.next (.release key'))
              ((Function.update_of_ne (Ne.symm hkey) _ _).trans hterm) hholder hrest]
            exact (and_iff_right hkey).symm
      | heartbeat holder' present' =>
          rw [Survives]
          refine ih hterm ?_ hrest
          simp only [next, Function.update_apply, eq_comm (a := holder)]
          split_ifs with hsame
          · rfl
          · exact hholder
      | report holder' keys =>
          rw [Survives]
          refine ih ?_ hholder hrest
          simp only [next, hterm, Option.filter_some, Bool.and_false, Bool.false_and,
            Bool.not_false, if_true]
      | sweep now =>
          rw [Survives, ← and_assoc]
          by_cases htime : now ≤ deadline ∧ now ≤ present
          · obtain ⟨hterm', hholder'⟩ := terms_sweep hterm hholder htime.1 htime.2
            rw [and_iff_right htime]
            exact ih hterm' hholder' hrest
          · refine iff_of_false (hlost ?_) fun h => htime h.1
            rw [← Bool.not_eq_true, honours_sweep_iff hterm hholder]
            exact htime

end Book

end Survival

end Lease
