/-
**Hash tables as association lists, and counters that follow them.**

A `std::unordered_map` is modelled by Mathlib's association lists `AList`, whose keys are distinct
by construction.  The list order stands for the iteration order of the table, which the C++
standard leaves unspecified; `Table.rehash` puts the entries in any other order, and a machine that
owns a table may take such a step at any time.

This module adds what a program does with a whole table — change every value, collect the keys of
some entries, count entries — and the arithmetic of an unsigned 64-bit counter that is meant to
follow such a count.

Main definitions:

* `Table` — a table with keys `α` and values `β`;
* `Table.mapVal`, `Table.keysWhere`, `Table.filter`, `Table.rehash` — changing all values,
  collecting keys, dropping entries, and reordering;
* `Table.tally` — the number of entries whose value passes a test.

Main results:

* `Table.tally_insert`, `Table.tally_erase`, `Table.tally_eq_of_lookup` — **how the operations
  change a tally**;
* `Table.lookup_insert_cases` — what is found after an insertion;
* `Table.erase_eq_filter`, `Table.filter_filter` — erasing and filtering;
* `Table.mem_keysWhere`, `Table.nodup_keysWhere` — the collected keys are exactly those asked for,
  each once;
* `UInt64.toNat_add_one_of_lt`, `UInt64.toNat_sub_one_of_pos` — a counter below some bound does not
  wrap when it is incremented, and a positive one does not when it is decremented.
-/

import Mathlib.Algebra.Ring.Int.Defs
import Mathlib.Algebra.Ring.Nat
import Mathlib.Data.List.AList
import Mathlib.Data.List.Count
import Mathlib.Tactic.Common

set_option relaxedAutoImplicit false
set_option autoImplicit false

universe u v w

/-- A table with keys in `α` and values in `β`: an association list with distinct keys. -/
abbrev Table (α : Type u) (β : Type v) := AList (fun _ : α => β)

namespace Table

variable {α : Type u} {β : Type v} {γ : Type w}

/-! ### Operations on whole tables -/

/-- Change every value, keeping the keys. -/
def mapVal (f : β → γ) (t : Table α β) : Table α γ where
  entries := t.entries.map (Sigma.map id fun _ => f)
  nodupKeys := List.NodupKeys.map₂ (fun _ => f) _ t.nodupKeys

/-- The keys of the entries that pass a test, in iteration order. -/
def keysWhere (p : α → β → Bool) (t : Table α β) : List α :=
  (t.entries.filter fun e => p e.1 e.2).map Sigma.fst

/-- The same entries in another iteration order: that of increasing rank of the keys.  Every order
arises from some rank, as the keys are distinct. -/
def rehash (rank : α → ℕ) (t : Table α β) : Table α β where
  entries := t.entries.mergeSort fun a b => decide (rank a.1 ≤ rank b.1)
  nodupKeys := (List.perm_nodupKeys (List.mergeSort_perm _ _)).2 t.nodupKeys

/-- The entries that pass a test, in iteration order. -/
def filter (p : α → β → Bool) (t : Table α β) : Table α β where
  entries := t.entries.filter fun e => p e.1 e.2
  nodupKeys := t.nodupKeys.sublist List.filter_sublist

/-- The number of entries whose value passes a test. -/
def tally (p : β → Bool) (t : Table α β) : ℕ := t.entries.countP fun e => p e.2

section Lookup

variable [DecidableEq α]

@[simp] theorem lookup_mapVal (f : β → γ) (t : Table α β) (a : α) :
    (mapVal f t).lookup a = (t.lookup a).map f :=
  List.dlookup_map₂ a

@[simp] theorem lookup_rehash (rank : α → ℕ) (t : Table α β) (a : α) :
    (rehash rank t).lookup a = t.lookup a :=
  AList.perm_lookup (List.mergeSort_perm _ _)

theorem mem_iff_lookup {t : Table α β} {a : α} : a ∈ t ↔ ∃ b, t.lookup a = some b := by
  rw [← AList.lookup_isSome, Option.isSome_iff_exists]

theorem mem_entries_iff {t : Table α β} {a : α} {b : β} :
    (⟨a, b⟩ : Sigma fun _ => β) ∈ t.entries ↔ t.lookup a = some b :=
  AList.mem_lookup_iff.symm

@[simp] theorem lookup_filter (p : α → β → Bool) (t : Table α β) (a : α) :
    (filter p t).lookup a = (t.lookup a).filter (p a) := by
  ext b
  rw [← mem_entries_iff, Option.filter_eq_some_iff, ← mem_entries_iff]
  exact List.mem_filter

/-- What is found after an insertion is what was inserted, or it was there before. -/
theorem lookup_insert_cases {t : Table α β} {a a' : α} {b b' : β}
    (h : (t.insert a b).lookup a' = some b') :
    (a' = a ∧ b' = b) ∨ (a' ≠ a ∧ t.lookup a' = some b') := by
  by_cases ha : a' = a
  · rw [ha, AList.lookup_insert] at h
    exact Or.inl ⟨ha, (Option.some_inj.1 h).symm⟩
  · rw [AList.lookup_insert_ne ha] at h
    exact Or.inr ⟨ha, h⟩

/-- The keys collected by a test are those of the entries that pass it. -/
theorem mem_keysWhere {p : α → β → Bool} {t : Table α β} {a : α} :
    a ∈ keysWhere p t ↔ ∃ b, t.lookup a = some b ∧ p a b = true := by
  simp only [keysWhere, List.mem_map, List.mem_filter]
  constructor
  · rintro ⟨⟨a', b⟩, ⟨hmem, hp⟩, rfl⟩
    exact ⟨b, mem_entries_iff.1 hmem, hp⟩
  · rintro ⟨b, hb, hp⟩
    exact ⟨⟨a, b⟩, ⟨mem_entries_iff.2 hb, hp⟩, rfl⟩

/-- Filters that agree on the entries of a table. -/
theorem filter_congr {p q : α → β → Bool} {t : Table α β}
    (h : ∀ a b, t.lookup a = some b → p a b = q a b) : filter p t = filter q t := by
  apply AList.ext
  refine List.filter_congr fun e he => h e.1 e.2 (mem_entries_iff.1 he)

/-- Erasing a key is one of the filters. -/
theorem erase_eq_filter (t : Table α β) (a : α) :
    t.erase a = filter (fun k _ => decide (k ≠ a)) t := by
  have hlist : ∀ l : List (Sigma fun _ : α => β), l.NodupKeys →
      l.kerase a = l.filter fun e => decide (e.1 ≠ a) := by
    intro l
    induction l with
    | nil => exact fun _ => rfl
    | cons e l ih =>
        intro hnodup
        obtain ⟨hnotin, hnodup⟩ := List.nodupKeys_cons.1 hnodup
        by_cases he : a = e.1
        · rw [List.kerase_cons_eq he, List.filter_cons_of_neg (by simp [he])]
          -- the key does not come again
          rw [List.filter_eq_self.2 fun e' he' => ?_]
          have hne : e'.1 ≠ e.1 := fun heq => hnotin (heq ▸ List.mem_keys_of_mem he')
          simpa [he] using hne
        · rw [List.kerase_cons_ne he, List.filter_cons_of_pos (by simpa using Ne.symm he),
            ih hnodup]
  exact AList.ext (hlist t.entries t.nodupKeys)

end Lookup

/-- Filtering twice. -/
theorem filter_filter (p q : α → β → Bool) (t : Table α β) :
    filter p (filter q t) = filter (fun a b => p a b && q a b) t := by
  apply AList.ext
  exact List.filter_filter

/-- Every key is collected at most once. -/
theorem nodup_keysWhere (p : α → β → Bool) (t : Table α β) : (keysWhere p t).Nodup :=
  (t.nodupKeys.sublist List.filter_sublist : List.NodupKeys _)

/-- Changing every value twice is changing it once. -/
theorem mapVal_mapVal_of_idempotent {f : β → β} (hf : ∀ b, f (f b) = f b) (t : Table α β) :
    mapVal f (mapVal f t) = mapVal f t := by
  apply AList.ext
  simp only [mapVal, List.map_map]
  refine List.map_congr_left fun e _ => ?_
  simp only [Function.comp_apply, Sigma.map, id, hf]

/-! ### Counting entries -/

/-- As many keys are collected as there are entries that pass. -/
theorem length_keysWhere (p : β → Bool) (t : Table α β) :
    (keysWhere (fun _ => p) t).length = tally p t := by
  rw [keysWhere, List.length_map, tally, List.countP_eq_length_filter]

variable [DecidableEq α]

/-- **A tally depends only on what the lookups see of the values.** -/
theorem tally_eq_of_lookup {p : β → Bool} {t t' : Table α β}
    (h : ∀ a, (t.lookup a).map p = (t'.lookup a).map p) : tally p t = tally p t' := by
  have hperm : (mapVal p t).entries.Perm (mapVal p t').entries := by
    refine List.lookup_ext (mapVal p t).nodupKeys (mapVal p t').nodupKeys ?_
    intro a b
    have := h a
    rw [← lookup_mapVal, ← lookup_mapVal] at this
    exact iff_of_eq (congrArg (b ∈ ·) this)
  have hcount := hperm.countP_eq fun e => e.2
  simp only [mapVal, List.countP_map] at hcount
  exact hcount

/-- Inserting under a new key adds the new entry to the tally. -/
theorem tally_insert {p : β → Bool} {t : Table α β} {a : α} {b : β} (h : a ∉ t) :
    tally p (t.insert a b) = tally p t + if p b then 1 else 0 := by
  rw [tally, AList.entries_insert_of_notMem h, List.countP_cons]
  rfl

/-- Erasing an entry takes it from the tally. -/
theorem tally_erase {p : β → Bool} {t : Table α β} {a : α} {b : β} (h : t.lookup a = some b) :
    tally p t = tally p (t.erase a) + if p b then 1 else 0 := by
  have hmem : a ∈ t.entries.keys := mem_iff_lookup.2 ⟨b, h⟩
  obtain ⟨b', l₁, l₂, -, hl, hk⟩ := List.exists_of_kerase hmem
  have hb : b' = b := by
    have hin : t.lookup a = some b' := mem_entries_iff.1 (by rw [hl]; simp)
    rw [h] at hin
    exact (Option.some_inj.1 hin).symm
  rw [tally, tally, show (t.erase a).entries = l₁ ++ l₂ from hk, hl, hb]
  simp only [List.countP_append, List.countP_cons]
  omega

/-- Overwriting an entry exchanges the old value for the new one in the tally. -/
theorem tally_insert_of_lookup {p : β → Bool} {t : Table α β} {a : α} {b c : β}
    (h : t.lookup a = some b) :
    tally p (t.insert a c) + (if p b then 1 else 0) = tally p t + if p c then 1 else 0 := by
  have hins : tally p (t.insert a c) = tally p (t.erase a) + if p c then 1 else 0 := by
    rw [tally, AList.entries_insert, List.countP_cons]
    rfl
  rw [hins, tally_erase (p := p) h]
  omega

/-- A tally is zero exactly when no entry passes. -/
theorem tally_eq_zero {p : β → Bool} {t : Table α β} :
    tally p t = 0 ↔ ∀ a b, t.lookup a = some b → p b = false := by
  rw [tally, List.countP_eq_zero]
  constructor
  · intro h a b hab
    simpa using h ⟨a, b⟩ (mem_entries_iff.2 hab)
  · rintro h ⟨a, b⟩ hmem
    simp [h a b (mem_entries_iff.1 hmem)]

theorem tally_pos {p : β → Bool} {t : Table α β} {a : α} {b : β} (h : t.lookup a = some b)
    (hp : p b = true) : 0 < tally p t := by
  rw [tally_erase h, hp]
  simp

end Table

/-! ### Unsigned 64-bit counters -/

namespace UInt64

/-- Below some other value there is room for one more. -/
theorem toNat_add_one_of_lt {a b : UInt64} (h : a < b) : (a + 1).toNat = a.toNat + 1 := by
  have hlt := UInt64.lt_iff_toNat_lt.1 h
  have hb := b.toNat_lt
  rw [UInt64.toNat_add, UInt64.toNat_one, Nat.mod_eq_of_lt (by omega)]

/-- A positive counter can be decremented without wrapping around. -/
theorem toNat_sub_one_of_pos {a : UInt64} (h : 0 < a.toNat) : (a - 1).toNat = a.toNat - 1 := by
  rw [UInt64.toNat_sub_of_le a 1 (by rw [UInt64.le_iff_toNat_le, UInt64.toNat_one]; omega),
    UInt64.toNat_one]

/-- Decrementing a counter several times, if it is large enough. -/
theorem toNat_sub_ofNat_of_le {a : UInt64} {n : ℕ} (h : n ≤ a.toNat) :
    (a - UInt64.ofNat n).toNat = a.toNat - n := by
  have hn : (UInt64.ofNat n).toNat = n :=
    UInt64.toNat_ofNat_of_lt' (Nat.lt_of_le_of_lt h a.toNat_lt)
  rw [UInt64.toNat_sub_of_le _ _ (by rw [UInt64.le_iff_toNat_le, hn]; exact h), hn]

theorem le_max_left (a b : UInt64) : a ≤ max a b := by
  rw [UInt64.le_iff_toNat_le, UInt64.toNat_max]
  exact Nat.le_max_left ..

theorem le_max_right (a b : UInt64) : b ≤ max a b := by
  rw [UInt64.le_iff_toNat_le, UInt64.toNat_max]
  exact Nat.le_max_right ..

/-- The increment of a counter, wrapping around at `2 ^ 64`. -/
theorem ofNat_add_one (n : ℕ) : UInt64.ofNat n + 1 = UInt64.ofNat (n + 1) := by
  rw [UInt64.ofNat_add]
  rfl

/-- Decrementing a counter once more. -/
theorem sub_one_sub_ofNat (a : UInt64) (n : ℕ) :
    a - 1 - UInt64.ofNat n = a - UInt64.ofNat (n + 1) := by
  rw [← ofNat_add_one]
  grind

end UInt64
