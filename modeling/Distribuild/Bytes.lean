/-
**Byte strings and the numbers written in them.**

A `std::string` is a string of bytes, and the formats of the wire are written and read with the
functions that C and C++ have for such strings: numbers are printed by `std::to_string` and read
back by `strtol`, `std::stol` and `std::stoul`, lines are read by `std::getline`, and text is
searched by `find`.  This module says what these functions do, for every string.

What is not a normal return is a `Fault`: an exception, such as the two that the conversions and
`substr` raise, or undefined behaviour.

Main definitions:

* `Bytes` — a byte string;
* `Fault` — what is raised instead of a result;
* `Bytes.decimal` — a number in decimal notation;
* `Bytes.scanInteger`, `Bytes.strtol`, `Bytes.stol`, `Bytes.stoul` — reading a number;
* `Bytes.IsLong`, `Bytes.IsUnsignedLong` — the texts of which a number is read;
* `Bytes.getline`, `Bytes.find`, `Bytes.findLastOf`, `Bytes.substr` — lines, searching, parts;
* `Bytes.littleEndian`, `Bytes.ofLittleEndian` — a number as it lies in memory.

Main results:

* `Bytes.scanInteger_decimal` — **what is printed is read back**, and with it `Bytes.stol_decimal`,
  `Bytes.stoul_decimal` and `Bytes.strtol_decimal`;
* `Bytes.getline_append`, `Bytes.find_singleton_append` — a line, and a byte, that is found;
* `Bytes.stol_returns_iff`, `Bytes.stoul_returns_iff` — when reading a number raises nothing;
* `Bytes.find_isSome_iff` — what is found is what occurs;
* `Bytes.ofLittleEndian_littleEndian` — a number is read back from memory.
-/

import Mathlib.Algebra.Ring.Int.Defs
import Mathlib.Algebra.Ring.Nat
import Mathlib.Data.Int.Order.Basic
import Mathlib.Data.List.TakeWhile
import Mathlib.Tactic.Common

set_option relaxedAutoImplicit false
set_option autoImplicit false

/-- A byte string. -/
abbrev Bytes := List UInt8

/-- Byte strings are compared byte by byte. -/
instance : LawfulBEq Bytes := inferInstance

/-- What a function raises instead of returning. -/
inductive Fault
  /-- `std::invalid_argument`. -/
  | invalidArgument
  /-- `std::out_of_range`. -/
  | outOfRange
  /-- `Json::LogicError`. -/
  | logicError
  /-- Nothing is known of what happens. -/
  | undefined
deriving DecidableEq, Repr

/-- What is made of defined parts is defined. -/
theorem Fault.bind_ne_undefined {α β : Type} {x : Except Fault α} {f : α → Except Fault β}
    (hx : x ≠ .error .undefined) (hf : ∀ a, f a ≠ .error .undefined) :
    (x >>= f) ≠ .error .undefined := by
  cases x with
  | error fault =>
      intro h
      exact hx (congrArg Except.error (Except.error.inj h))
  | ok a => exact hf a

/-- A computation returns if its parts return. -/
theorem Fault.bind_eq_ok {α β : Type} {x : Except Fault α} {f : α → Except Fault β} {b : β} :
    (x >>= f) = .ok b ↔ ∃ a, x = .ok a ∧ f a = .ok b := by
  cases x with
  | error fault =>
      refine iff_of_false (fun h => by cases h) ?_
      rintro ⟨a, h, -⟩
      cases h
  | ok a =>
      refine ⟨fun h => ⟨a, rfl, h⟩, ?_⟩
      rintro ⟨a', ha, h⟩
      rw [Except.ok.inj ha]
      exact h

namespace Bytes

/-- The bytes of a text. -/
def ofString (s : String) : Bytes := s.toByteArray.data.toList

theorem ofString_injective : Function.Injective ofString := by
  intro s t h
  exact String.toByteArray_inj.1 (ByteArray.ext (Array.toList_inj.1 h))

theorem ofString_append (s t : String) : ofString (s ++ t) = ofString s ++ ofString t := by
  simp [ofString, String.toByteArray_append]

/-- There are texts of every length. -/
theorem exists_ofString_eq_replicate (n : ℕ) : ∃ s, ofString s = List.replicate n 97 := by
  induction n with
  | zero => exact ⟨"", rfl⟩
  | succ n ih =>
      obtain ⟨s, hs⟩ := ih
      refine ⟨s ++ "a", ?_⟩
      rw [ofString_append, hs, List.replicate_succ']
      rfl

/-- The number of values of a `size_t`. -/
def sizeValues : ℕ := 2 ^ 64

/-- `LONG_MAX`. -/
def longMax : ℤ := 2 ^ 63 - 1

/-- `LONG_MIN`. -/
def longMin : ℤ := -2 ^ 63

/-! ### Printing numbers -/

/-- `std::to_string` of an unsigned number. -/
def decimal (n : ℕ) : Bytes := (Nat.toDigits 10 n).map Char.toUInt8

/-- `isdigit`. -/
def isDigit (b : UInt8) : Bool := decide (48 ≤ b) && decide (b ≤ 57)

/-- `isspace`: a blank, or one of `\t`, `\n`, `\v`, `\f`, `\r`. -/
def isSpace (b : UInt8) : Bool := b == 32 || (decide (9 ≤ b) && decide (b ≤ 13))

/-- The number that a string of digits denotes. -/
def digitsValue (digits : Bytes) : ℕ :=
  digits.foldl (fun value b => value * 10 + (b.toNat - 48)) 0

theorem decimal_of_lt {n : ℕ} (h : n < 10) : decimal n = [n.digitChar.toUInt8] := by
  rw [decimal, Nat.toDigits_of_lt_base h, List.map_singleton]

theorem decimal_of_le {n : ℕ} (h : 10 ≤ n) :
    decimal n = decimal (n / 10) ++ [(n % 10).digitChar.toUInt8] := by
  rw [decimal, Nat.toDigits_of_base_le (by omega) h, List.map_append, List.map_singleton, decimal]

/-- The bytes of the ten digits. -/
theorem digitChar_toUInt8 {d : ℕ} (h : d < 10) :
    isDigit d.digitChar.toUInt8 = true ∧ d.digitChar.toUInt8.toNat = 48 + d := by
  revert h
  revert d
  decide

theorem decimal_ne_nil (n : ℕ) : decimal n ≠ [] := by
  intro h
  exact Nat.toDigits_ne_nil (List.map_eq_nil_iff.1 h)

theorem isDigit_of_mem_decimal (n : ℕ) : ∀ b ∈ decimal n, isDigit b = true := by
  induction n using Nat.strong_induction_on with
  | h n ih =>
      rcases Nat.lt_or_ge n 10 with hn | hn
      · rw [decimal_of_lt hn]
        intro b hb
        rw [List.mem_singleton.1 hb]
        exact (digitChar_toUInt8 hn).1
      · rw [decimal_of_le hn]
        intro b hb
        rcases List.mem_append.1 hb with hb | hb
        · exact ih (n / 10) (by omega) b hb
        · rw [List.mem_singleton.1 hb]
          exact (digitChar_toUInt8 (Nat.mod_lt n (by omega))).1

theorem digitsValue_concat (digits : Bytes) (b : UInt8) :
    digitsValue (digits ++ [b]) = digitsValue digits * 10 + (b.toNat - 48) := by
  rw [digitsValue, List.foldl_append]
  rfl

theorem digitsValue_decimal (n : ℕ) : digitsValue (decimal n) = n := by
  induction n using Nat.strong_induction_on with
  | h n ih =>
      rcases Nat.lt_or_ge n 10 with hn | hn
      · rw [decimal_of_lt hn, ← List.nil_append [_], digitsValue_concat, (digitChar_toUInt8 hn).2]
        simp [digitsValue]
      · rw [decimal_of_le hn, digitsValue_concat, ih (n / 10) (by omega),
          (digitChar_toUInt8 (Nat.mod_lt n (by omega))).2]
        omega

/-! ### Reading numbers -/

/-- The scanner behind `strtol` and `strtoul` in base ten: white space, a sign, digits, and then
anything.  It returns whether there was a minus sign and the number, or nothing if there were no
digits. -/
def scanInteger (s : Bytes) : Option (Bool × ℕ) :=
  let body := s.dropWhile isSpace
  let sign := body.head?.filter fun b => b == 45 || b == 43
  let digits := (if sign.isSome then body.tail else body).takeWhile isDigit
  if digits = [] then none else some (sign == some 45, digitsValue digits)

/-- The number that was scanned, with its sign. -/
def signed (scanned : Bool × ℕ) : ℤ := if scanned.1 then -scanned.2 else scanned.2

/-- `strtol(s, nullptr, 10)`: what is out of range becomes the nearest number, and a string without
a number is `0`. -/
def strtol (s : Bytes) : ℤ :=
  match scanInteger s with
  | none => 0
  | some scanned => max longMin (min longMax (signed scanned))

/-- `std::stol`. -/
def stol (s : Bytes) : Except Fault ℤ :=
  match scanInteger s with
  | none => .error .invalidArgument
  | some scanned =>
      if signed scanned < longMin ∨ longMax < signed scanned then .error .outOfRange
      else .ok (signed scanned)

/-- `std::stoul`: a number with a minus sign is negated modulo `2 ^ 64`. -/
def stoul (s : Bytes) : Except Fault ℕ :=
  match scanInteger s with
  | none => .error .invalidArgument
  | some scanned =>
      if sizeValues ≤ scanned.2 then .error .outOfRange
      else .ok (signed scanned % sizeValues).toNat

theorem stol_ne_undefined (s : Bytes) : stol s ≠ .error .undefined := by
  rw [stol]
  split
  · simp
  · split <;> simp

theorem stoul_ne_undefined (s : Bytes) : stoul s ≠ .error .undefined := by
  rw [stoul]
  split
  · simp
  · split <;> simp

/-- The text starts with a number that a `long` can hold. -/
def IsLong (s : Bytes) : Prop :=
  ∃ scanned, scanInteger s = some scanned ∧ longMin ≤ signed scanned ∧ signed scanned ≤ longMax

/-- The text starts with a number that an `unsigned long` can hold, whatever its sign. -/
def IsUnsignedLong (s : Bytes) : Prop :=
  ∃ scanned, scanInteger s = some scanned ∧ scanned.2 < sizeValues

theorem stol_returns_iff (s : Bytes) : (∃ n, stol s = .ok n) ↔ IsLong s := by
  rw [stol, IsLong]
  cases scanInteger s with
  | none => simp
  | some scanned =>
      simp only [Option.some.injEq, exists_eq_left']
      split_ifs with hrange
      · refine iff_of_false (fun h => by cases h.choose_spec) ?_
        rcases hrange with h | h
        · exact fun hle => absurd hle.1 (not_le.2 h)
        · exact fun hle => absurd hle.2 (not_le.2 h)
      · rw [not_or, not_lt, not_lt] at hrange
        exact iff_of_true ⟨_, rfl⟩ hrange

theorem stoul_returns_iff (s : Bytes) : (∃ n, stoul s = .ok n) ↔ IsUnsignedLong s := by
  rw [stoul, IsUnsignedLong]
  cases scanInteger s with
  | none => simp
  | some scanned =>
      simp only [Option.some.injEq, exists_eq_left']
      split_ifs with hrange
      · exact iff_of_false (fun h => by cases h.choose_spec) (not_lt.2 hrange)
      · exact iff_of_true ⟨_, rfl⟩ (not_le.1 hrange)

/-- A digit is neither white space nor a sign. -/
theorem isDigit_not {b : UInt8} (h : isDigit b = true) :
    isSpace b = false ∧ (b == 45 || b == 43) = false := by
  simp only [isDigit, Bool.and_eq_true, decide_eq_true_eq, UInt8.le_iff_toNat_le] at h
  simp only [isSpace, Bool.or_eq_false_iff, Bool.and_eq_false_iff, decide_eq_false_iff_not,
    beq_eq_false_iff_ne, ne_eq, UInt8.le_iff_toNat_le, ← UInt8.toNat_inj]
  simp only [UInt8.reduceToNat] at h ⊢
  omega

/-- **What is printed is read back.** -/
theorem scanInteger_decimal (n : ℕ) : scanInteger (decimal n) = some (false, n) := by
  have hdigits := isDigit_of_mem_decimal n
  have hall : (decimal n).takeWhile isDigit = decimal n := List.takeWhile_eq_self_iff.2 hdigits
  obtain ⟨b, rest, hn⟩ := List.exists_cons_of_ne_nil (decimal_ne_nil n)
  have hb := isDigit_not (hdigits b (hn ▸ List.mem_cons_self))
  have hspace : (decimal n).dropWhile isSpace = decimal n := by
    rw [hn, List.dropWhile_cons_of_neg (by rw [hb.1]; simp)]
  have hsign : ((decimal n).head?.filter fun b => b == 45 || b == 43) = none := by
    rw [hn, List.head?_cons, Option.filter_some, if_neg (by rw [hb.2]; simp)]
  simp only [scanInteger, hspace, hsign, hall, Option.isSome_none, Bool.false_eq_true, if_false,
    if_neg (decimal_ne_nil n), digitsValue_decimal]
  rfl

theorem stol_decimal {n : ℕ} (h : n < 2 ^ 63) : stol (decimal n) = .ok n := by
  have hrange : ¬((n : ℤ) < longMin ∨ longMax < n) := by
    rw [longMin, longMax]
    omega
  simp only [stol, scanInteger_decimal, signed, Bool.false_eq_true, if_false, if_neg hrange]

theorem stoul_decimal {n : ℕ} (h : n < 2 ^ 64) : stoul (decimal n) = .ok n := by
  have hmod : ((n : ℤ) % (sizeValues : ℕ)).toNat = n := by
    rw [sizeValues]
    omega
  simp only [stoul, scanInteger_decimal, signed, Bool.false_eq_true, if_false,
    if_neg (Nat.not_le.2 (show n < sizeValues from h)), hmod]

theorem strtol_decimal {n : ℕ} (h : n < 2 ^ 63) : strtol (decimal n) = n := by
  simp only [strtol, scanInteger_decimal, signed, Bool.false_eq_true, if_false]
  rw [longMin, longMax]
  omega

/-! ### Lines, searching and parts -/

/-- `std::getline` on a stream that holds the rest `s`: the line, and what is left. -/
def getline (s : Bytes) : Bytes × Bytes :=
  (s.takeWhile (· != 10), (s.dropWhile (· != 10)).drop 1)

/-- `s.find(pattern)`. -/
def find (pattern : Bytes) : Bytes → Option ℕ
  | [] => if pattern = [] then some 0 else none
  | b :: s => if pattern.isPrefixOf (b :: s) then some 0 else (find pattern s).map (· + 1)

/-- `s.find_last_of(c)`. -/
def findLastOf (c : UInt8) : Bytes → Option ℕ
  | [] => none
  | b :: s =>
      match findLastOf c s with
      | some pos => some (pos + 1)
      | none => if b = c then some 0 else none

/-- `s.substr(pos, len)` of a string. -/
def substr (s : Bytes) (pos len : ℕ) : Except Fault Bytes :=
  if s.length < pos then .error .outOfRange else .ok ((s.drop pos).take len)

theorem getline_append {line : Bytes} (h : (10 : UInt8) ∉ line) (rest : Bytes) :
    getline (line ++ 10 :: rest) = (line, rest) := by
  have hne : ∀ b ∈ line, (b != 10) = true := by
    intro b hb
    exact bne_iff_ne.2 fun heq => h (heq ▸ hb)
  rw [getline, List.takeWhile_append_of_pos hne, List.dropWhile_append_of_pos hne]
  simp

/-- A line, and what is left: either the line is ended, or the string has no line end. -/
theorem getline_cases (s : Bytes) :
    s = (getline s).1 ++ 10 :: (getline s).2 ∨ getline s = (s, []) := by
  by_cases h : (10 : UInt8) ∈ s
  · obtain ⟨line, rest, rfl, hline⟩ := List.eq_append_cons_of_mem h
    rw [getline_append hline]
    exact Or.inl rfl
  · refine Or.inr ?_
    have hall : ∀ b ∈ s, (b != 10) = true := fun b hb => bne_iff_ne.2 fun heq => h (heq ▸ hb)
    rw [getline, List.takeWhile_eq_self_iff.2 hall, List.dropWhile_eq_nil_iff.2 hall, List.drop_nil]

theorem find_singleton_append {c : UInt8} {a : Bytes} (h : c ∉ a) (rest : Bytes) :
    find [c] (a ++ c :: rest) = some a.length := by
  induction a with
  | nil => simp [find]
  | cons b a ih =>
      rw [List.mem_cons, not_or] at h
      rw [List.cons_append, find, ih h.2, if_neg]
      · rfl
      · simpa using h.1

theorem find_singleton_eq_none {c : UInt8} {a : Bytes} (h : c ∉ a) : find [c] a = none := by
  induction a with
  | nil => rfl
  | cons b a ih =>
      rw [List.mem_cons, not_or] at h
      rw [find, ih h.2, if_neg]
      · rfl
      · simpa using h.1

theorem substr_ne_undefined (s : Bytes) (pos len : ℕ) : substr s pos len ≠ .error .undefined := by
  rw [substr]
  split <;> simp

theorem substr_eq_ok {s part : Bytes} {pos len : ℕ} :
    substr s pos len = .ok part ↔ pos ≤ s.length ∧ (s.drop pos).take len = part := by
  rw [substr]
  split_ifs with h
  · refine iff_of_false (fun heq => by cases heq) fun hle => absurd hle.1 (not_le.2 h)
  · rw [Except.ok.injEq]
    exact (and_iff_right (not_lt.1 h)).symm

theorem substr_append (head part rest : Bytes) :
    substr (head ++ (part ++ rest)) head.length part.length = .ok part := by
  rw [substr, if_neg (by simp), List.drop_left, List.take_left]

theorem findLastOf_eq_none {c : UInt8} {s : Bytes} (h : c ∉ s) : findLastOf c s = none := by
  induction s with
  | nil => rfl
  | cons b s ih =>
      rw [List.mem_cons, not_or] at h
      rw [findLastOf, ih h.2]
      exact if_neg fun heq => h.1 heq.symm

theorem findLastOf_append {c : UInt8} {rest : Bytes} (h : c ∉ rest) (front : Bytes) :
    findLastOf c (front ++ c :: rest) = some front.length := by
  induction front with
  | nil =>
      rw [List.nil_append, findLastOf, findLastOf_eq_none h]
      exact if_pos rfl
  | cons b front ih => rw [List.cons_append, findLastOf, ih, List.length_cons]

/-- A string that holds a character is divided by its last occurrence. -/
theorem exists_last {c : UInt8} {s : Bytes} (h : c ∈ s) :
    ∃ front rest, s = front ++ c :: rest ∧ c ∉ rest := by
  obtain ⟨rest, front, heq, hrest⟩ := List.eq_append_cons_of_mem (List.mem_reverse.2 h)
  refine ⟨front.reverse, rest.reverse, ?_, fun hmem => hrest (List.mem_reverse.1 hmem)⟩
  rw [← List.reverse_reverse s, heq]
  simp

/-- What is found is what occurs. -/
theorem find_isSome_iff (pattern s : Bytes) : (find pattern s).isSome = true ↔ pattern <:+: s := by
  induction s with
  | nil =>
      by_cases hp : pattern = []
      · simp [find, hp]
      · simp [find, hp]
  | cons b s ih =>
      rw [find, List.infix_cons_iff, ← ih, ← List.isPrefixOf_iff_prefix]
      split_ifs with hp
      · simp [hp]
      · simp [hp]

/-- What is found is the leftmost occurrence. -/
theorem find_eq_some_iff {pattern s : Bytes} {p : ℕ} :
    find pattern s = some p ↔
      p ≤ s.length ∧ pattern <+: s.drop p ∧ ∀ q < p, ¬ pattern <+: s.drop q := by
  induction s generalizing p with
  | nil =>
      by_cases hp : pattern = []
      · simp only [find, if_pos hp, Option.some.injEq]
        constructor
        · rintro rfl
          simp [hp]
        · intro h
          exact (Nat.le_zero.1 h.1).symm
      · simp [find, hp]
  | cons b s ih =>
      rw [find]
      by_cases hp : pattern.isPrefixOf (b :: s) = true
      · have hpre := List.isPrefixOf_iff_prefix.1 hp
        rw [if_pos hp, Option.some.injEq]
        constructor
        · rintro rfl
          exact ⟨Nat.zero_le _, hpre, fun q hq => absurd hq (Nat.not_lt_zero q)⟩
        · rintro ⟨-, -, hleft⟩
          by_contra hne
          exact hleft 0 (by omega) hpre
      · have hpre : ¬ pattern <+: b :: s := fun h => hp (List.isPrefixOf_iff_prefix.2 h)
        rw [if_neg hp]
        cases p with
        | zero => simpa using hpre
        | succ p =>
            have hpred : (find pattern s).map (· + 1) = some (p + 1) ↔
                find pattern s = some p := by simp
            rw [hpred, ih, List.drop_succ_cons, List.length_cons, Nat.add_le_add_iff_right]
            refine and_congr_right fun _ => and_congr_right fun _ => ?_
            constructor
            · intro h q hq
              cases q with
              | zero => exact hpre
              | succ q => exact h q (by omega)
            · intro h q hq
              exact h (q + 1) (by omega)

/-- A string in which a pattern is found, divided there. -/
theorem exists_of_find {pattern s : Bytes} {p : ℕ} (h : find pattern s = some p) :
    ∃ rest, s = s.take p ++ (pattern ++ rest) ∧ s.drop (p + pattern.length) = rest := by
  obtain ⟨-, ⟨rest, hrest⟩, -⟩ := find_eq_some_iff.1 h
  refine ⟨rest, ?_, ?_⟩
  · rw [hrest, List.take_append_drop]
  · rw [← List.drop_drop, ← hrest, List.drop_left]

/-- Before the place where a pattern is found it does not occur. -/
theorem not_infix_take_of_find {pattern s : Bytes} (hp : pattern ≠ []) {p : ℕ}
    (h : find pattern s = some p) : ¬ pattern <:+: s.take p := by
  obtain ⟨hle, -, hleft⟩ := find_eq_some_iff.1 h
  rintro ⟨front, rest, heq⟩
  have hlen : front.length + pattern.length + rest.length = p := by
    have := congrArg List.length heq
    simpa [hle, Nat.add_assoc] using this
  have hpos : 0 < pattern.length := List.length_pos_iff.2 hp
  refine hleft front.length (by omega) ⟨rest ++ s.drop p, ?_⟩
  have hs : s = front ++ (pattern ++ (rest ++ s.drop p)) := by
    rw [← List.append_assoc, ← List.append_assoc, heq, List.take_append_drop]
  conv_rhs => rw [hs]
  rw [List.drop_left]

/-! ### Numbers in memory -/

/-- The bytes of an unsigned number of the given width, the lowest first. -/
def littleEndian : ℕ → ℕ → Bytes
  | 0, _ => []
  | width + 1, n => UInt8.ofNat n :: littleEndian width (n / 256)

/-- The number that such bytes hold. -/
def ofLittleEndian : Bytes → ℕ
  | [] => 0
  | b :: s => b.toNat + 256 * ofLittleEndian s

@[simp] theorem length_littleEndian (width n : ℕ) : (littleEndian width n).length = width := by
  induction width generalizing n with
  | zero => rfl
  | succ width ih => rw [littleEndian, List.length_cons, ih]

/-- A number that fits is read back. -/
theorem ofLittleEndian_littleEndian {width n : ℕ} (h : n < 256 ^ width) :
    ofLittleEndian (littleEndian width n) = n := by
  induction width generalizing n with
  | zero =>
      rw [Nat.pow_zero] at h
      simp only [littleEndian, ofLittleEndian]
      omega
  | succ width ih =>
      have hdiv : n / 256 < 256 ^ width := by
        rw [Nat.pow_succ] at h
        omega
      rw [littleEndian, ofLittleEndian, ih hdiv, UInt8.toNat_ofNat']
      omega

end Bytes
