/-
**Which locations the scheduler can read.**

A servant reports where it can be reached as a text `ip:port`, and the scheduler keeps it under that
text.  `TryParseIPv4` is meant to accept just these texts.  It divides the text at the first colon,
lets `inet_pton` look at the front as a C string, and looks for a character behind the colon that is
not a digit.

`inet_pton` scans for a dotted quad, and this module proves that it finds nothing else.  What
`TryParseIPv4` accepts beyond `ip:port` is then seen to be of three kinds: a front that is only a
dotted quad up to a zero character, a port without a digit, and a port that no machine has.

Main definitions:

* `Scheduler.Numbers`, `Scheduler.IsDottedQuad` — what `inet_pton` scans for;
* `Scheduler.IsIpPort` — a location;
* `Scheduler.ReadsTooMuch` — the three kinds of text that are accepted without being one.

Main results:

* `Scheduler.scanIPv4_iff`, `Scheduler.inetPton_iff` — **`inet_pton` accepts the dotted quads**;
* `Scheduler.tryParseIPv4_eq_some_iff` — what `TryParseIPv4` accepts;
* `Scheduler.tryParseIPv4_exact_iff` — **on which texts it does what it is meant to do**.
-/

import Mathlib.Data.List.TakeWhile
import Distribuild.SchedulerService

set_option relaxedAutoImplicit false
set_option autoImplicit false

namespace Scheduler

/-! ### Digits -/

/-- A text divides in one way only into digits and what does not begin with a digit. -/
theorem digits_append_inj {ds ds' tail tail' : List Char} (hds : ∀ c ∈ ds, c.isDigit = true)
    (hds' : ∀ c ∈ ds', c.isDigit = true) (htail : ∀ c ∈ tail.head?, c.isDigit = false)
    (htail' : ∀ c ∈ tail'.head?, c.isDigit = false) (h : ds ++ tail = ds' ++ tail') :
    ds = ds' ∧ tail = tail' := by
  have htake : ∀ {t : List Char}, (∀ c ∈ t.head?, c.isDigit = false) →
      t.takeWhile Char.isDigit = [] := by
    intro t ht
    cases t with
    | nil => rfl
    | cons c t => rw [List.takeWhile_cons, if_neg (by simp [ht c rfl])]
  have heq : ds = ds' := by
    have := congrArg (List.takeWhile Char.isDigit) h
    rwa [List.takeWhile_append_of_pos hds, List.takeWhile_append_of_pos hds', htake htail,
      htake htail', List.append_nil, List.append_nil] at this
  subst heq
  exact ⟨rfl, List.append_cancel_left h⟩

theorem isDigit_toDigits (n : ℕ) : ∀ c ∈ Nat.toDigits 10 n, c.isDigit = true := by
  intro c hc
  exact Nat.isDigit_of_mem_toDigits (by decide) (by decide) hc

theorem toDigits_injective {m n : ℕ} (h : Nat.toDigits 10 m = Nat.toDigits 10 n) : m = n := by
  rw [← Nat.ofDigitChars_ten_toDigits (n := m), h, Nat.ofDigitChars_ten_toDigits]

/-- The value of a digit. -/
def digitValue (c : Char) : ℕ := c.toNat - '0'.toNat

theorem digitValue_lt {c : Char} (h : c.isDigit = true) : digitValue c < 10 := by
  rw [Char.isDigit_iff_toNat] at h
  have h0 : '0'.toNat = 48 := rfl
  have h9 : '9'.toNat = 57 := rfl
  rw [digitValue]
  omega

/-- A digit is written as itself. -/
theorem toDigits_digitValue {c : Char} (h : c.isDigit = true) :
    Nat.toDigits 10 (digitValue c) = [c] := by
  have hlt := digitValue_lt h
  rw [Nat.toDigits_of_lt_base hlt]
  refine congrArg (fun c => [c]) (Char.toNat_inj.1 ?_)
  rw [Char.isDigit_iff_toNat] at h
  have h0 : '0'.toNat = 48 := rfl
  rw [Nat.toNat_digitChar_of_lt_ten hlt, digitValue]
  omega

/-- A number that is not `0` is extended by a digit. -/
theorem toDigits_concat {v : ℕ} (hv : v ≠ 0) {c : Char} (h : c.isDigit = true) :
    Nat.toDigits 10 v ++ [c] = Nat.toDigits 10 (v * 10 + digitValue c) := by
  rw [← toDigits_digitValue h,
    Nat.toDigits_append_toDigits (by decide) (by omega) (digitValue_lt h),
    Nat.mul_comm]

/-- What begins with the digits of a number is not smaller. -/
theorem le_of_toDigits_append {m n : ℕ} {ds : List Char}
    (h : Nat.toDigits 10 n = Nat.toDigits 10 m ++ ds) : m ≤ n := by
  rw [← Nat.ofDigitChars_ten_toDigits (n := n), h, Nat.ofDigitChars_append,
    Nat.ofDigitChars_ten_toDigits, Nat.ofDigitChars_eq_ofDigitChars_zero]
  calc m = 1 * m := (Nat.one_mul m).symm
    _ ≤ 10 ^ ds.length * m := Nat.mul_le_mul_right m (Nat.one_le_pow _ _ (by decide))
    _ ≤ _ := Nat.le_add_right _ _

/-- Only `0` begins with a `0`. -/
theorem eq_zero_of_toDigits {n : ℕ} {ds : List Char} (h : Nat.toDigits 10 n = '0' :: ds) :
    n = 0 := by
  induction n using Nat.strongRecOn generalizing ds with
  | ind n ih =>
      rcases Nat.lt_or_ge n 10 with hlt | hge
      · rw [Nat.toDigits_of_lt_base hlt, List.cons.injEq, Nat.digitChar_eq_zero] at h
        exact h.1
      · rw [Nat.toDigits_of_base_le (by decide) hge] at h
        obtain ⟨c, cs, hcs⟩ :=
          List.exists_cons_of_ne_nil (Nat.toDigits_ne_nil (n := n / 10) (b := 10))
        rw [hcs, List.cons_append, List.cons.injEq] at h
        have hzero := ih (n / 10) (by omega) (h.1 ▸ hcs)
        omega

/-! ### Dotted quads -/

/-- What is left of a dotted quad when the scanner is in its `n`-th number: the number, from its
first digit on, and those that follow. -/
def Numbers (n : ℕ) (cs : List Char) : Prop :=
  ∃ (number : ℕ) (numbers : List ℕ), number ≤ 255 ∧ (∀ m ∈ numbers, m ≤ 255) ∧
    numbers.length + n = 4 ∧
    cs = Nat.toDigits 10 number ++ numbers.flatMap fun m => '.' :: Nat.toDigits 10 m

theorem head_numbers (numbers : List ℕ) :
    ∀ c ∈ (numbers.flatMap fun m => '.' :: Nat.toDigits 10 m).head?, c.isDigit = false := by
  cases numbers with
  | nil => simp
  | cons m numbers =>
      intro c hc
      rw [List.flatMap_cons, List.cons_append, List.head?_cons, Option.mem_some_iff] at hc
      rw [← hc]
      rfl

/-- Behind the digits of the number there is nothing or a dot. -/
theorem Numbers.cases {n v : ℕ} {cs : List Char} (h : Numbers n (Nat.toDigits 10 v ++ cs))
    (hcs : ∀ c ∈ cs.head?, c.isDigit = false) :
    v ≤ 255 ∧ (cs = [] ∧ n = 4 ∨ ∃ rest, cs = '.' :: rest ∧ n ≠ 4 ∧ Numbers (n + 1) rest) := by
  obtain ⟨number, numbers, hle, hall, hlen, heq⟩ := h
  obtain ⟨hdigits, htail⟩ := digits_append_inj (isDigit_toDigits v) (isDigit_toDigits number) hcs
    (head_numbers numbers) heq
  rw [toDigits_injective hdigits]
  refine ⟨hle, ?_⟩
  cases numbers with
  | nil =>
      rw [List.length_nil] at hlen
      exact Or.inl ⟨htail, by omega⟩
  | cons m numbers =>
      rw [List.length_cons] at hlen
      refine Or.inr ⟨_, htail, by omega, m, numbers, hall m List.mem_cons_self, ?_, by omega, rfl⟩
      exact fun x hx => hall x (List.mem_cons_of_mem _ hx)

theorem Numbers.last {v : ℕ} (h : v ≤ 255) : Numbers 4 (Nat.toDigits 10 v) :=
  ⟨v, [], h, by simp, rfl, by simp⟩

theorem Numbers.dot {n v : ℕ} {rest : List Char} (hv : v ≤ 255) (h : Numbers (n + 1) rest) :
    Numbers n (Nat.toDigits 10 v ++ '.' :: rest) := by
  obtain ⟨number, numbers, hle, hall, hlen, rfl⟩ := h
  refine ⟨v, number :: numbers, hv, ?_, by rw [List.length_cons]; omega, by simp⟩
  intro m hm
  rcases List.mem_cons.1 hm with rfl | hm
  · exact hle
  · exact hall m hm

/-- All digits that follow belong to the number. -/
theorem Numbers.digits {n v : ℕ} {cs : List Char} (h : Numbers n (Nat.toDigits 10 v ++ cs)) :
    ∃ number ≤ 255, Nat.toDigits 10 number = Nat.toDigits 10 v ++ cs.takeWhile Char.isDigit := by
  obtain ⟨number, numbers, hle, -, -, heq⟩ := h
  have hdigits : ∀ c ∈ Nat.toDigits 10 v ++ cs.takeWhile Char.isDigit, c.isDigit = true := by
    intro c hc
    rcases List.mem_append.1 hc with hc | hc
    · exact isDigit_toDigits v c hc
    · exact List.mem_takeWhile_imp hc
  have hrest : ∀ c ∈ (cs.dropWhile Char.isDigit).head?, c.isDigit = false := by
    intro c hc
    have := List.head?_dropWhile_not Char.isDigit cs
    rw [Option.mem_def] at hc
    rw [hc] at this
    simpa using this
  rw [← List.takeWhile_append_dropWhile (p := Char.isDigit) (l := cs), ← List.append_assoc] at heq
  obtain ⟨hnumber, -⟩ :=
    digits_append_inj hdigits (isDigit_toDigits number) hrest (head_numbers numbers) heq
  exact ⟨number, hle, hnumber.symm⟩

/-- A number that begins with the digits of another is not smaller, so that one is not too large
either. -/
theorem Numbers.le {n v : ℕ} {cs : List Char} (h : Numbers n (Nat.toDigits 10 v ++ cs)) :
    v ≤ 255 := by
  obtain ⟨number, hle, hdigits⟩ := h.digits
  exact Nat.le_trans (le_of_toDigits_append hdigits) hle

/-- No digit follows a `0`. -/
theorem Numbers.zero {n : ℕ} {c : Char} {cs : List Char} (hc : c.isDigit = true) :
    ¬ Numbers n (Nat.toDigits 10 0 ++ c :: cs) := by
  intro h
  obtain ⟨number, -, hdigits⟩ := h.digits
  rw [Nat.toDigits_zero, List.singleton_append, List.takeWhile_cons, if_pos hc] at hdigits
  rw [eq_zero_of_toDigits hdigits, Nat.toDigits_zero] at hdigits
  simp at hdigits

/-- What begins like a number begins with a digit. -/
theorem Numbers.head {n : ℕ} {c : Char} {cs : List Char} (h : Numbers n (c :: cs)) :
    c.isDigit = true := by
  obtain ⟨number, numbers, -, -, -, heq⟩ := h
  obtain ⟨d, ds, hds⟩ := List.exists_cons_of_ne_nil (Nat.toDigits_ne_nil (n := number) (b := 10))
  have hd := isDigit_toDigits number d (hds ▸ List.mem_cons_self)
  rw [hds, List.cons_append, List.cons.injEq] at heq
  rw [heq.1]
  exact hd

section Scanner

variable {c : Char} {cs : List Char} {n v : ℕ}

theorem scanIPv4_digit (hc : c.isDigit = true) :
    scanIPv4 (c :: cs) n (some v) =
      if v = 0 ∨ v * 10 + digitValue c > 255 then false
      else scanIPv4 cs n (some (v * 10 + digitValue c)) := by
  rw [scanIPv4, if_pos hc]
  rfl

theorem scanIPv4_first (hc : c.isDigit = true) (hn : n < 4) :
    scanIPv4 (c :: cs) n none = scanIPv4 cs (n + 1) (some (digitValue c)) := by
  rw [scanIPv4, if_pos hc]
  exact if_neg (by omega)

theorem scanIPv4_dot : scanIPv4 ('.' :: cs) n (some v) =
    if n = 4 then false else scanIPv4 cs n none := by
  rw [scanIPv4, if_neg (by decide), if_pos ⟨rfl, rfl⟩]

theorem scanIPv4_other {current : Option ℕ} (hc : ¬ c.isDigit = true)
    (h : ¬ (c = '.' ∧ current.isSome = true)) : scanIPv4 (c :: cs) n current = false := by
  rw [scanIPv4.eq_def]
  simp only [if_neg hc, if_neg h]

end Scanner

/-- The scanner between two numbers, if it is right within a number. -/
theorem scanIPv4_none_iff {c : Char} {cs : List Char} {n : ℕ} (hn : n < 4)
    (hrest : ∀ v, v ≤ 255 → (scanIPv4 cs (n + 1) (some v) = true ↔
      Numbers (n + 1) (Nat.toDigits 10 v ++ cs))) :
    scanIPv4 (c :: cs) n none = true ↔ Numbers (n + 1) (c :: cs) := by
  by_cases hc : c.isDigit = true
  · have hfirst : c :: cs = Nat.toDigits 10 (digitValue c) ++ cs := by
      rw [toDigits_digitValue hc, List.singleton_append]
    have hlt := digitValue_lt hc
    rw [scanIPv4_first hc hn, hrest _ (by omega), ← hfirst]
  · rw [scanIPv4_other hc (by simp)]
    exact iff_of_false Bool.false_ne_true fun h => hc h.head

/-- The scanner within a number at a character that ends it, if it is right behind a dot. -/
theorem scanIPv4_end_iff {c : Char} {cs : List Char} {n v : ℕ} (hn : n ≤ 4) (hv : v ≤ 255)
    (hc : ¬ c.isDigit = true)
    (hrest : n < 4 → (scanIPv4 cs n none = true ↔ Numbers (n + 1) cs)) :
    scanIPv4 (c :: cs) n (some v) = true ↔ Numbers n (Nat.toDigits 10 v ++ c :: cs) := by
  have hcases : Numbers n (Nat.toDigits 10 v ++ c :: cs) →
      c = '.' ∧ n < 4 ∧ Numbers (n + 1) cs := by
    intro h
    obtain ⟨-, ⟨hnil, -⟩ | ⟨rest, heq, hne, hrest⟩⟩ := h.cases (by simpa using hc)
    · cases hnil
    · cases heq
      exact ⟨rfl, by omega, hrest⟩
  by_cases hdot : c = '.'
  · subst hdot
    rw [scanIPv4_dot]
    by_cases hfour : n = 4
    · rw [if_pos hfour]
      exact iff_of_false Bool.false_ne_true fun h => absurd (hcases h).2.1 (by omega)
    · rw [if_neg hfour, hrest (by omega)]
      exact ⟨fun h => h.dot hv, fun h => (hcases h).2.2⟩
  · rw [scanIPv4_other hc fun h => hdot h.1]
    exact iff_of_false Bool.false_ne_true fun h => hdot (hcases h).1

/-- The scanner within a number at a digit, if it is right behind it. -/
theorem scanIPv4_digit_iff {c : Char} {cs : List Char} {n v : ℕ} (hc : c.isDigit = true)
    (hrest : ∀ v, v ≤ 255 → (scanIPv4 cs n (some v) = true ↔ Numbers n (Nat.toDigits 10 v ++ cs))) :
    scanIPv4 (c :: cs) n (some v) = true ↔ Numbers n (Nat.toDigits 10 v ++ c :: cs) := by
  rw [scanIPv4_digit hc]
  by_cases hzero : v = 0
  · rw [if_pos (Or.inl hzero), hzero]
    exact iff_of_false Bool.false_ne_true (Numbers.zero hc)
  · have hnew : Nat.toDigits 10 v ++ c :: cs = Nat.toDigits 10 (v * 10 + digitValue c) ++ cs := by
      rw [← toDigits_concat hzero hc, List.append_assoc, List.singleton_append]
    rw [hnew]
    by_cases hlarge : v * 10 + digitValue c > 255
    · rw [if_pos (Or.inr hlarge)]
      exact iff_of_false Bool.false_ne_true fun h => absurd h.le (by omega)
    · rw [if_neg (not_or.2 ⟨hzero, hlarge⟩)]
      exact hrest _ (by omega)

/-- **What the scanner accepts**: within a number what is left of it and of the quad, and between
two numbers the rest of the quad. -/
theorem scanIPv4_iff (cs : List Char) (n : ℕ) (hn : n ≤ 4) :
    (∀ v, v ≤ 255 → (scanIPv4 cs n (some v) = true ↔ Numbers n (Nat.toDigits 10 v ++ cs))) ∧
      (n < 4 → (scanIPv4 cs n none = true ↔ Numbers (n + 1) cs)) := by
  induction cs generalizing n with
  | nil =>
      refine ⟨fun v hv => ?_, fun hlt => ?_⟩
      · rw [scanIPv4, decide_eq_true_iff]
        constructor
        · rintro rfl
          rw [List.append_nil]
          exact Numbers.last hv
        · intro h
          obtain ⟨-, ⟨-, hfour⟩ | ⟨rest, hrest, -⟩⟩ := h.cases (by simp)
          · exact hfour
          · cases hrest
      · rw [scanIPv4, decide_eq_true_iff]
        refine iff_of_false (by omega) fun h => ?_
        obtain ⟨number, numbers, -, -, -, heq⟩ := h
        exact Nat.toDigits_ne_nil (List.append_eq_nil_iff.1 heq.symm).1
  | cons c cs ih =>
      refine ⟨fun v hv => ?_, fun hlt => scanIPv4_none_iff hlt (ih (n + 1) hlt).1⟩
      by_cases hc : c.isDigit = true
      · exact scanIPv4_digit_iff hc (ih n hn).1
      · exact scanIPv4_end_iff hn hv hc (ih n hn).2

/-- A dotted quad: four numbers of at most `255`, in decimal, with dots between them. -/
def IsDottedQuad (ip : List Char) : Prop :=
  ∃ a b c d : ℕ, (a ≤ 255 ∧ b ≤ 255 ∧ c ≤ 255 ∧ d ≤ 255) ∧
    ip = Nat.toDigits 10 a ++ '.' :: Nat.toDigits 10 b ++ '.' :: Nat.toDigits 10 c ++
      '.' :: Nat.toDigits 10 d

/-- **`inet_pton` accepts the dotted quads**, and nothing else. -/
theorem inetPton_iff (ip : List Char) : inetPton ip = true ↔ IsDottedQuad ip := by
  rw [inetPton, (scanIPv4_iff ip 0 (by decide)).2 (by decide)]
  constructor
  · rintro ⟨a, numbers, ha, hall, hlen, rfl⟩
    obtain ⟨b, c, d, rfl⟩ := List.length_eq_three.1 (Nat.succ_injective hlen)
    refine ⟨a, b, c, d, ⟨ha, hall b ?_, hall c ?_, hall d ?_⟩, ?_⟩
    · simp
    · simp
    · simp
    · simp
  · rintro ⟨a, b, c, d, ⟨ha, hb, hc, hd⟩, rfl⟩
    refine ⟨a, [b, c, d], ha, ?_, rfl, by simp⟩
    simp [hb, hc, hd]

/-- A dotted quad is made of digits and dots. -/
theorem IsDottedQuad.chars {ip : List Char} (h : IsDottedQuad ip) :
    ∀ c ∈ ip, c.isDigit = true ∨ c = '.' := by
  obtain ⟨a, b, c, d, -, rfl⟩ := h
  intro x hx
  simp only [List.mem_append, List.mem_cons] at hx
  rcases hx with ((hx | rfl | hx) | rfl | hx) | rfl | hx
  · exact Or.inl (isDigit_toDigits a x hx)
  · exact Or.inr rfl
  · exact Or.inl (isDigit_toDigits b x hx)
  · exact Or.inr rfl
  · exact Or.inl (isDigit_toDigits c x hx)
  · exact Or.inr rfl
  · exact Or.inl (isDigit_toDigits d x hx)

theorem IsDottedQuad.not_mem {ip : List Char} (h : IsDottedQuad ip) {c : Char}
    (hc : c.isDigit = false) (hdot : c ≠ '.') : c ∉ ip := by
  intro hmem
  rcases h.chars c hmem with hdigit | heq
  · rw [hc] at hdigit
    exact Bool.false_ne_true hdigit
  · exact hdot heq

/-! ### Locations -/

/-- A location `ip:port`. -/
def IsIpPort (location ip port : String) : Prop :=
  location = ip ++ ":" ++ port ∧ IsDottedQuad ip.toList ∧
    port ≠ "" ∧ (∀ c ∈ port.toList, c.isDigit = true) ∧ Nat.ofDigitChars 10 port.toList 0 ≤ 65535

/-- What `TryParseIPv4` looks at: the parts before and behind the first colon, the first of them as
a C string. -/
def IsRead (location ip port : String) : Prop :=
  location = ip ++ ":" ++ port ∧ ':' ∉ ip.toList ∧ IsDottedQuad (cStr ip.toList) ∧
    ∀ c ∈ port.toList, c.isDigit = true

theorem cStr_eq_self {s : List Char} (h : '\x00' ∉ s) : cStr s = s := by
  rw [cStr, List.takeWhile_eq_self_iff]
  intro c hc
  exact bne_iff_ne.2 fun heq => h (heq ▸ hc)

theorem toList_join (ip port : String) :
    (ip ++ ":" ++ port).toList = ip.toList ++ ':' :: port.toList := by
  simp [String.toList_append]

/-- `TryParseIPv4` on a text that is divided at its first colon. -/
theorem tryParseIPv4_of_toList {location : String} {front rest : List Char}
    (hlocation : location.toList = front ++ ':' :: rest) (hfront : ':' ∉ front) :
    tryParseIPv4 location =
      if inetPton (cStr front) && rest.all Char.isDigit then
        some (String.ofList front, String.ofList rest)
      else none := by
  have hne : ∀ c ∈ front, (c != ':') = true := fun c hc => bne_iff_ne.2 fun heq => hfront (heq ▸ hc)
  have htake : location.toList.takeWhile (· != ':') = front := by
    rw [hlocation, List.takeWhile_append_of_pos hne]
    simp
  have hdrop : (location.toList.dropWhile (· != ':')).drop 1 = rest := by
    rw [hlocation, List.dropWhile_append_of_pos hne]
    simp
  have hcolon : location.toList.contains ':' = true := by
    rw [hlocation]
    simp
  have hany : rest.any (!·.isDigit) = !rest.all Char.isDigit := List.not_all_eq_any_not.symm
  simp only [tryParseIPv4, htake, hdrop, hcolon, hany]
  cases inetPton (cStr front) with
  | false => rfl
  | true =>
      cases rest.all Char.isDigit with
      | false => rfl
      | true => rfl

/-- **What `TryParseIPv4` accepts.** -/
theorem tryParseIPv4_eq_some_iff (location ip port : String) :
    tryParseIPv4 location = some (ip, port) ↔ IsRead location ip port := by
  constructor
  · intro h
    by_cases hcolon : ':' ∈ location.toList
    · obtain ⟨front, rest, hlocation, hfront⟩ := List.eq_append_cons_of_mem hcolon
      rw [tryParseIPv4_of_toList hlocation hfront] at h
      split at h
      next hread =>
        rw [Bool.and_eq_true, List.all_eq_true] at hread
        cases h
        refine ⟨?_, ?_, ?_, ?_⟩
        · rw [← String.toList_inj, toList_join, String.toList_ofList, String.toList_ofList,
            hlocation]
        · rw [String.toList_ofList]
          exact hfront
        · rw [String.toList_ofList, ← inetPton_iff]
          exact hread.1
        · rw [String.toList_ofList]
          exact hread.2
      next => cases h
    · simp [tryParseIPv4, hcolon] at h
  · rintro ⟨rfl, hcolon, hpton, hdigits⟩
    rw [tryParseIPv4_of_toList (toList_join ip port) hcolon,
      if_pos (Bool.and_eq_true_iff.2 ⟨(inetPton_iff _).2 hpton, List.all_eq_true.2 hdigits⟩),
      String.ofList_toList, String.ofList_toList]

/-- Every location is read. -/
theorem IsIpPort.isRead {location ip port : String} (h : IsIpPort location ip port) :
    IsRead location ip port := by
  obtain ⟨hlocation, hip, -, hdigits, -⟩ := h
  refine ⟨hlocation, hip.not_mem rfl (by decide), ?_, hdigits⟩
  rw [cStr_eq_self (hip.not_mem rfl (by decide))]
  exact hip

/-- What is read without being a location: only the front up to a zero character is a dotted quad,
or there is no port, or it is too large for a port. -/
def ReadsTooMuch (location : String) : Prop :=
  ∃ ip port, IsRead location ip port ∧
    ('\x00' ∈ ip.toList ∨ port = "" ∨ 65535 < Nat.ofDigitChars 10 port.toList 0)

theorem not_isIpPort_of_readsTooMuch {location ip port : String}
    (h : '\x00' ∈ ip.toList ∨ port = "" ∨ 65535 < Nat.ofDigitChars 10 port.toList 0) :
    ¬ IsIpPort location ip port := by
  rintro ⟨-, hip, hport, -, hle⟩
  rcases h with hzero | hempty | hlarge
  · exact hip.not_mem rfl (by decide) hzero
  · exact hport hempty
  · omega

/-- **`TryParseIPv4` accepts exactly the locations** among the texts that are not of the three
kinds, and only among them. -/
theorem tryParseIPv4_exact_iff (location : String) :
    (∀ ip port, tryParseIPv4 location = some (ip, port) ↔ IsIpPort location ip port) ↔
      ¬ ReadsTooMuch location := by
  constructor
  · rintro hexact ⟨ip, port, hread, hkind⟩
    have hparsed := (tryParseIPv4_eq_some_iff location ip port).2 hread
    exact not_isIpPort_of_readsTooMuch hkind ((hexact ip port).1 hparsed)
  · intro hnot ip port
    rw [tryParseIPv4_eq_some_iff]
    refine ⟨fun hread => ?_, IsIpPort.isRead⟩
    have hkind : ¬ ('\x00' ∈ ip.toList ∨ port = "" ∨ 65535 < Nat.ofDigitChars 10 port.toList 0) :=
      fun hkind => hnot ⟨ip, port, hread, hkind⟩
    rw [not_or, not_or, not_lt] at hkind
    obtain ⟨hzero, hport, hle⟩ := hkind
    obtain ⟨hlocation, -, hip, hdigits⟩ := hread
    rw [cStr_eq_self hzero] at hip
    exact ⟨hlocation, hip, hport, hdigits, hle⟩

/-- A location without a port is accepted, and so are one with a port that is too large and one with
a zero character. -/
theorem tryParseIPv4_reads_too_much :
    ¬ (∀ ip port, tryParseIPv4 "10.0.0.1:" = some (ip, port) ↔ IsIpPort "10.0.0.1:" ip port) ∧
    ¬ (∀ ip port, tryParseIPv4 "10.0.0.1:70000" = some (ip, port) ↔
      IsIpPort "10.0.0.1:70000" ip port) ∧
    ¬ (∀ ip port, tryParseIPv4 "10.0.0.1\x00:80" = some (ip, port) ↔
      IsIpPort "10.0.0.1\x00:80" ip port) := by
  refine ⟨fun h => ?_, fun h => ?_, fun h => ?_⟩
  · exact not_isIpPort_of_readsTooMuch (Or.inr (Or.inl rfl)) ((h "10.0.0.1" "").1 (by decide))
  · exact not_isIpPort_of_readsTooMuch (Or.inr (Or.inr (by decide)))
      ((h "10.0.0.1" "70000").1 (by decide))
  · exact not_isIpPort_of_readsTooMuch (Or.inl (by decide))
      ((h "10.0.0.1\x00" "80").1 (by decide))

end Scheduler
