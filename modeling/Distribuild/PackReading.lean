/-
**What the reader of a pack makes of any byte string.**

`TryUnpackFiles` gets its input from another machine.  It checks that there are as many sizes as
suffixes, and that the total of the first line is what follows the header; but it does not compare
the sizes with the total, and it reads numbers with functions that raise.  So a pack that was
written by `PackFiles` is read back, while of other strings the reader may drop a part, return
contents that are shorter than declared, or not return at all.  This module says for every string
which of these happens.

Main definitions:

* `Common.PackLines`, `Common.packLines` — the three lines of a string, and its body;
* `Common.Slices` — the contents that the loop cuts out of the string;
* `Common.ReadsExactly` — the files are what the third line declares, and make up the body;
* `Common.Readable` — which strings are read without an exception.

Main results:

* `Common.unpackLoop_eq_ok` — what the loop returns, and when it does;
* `Common.roundTrip_packFiles` — **every pack is read back**;
* `Common.readsExactly_iff` — **what is returned is exact if and only if the sizes add up** to the
  length of the body;
* `Common.tryUnpackFiles_returns_iff` — **nothing is raised if and only if** the string is
  `Readable`.
-/

import Distribuild.Packing

set_option relaxedAutoImplicit false
set_option autoImplicit false

namespace Common

open Bytes

/-! ### The lines of a string -/

/-- The three lines that the reader takes from a string, and what is left of it then. -/
structure PackLines where
  lengthLine : Bytes
  suffixsLine : Bytes
  sizesLine : Bytes
  body : Bytes

def packLines (packedFile : Bytes) : PackLines where
  lengthLine := (getline packedFile).1
  suffixsLine := (getline (getline packedFile).2).1
  sizesLine := (getline (getline (getline packedFile).2).2).1
  body := (getline (getline (getline packedFile).2).2).2

namespace PackLines

variable (lines : PackLines)

def suffixs : List Bytes := splitChar lines.suffixsLine 44 false

def sizes : List Bytes := splitChar lines.sizesLine 44 false

/-- The length of the three lines, if each of them is ended. -/
def headSize : ℕ :=
  (lines.lengthLine.length + 1) + (lines.suffixsLine.length + 1) + (lines.sizesLine.length + 1)

end PackLines

/-- The two checks of `TryUnpackFiles`: there are as many sizes as suffixes, and what follows the
header has the length that the first line says, both taken modulo `2 ^ 64`. -/
def ChecksPass (packedFile : Bytes) : Prop :=
  (packLines packedFile).suffixs.length = (packLines packedFile).sizes.length ∧
    ∃ n, stol (packLines packedFile).lengthLine = .ok n ∧
      (packedFile.length + sizeValues - (packLines packedFile).headSize) % sizeValues =
        (n % sizeValues).toNat

/-- What a string consists of: the three lines and the body, or else lines of which the last is not
ended, and no body. -/
theorem packLines_cases (packedFile : Bytes) :
    (∃ head, packedFile = head ++ (packLines packedFile).body ∧
        head.length = (packLines packedFile).headSize) ∨
      (packLines packedFile).body = [] ∧ packedFile.length < (packLines packedFile).headSize := by
  simp only [packLines, PackLines.headSize]
  rcases getline_cases packedFile with h₁ | h₁
  · rcases getline_cases (getline packedFile).2 with h₂ | h₂
    · rcases getline_cases (getline (getline packedFile).2).2 with h₃ | h₃
      · refine Or.inl ⟨(getline packedFile).1 ++ 10 :: ((getline (getline packedFile).2).1 ++ 10 ::
          ((getline (getline (getline packedFile).2).2).1 ++ [10])), ?_, ?_⟩
        · conv_lhs => rw [h₁, h₂, h₃]
          simp
        · simp only [List.length_append, List.length_cons, List.length_nil]
          omega
      · refine Or.inr ⟨congrArg Prod.snd h₃, ?_⟩
        have hlen₁ := congrArg List.length h₁
        have hlen₂ := congrArg List.length h₂
        rw [List.length_append, List.length_cons] at hlen₁ hlen₂
        rw [h₃]
        dsimp only
        omega
    · have hempty : getline [] = (([], []) : Bytes × Bytes) := rfl
      refine Or.inr ⟨by rw [h₂, hempty], ?_⟩
      have hlen₁ := congrArg List.length h₁
      rw [List.length_append, List.length_cons] at hlen₁
      rw [h₂]
      dsimp only
      omega
  · have hempty : getline [] = (([], []) : Bytes × Bytes) := rfl
    refine Or.inr ⟨by rw [h₁, hempty, hempty], ?_⟩
    rw [h₁]
    dsimp only
    omega

/-! ### The loop over the sizes -/

/-- The position behind a content, as a `size_t`. -/
def advance (pos len : ℕ) : ℕ := (pos + len) % sizeValues

/-- The contents that lie one after the other from a position on; none may start behind the end of
the string. -/
inductive Slices (packedFile : Bytes) : ℕ → List ℕ → List Bytes → Prop
  | nil (pos : ℕ) : Slices packedFile pos [] []
  | cons {pos len : ℕ} {lens : List ℕ} {contents : List Bytes} : pos ≤ packedFile.length →
      Slices packedFile (advance pos len) lens contents →
        Slices packedFile pos (len :: lens) ((packedFile.drop pos).take len :: contents)

/-- All sizes are read if each of them is. -/
theorem mapM_stoul_cons {e : Bytes} {sizes : List Bytes} {lens : List ℕ} :
    (e :: sizes).mapM stoul = .ok lens ↔
      ∃ len rest, stoul e = .ok len ∧ sizes.mapM stoul = .ok rest ∧ lens = len :: rest := by
  rw [List.mapM_cons, Fault.bind_eq_ok]
  constructor
  · rintro ⟨len, hlen, h⟩
    obtain ⟨rest, hrest, heq⟩ := Fault.bind_eq_ok.1 h
    exact ⟨len, rest, hlen, hrest, (Except.ok.inj heq).symm⟩
  · rintro ⟨len, rest, hlen, hrest, rfl⟩
    exact ⟨len, hlen, Fault.bind_eq_ok.2 ⟨rest, hrest, rfl⟩⟩

theorem mapM_stoul_returns_iff (sizes : List Bytes) :
    (∃ lens, sizes.mapM stoul = .ok lens) ↔ ∀ e ∈ sizes, IsUnsignedLong e := by
  induction sizes with
  | nil => exact iff_of_true ⟨[], rfl⟩ fun e he => by cases he
  | cons e sizes ih =>
      rw [List.forall_mem_cons, ← ih, ← stoul_returns_iff]
      constructor
      · rintro ⟨lens, h⟩
        obtain ⟨len, rest, hlen, hrest, -⟩ := mapM_stoul_cons.1 h
        exact ⟨⟨len, hlen⟩, rest, hrest⟩
      · rintro ⟨⟨len, hlen⟩, rest, hrest⟩
        exact ⟨len :: rest, mapM_stoul_cons.2 ⟨len, rest, hlen, hrest, rfl⟩⟩

theorem mapM_stoul_length {sizes : List Bytes} {lens : List ℕ} (h : sizes.mapM stoul = .ok lens) :
    sizes.length = lens.length := by
  induction sizes generalizing lens with
  | nil =>
      cases Except.ok.inj h
      rfl
  | cons e sizes ih =>
      obtain ⟨len, rest, -, hrest, rfl⟩ := mapM_stoul_cons.1 h
      rw [List.length_cons, List.length_cons, ih hrest]

/-- **What the loop returns, and when it does**: all sizes are read, and the contents are the slices
that they cut out. -/
theorem unpackLoop_eq_ok {packedFile : Bytes} {pos : ℕ} {pairs files : List (Bytes × Bytes)} :
    unpackLoop packedFile pos pairs = .ok files ↔
      files.map Prod.fst = pairs.map Prod.fst ∧
        ∃ lens, (pairs.map Prod.snd).mapM stoul = .ok lens ∧
          Slices packedFile pos lens (files.map Prod.snd) := by
  induction pairs generalizing pos files with
  | nil =>
      rw [unpackLoop, Except.ok.injEq, List.map_nil, List.map_eq_nil_iff]
      constructor
      · rintro rfl
        exact ⟨rfl, [], rfl, .nil pos⟩
      · rintro ⟨rfl, -⟩
        rfl
  | cons pair pairs ih =>
      obtain ⟨suffix, size⟩ := pair
      rw [unpackLoop, Fault.bind_eq_ok]
      constructor
      · rintro ⟨len, hlen, h⟩
        obtain ⟨content, hcontent, h⟩ := Fault.bind_eq_ok.1 h
        obtain ⟨rest, hrest, h⟩ := Fault.bind_eq_ok.1 h
        obtain ⟨hfst, lens, hlens, hslices⟩ := ih.1 hrest
        obtain ⟨hle, rfl⟩ := substr_eq_ok.1 hcontent
        obtain rfl := Except.ok.inj h
        refine ⟨by rw [List.map_cons, hfst, List.map_cons], len :: lens, ?_, .cons hle hslices⟩
        exact mapM_stoul_cons.2 ⟨len, lens, hlen, hlens, rfl⟩
      · rintro ⟨hfst, lens, hlens, hslices⟩
        obtain ⟨len, rest, hlen, hrest, rfl⟩ := mapM_stoul_cons.1 hlens
        obtain ⟨file, files, rfl⟩ : ∃ file files', files = file :: files' := by
          cases files with
          | nil => cases hfst
          | cons file files => exact ⟨file, files, rfl⟩
        rw [List.map_cons, List.map_cons, List.cons.injEq] at hfst
        obtain ⟨name, content⟩ := file
        obtain ⟨rfl, hfst⟩ := hfst
        cases hslices with
        | cons hle hslices =>
            refine ⟨len, hlen, Fault.bind_eq_ok.2 ⟨_, substr_eq_ok.2 ⟨hle, rfl⟩, ?_⟩⟩
            exact Fault.bind_eq_ok.2 ⟨files, ih.2 ⟨hfst, rest, hrest, hslices⟩, rfl⟩

/-- There are slices if none of them starts behind the end. -/
theorem exists_slices_iff {packedFile : Bytes} {pos : ℕ} {lens : List ℕ} :
    (∃ contents, Slices packedFile pos lens contents) ↔
      ∀ before len after, lens = before ++ len :: after →
        before.foldl advance pos ≤ packedFile.length := by
  induction lens generalizing pos with
  | nil =>
      refine iff_of_true ⟨[], .nil pos⟩ fun before len after h => ?_
      cases before with
      | nil => cases h
      | cons _ _ => cases h
  | cons len lens ih =>
      constructor
      · rintro ⟨contents, hslices⟩ before len' after h
        cases hslices with
        | cons hle hslices =>
            cases before with
            | nil => exact hle
            | cons first before =>
                obtain ⟨rfl, rfl⟩ := List.cons.inj h
                exact ih.1 ⟨_, hslices⟩ before len' after rfl
      · intro h
        obtain ⟨contents, hslices⟩ := ih.2 fun before len' after heq =>
          h (len :: before) len' after (by rw [heq, List.cons_append])
        exact ⟨_, .cons (h [] len lens rfl) hslices⟩

/-- There are as many slices as lengths. -/
theorem Slices.length_eq {packedFile : Bytes} {pos : ℕ} {lens : List ℕ} {contents : List Bytes}
    (h : Slices packedFile pos lens contents) : contents.length = lens.length := by
  induction h with
  | nil pos => rfl
  | cons _ _ ih => rw [List.length_cons, List.length_cons, ih]

/-- **Slices whose lengths add up to what is left of the string are exact**: no byte is dropped and
none is read twice. -/
theorem Slices.exact {packedFile : Bytes} {pos : ℕ} {lens : List ℕ} {contents : List Bytes}
    (h : Slices packedFile pos lens contents) {head body : Bytes}
    (hpack : packedFile = head ++ body) (hpos : pos = head.length)
    (hsize : packedFile.length < sizeValues) (hsum : lens.sum = body.length) :
    contents.map List.length = lens ∧ contents.flatten = body := by
  induction h generalizing head body with
  | nil pos =>
      rw [List.sum_nil] at hsum
      exact ⟨rfl, (List.length_eq_zero_iff.1 hsum.symm).symm⟩
  | @cons pos len lens contents hle hslices ih =>
      rw [List.sum_cons] at hsum
      have hsplit : packedFile = (head ++ body.take len) ++ body.drop len := by
        rw [hpack, List.append_assoc, List.take_append_drop]
      have htake : (body.take len).length = len := List.length_take_of_le (by omega)
      have hadvance : advance pos len = (head ++ body.take len).length := by
        rw [advance, List.length_append, htake, hpos, Nat.mod_eq_of_lt]
        rw [hpack, List.length_append] at hsize
        omega
      obtain ⟨hlens, hflatten⟩ := ih hsplit hadvance (by rw [List.length_drop]; omega)
      have hslice : (packedFile.drop pos).take len = body.take len := by
        rw [hpack, hpos, List.drop_left]
      rw [hslice, List.map_cons, List.flatten_cons, htake, hlens, hflatten, List.take_append_drop]
      exact ⟨rfl, rfl⟩

/-! ### What is returned -/

/-- The suffixes with the sizes, as the loop gets them. -/
def PackLines.pairs (lines : PackLines) : List (Bytes × Bytes) := lines.suffixs.zip lines.sizes

/-- A string that does not pass the checks is not unpacked. -/
theorem tryUnpackFiles_of_not_checksPass {packedFile : Bytes} {n : ℤ}
    (hstol : stol (packLines packedFile).lengthLine = .ok n) (h : ¬ChecksPass packedFile) :
    tryUnpackFiles packedFile = .ok none := by
  refine Fault.bind_eq_ok.2 ⟨n, hstol, ?_⟩
  dsimp only
  split_ifs with hcount htotal
  · rfl
  · rfl
  · exact absurd ⟨not_not.1 hcount, n, hstol, not_not.1 htotal⟩ h

/-- A string that passes the checks is what the loop makes of it. -/
theorem tryUnpackFiles_of_checksPass {packedFile : Bytes} (h : ChecksPass packedFile) :
    tryUnpackFiles packedFile =
      (do
        let files ←
          unpackLoop packedFile (packLines packedFile).headSize (packLines packedFile).pairs
        return some files) := by
  obtain ⟨hcount, n, hstol, htotal⟩ := h
  have hlines : tryUnpackFiles packedFile = (do
      let length ← stol (packLines packedFile).lengthLine
      if (packLines packedFile).suffixs.length ≠ (packLines packedFile).sizes.length then
        return none
      if (packedFile.length + sizeValues - (packLines packedFile).headSize) % sizeValues ≠
        (length % sizeValues).toNat then return none
      let files ← unpackLoop packedFile (packLines packedFile).headSize (packLines packedFile).pairs
      return some files) := rfl
  rw [hlines, hstol]
  simp only [bind, Except.bind, hcount, htotal, ne_eq, not_true_eq_false, if_false]

/-- When files are returned, and which. -/
theorem tryUnpackFiles_eq_some {packedFile : Bytes} {files : List (Bytes × Bytes)} :
    tryUnpackFiles packedFile = .ok (some files) ↔
      ChecksPass packedFile ∧
        unpackLoop packedFile (packLines packedFile).headSize (packLines packedFile).pairs =
          .ok files := by
  constructor
  · intro h
    obtain ⟨n, hstol, -⟩ := Fault.bind_eq_ok.1 h
    have hchecks : ChecksPass packedFile := by
      by_contra hchecks
      rw [tryUnpackFiles_of_not_checksPass hstol hchecks] at h
      cases h
    rw [tryUnpackFiles_of_checksPass hchecks] at h
    obtain ⟨files', hloop, heq⟩ := Fault.bind_eq_ok.1 h
    obtain rfl := Option.some.inj (Except.ok.inj heq)
    exact ⟨hchecks, hloop⟩
  · rintro ⟨hchecks, hloop⟩
    rw [tryUnpackFiles_of_checksPass hchecks, hloop]
    rfl

/-- The loop sees every size. -/
theorem ChecksPass.pairs_snd {packedFile : Bytes} (h : ChecksPass packedFile) :
    (packLines packedFile).pairs.map Prod.snd = (packLines packedFile).sizes :=
  List.map_snd_zip (by rw [h.1])

/-! ### Reading back -/

/-- **Every pack is read back**, whatever the contents are. -/
theorem roundTrip_packFiles {files : List (Bytes × Bytes)} (hne : files ≠ [])
    (hsuffix : ∀ file ∈ files, file.1 ≠ [] ∧ (44 : UInt8) ∉ file.1 ∧ (10 : UInt8) ∉ file.1)
    (hsize : (files.map fun file => file.2.length).sum < 2 ^ 63)
    (hstring : (packFiles files).length < sizeValues) :
    tryUnpackFiles (packFiles files) = .ok (some files) :=
  tryUnpackFiles_packFiles_of_contents ⟨hne, hsuffix⟩ hsize hstring

/-- Two files, of which one is empty and the other holds a comma and a line end. -/
theorem roundTrip_twoFiles :
    tryUnpackFiles (packFiles [(ofString ".o", [44, 10]), (ofString ".gcno", [])]) =
      .ok (some [(ofString ".o", [44, 10]), (ofString ".gcno", [])]) :=
  roundTrip_packFiles (by decide) (by decide) (by decide) (by decide)

/-! ### Exactness -/

/-- **The files are what the string says**: there are as many as the third line has sizes, each
content has the size that is declared for it, and all contents together are the body. -/
structure ReadsExactly (packedFile : Bytes) (files : List (Bytes × Bytes)) : Prop where
  count : files.length = (packLines packedFile).sizes.length
  sizes : (packLines packedFile).sizes.mapM stoul = .ok (files.map fun file => file.2.length)
  body : (files.flatMap fun file => file.2) = (packLines packedFile).body

/-- The declared sizes add up to the length of the body. -/
def SizesAddUp (packedFile : Bytes) : Prop :=
  ∃ lens, (packLines packedFile).sizes.mapM stoul = .ok lens ∧
    lens.sum = (packLines packedFile).body.length

/-- **What is returned is exact if and only if the sizes add up.** -/
theorem readsExactly_iff {packedFile : Bytes} (hsize : packedFile.length < sizeValues)
    {files : List (Bytes × Bytes)} (h : tryUnpackFiles packedFile = .ok (some files)) :
    ReadsExactly packedFile files ↔ SizesAddUp packedFile := by
  obtain ⟨hchecks, hloop⟩ := tryUnpackFiles_eq_some.1 h
  obtain ⟨hfst, lens, hlens, hslices⟩ := unpackLoop_eq_ok.1 hloop
  rw [hchecks.pairs_snd] at hlens
  constructor
  · intro hexact
    refine ⟨_, hexact.sizes, ?_⟩
    rw [← hexact.body, List.length_flatMap]
  · rintro ⟨lens', hlens', hsum⟩
    obtain rfl : lens = lens' := Except.ok.inj (hlens.symm.trans hlens')
    have hcount : files.length = (packLines packedFile).sizes.length := by
      rw [← hchecks.pairs_snd, List.length_map, ← List.length_map, hfst, List.length_map]
    have hcontents : (files.map Prod.snd).map List.length = lens ∧
        (files.map Prod.snd).flatten = (packLines packedFile).body := by
      rcases packLines_cases packedFile with ⟨head, hpack, hhead⟩ | ⟨hbody, hshort⟩
      · exact hslices.exact hpack hhead.symm hsize hsum
      · -- without a body the first content would start behind the end
        generalize files.map Prod.snd = contents at hslices ⊢
        cases hslices with
        | nil pos => exact ⟨rfl, hbody.symm⟩
        | cons hle _ => omega
    refine ⟨hcount, ?_, ?_⟩
    · rw [hlens, ← hcontents.1, List.map_map]
      rfl
    · rw [← hcontents.2, List.flatMap_def]

/-- Two contents that make up the body. -/
theorem readsExactly_twoContents :
    ReadsExactly (ofString "3\n.o,.d\n1,2\nabc")
      [(ofString ".o", [97]), (ofString ".d", [98, 99])] :=
  (readsExactly_iff (by decide) (by decide)).2 ⟨[1, 2], by decide, by decide⟩

/-- **A string that is not read exactly**: two of the three bytes of the body are dropped. -/
theorem readsExactly_drops : ¬∀ (packedFile : Bytes) (files : List (Bytes × Bytes)),
    tryUnpackFiles packedFile = .ok (some files) → ReadsExactly packedFile files := by
  intro hall
  have hread : tryUnpackFiles (ofString "3\n.o\n1\nabc") = .ok (some [(ofString ".o", [97])]) := by
    decide
  have hbody := (hall _ _ hread).body
  revert hbody
  decide

/-! ### Exceptions -/

/-- **The string is read without an exception**: the first line starts with a number that a `long`
can hold; and if the checks pass, every size starts with a number that an `unsigned long` can hold,
and no content starts behind the end of the string. -/
structure Readable (packedFile : Bytes) : Prop where
  length : IsLong (packLines packedFile).lengthLine
  sizes : ChecksPass packedFile → ∀ e ∈ (packLines packedFile).sizes, IsUnsignedLong e
  starts : ChecksPass packedFile → ∀ lens, (packLines packedFile).sizes.mapM stoul = .ok lens →
    ∀ before len after, lens = before ++ len :: after →
      before.foldl advance (packLines packedFile).headSize ≤ packedFile.length

/-- When the loop returns. -/
theorem unpackLoop_returns_iff {packedFile : Bytes} (h : ChecksPass packedFile) :
    (∃ files, unpackLoop packedFile (packLines packedFile).headSize (packLines packedFile).pairs =
        .ok files) ↔
      ∃ lens, (packLines packedFile).sizes.mapM stoul = .ok lens ∧
        ∃ contents, Slices packedFile (packLines packedFile).headSize lens contents := by
  have hpairs := h.pairs_snd
  constructor
  · rintro ⟨files, hfiles⟩
    obtain ⟨-, lens, hlens, hslices⟩ := unpackLoop_eq_ok.1 hfiles
    exact ⟨lens, hpairs ▸ hlens, _, hslices⟩
  · rintro ⟨lens, hlens, contents, hslices⟩
    have hsame : contents.length = (packLines packedFile).suffixs.length := by
      rw [hslices.length_eq, h.1]
      exact (mapM_stoul_length hlens).symm
    refine ⟨(packLines packedFile).suffixs.zip contents, unpackLoop_eq_ok.2 ⟨?_, lens, ?_, ?_⟩⟩
    · rw [PackLines.pairs, List.map_fst_zip (by omega), List.map_fst_zip (by rw [h.1])]
    · rwa [hpairs]
    · rwa [List.map_snd_zip (by omega)]

/-- **Nothing is raised if and only if the string is readable.** -/
theorem tryUnpackFiles_returns_iff (packedFile : Bytes) :
    (∃ result, tryUnpackFiles packedFile = .ok result) ↔ Readable packedFile := by
  constructor
  · rintro ⟨result, h⟩
    obtain ⟨n, hstol, -⟩ := Fault.bind_eq_ok.1 h
    have hloop : ChecksPass packedFile →
        ∃ lens, (packLines packedFile).sizes.mapM stoul = .ok lens ∧
          ∃ contents, Slices packedFile (packLines packedFile).headSize lens contents := by
      intro hchecks
      rw [tryUnpackFiles_of_checksPass hchecks] at h
      obtain ⟨files, hfiles, -⟩ := Fault.bind_eq_ok.1 h
      exact (unpackLoop_returns_iff hchecks).1 ⟨files, hfiles⟩
    refine ⟨(stol_returns_iff _).1 ⟨n, hstol⟩, fun hchecks => ?_, fun hchecks lens hlens => ?_⟩
    · obtain ⟨lens, hlens, -⟩ := hloop hchecks
      exact (mapM_stoul_returns_iff _).1 ⟨lens, hlens⟩
    · obtain ⟨lens', hlens', hslices⟩ := hloop hchecks
      obtain rfl : lens = lens' := Except.ok.inj (hlens.symm.trans hlens')
      exact exists_slices_iff.1 hslices
  · intro h
    obtain ⟨n, hstol⟩ := (stol_returns_iff _).2 h.length
    by_cases hchecks : ChecksPass packedFile
    · obtain ⟨lens, hlens⟩ := (mapM_stoul_returns_iff _).2 (h.sizes hchecks)
      have hslices := exists_slices_iff.2 (h.starts hchecks lens hlens)
      obtain ⟨files, hfiles⟩ := (unpackLoop_returns_iff hchecks).2 ⟨lens, hlens, hslices⟩
      exact ⟨some files, tryUnpackFiles_eq_some.2 ⟨hchecks, hfiles⟩⟩
    · exact ⟨none, tryUnpackFiles_of_not_checksPass hstol hchecks⟩

/-- **A pack without files is not read at all**: `std::stol` raises at the empty line. -/
theorem tryUnpackFiles_packFiles_nil :
    ¬∀ packedFile, ∃ result, tryUnpackFiles packedFile = .ok result := by
  intro hall
  obtain ⟨result, hresult⟩ := hall (packFiles [])
  have hraises : tryUnpackFiles (packFiles []) = .error .invalidArgument := by decide
  rw [hraises] at hresult
  cases hresult

end Common
