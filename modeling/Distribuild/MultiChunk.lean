/-
**The two writers of a multi-chunk, and what the reader makes of any byte string.**

The client writes the first line of a multi-chunk with `MakeMultiChunkHeaderLine` and streams the
parts behind it; the daemon builds the whole with `MakeMultiChunk`.  The loop over the sizes was
written twice, and `MakeMultiChunk` writes two commas where `MakeMultiChunkHeaderLine` writes one.
The reader drops empty fields, so it reads both.

The reader checks the sizes that a stranger has written against what follows the first line.  It
adds them up in a `size_t`, and a sum that wraps around passes the check; then more bytes are taken
off the rest than there are.

Main definitions:

* `Common.makeMultiChunkHeaderLine` — the first line alone;
* `Common.sizeFields` — the fields of a first line that are not empty;
* `Common.ParsesExactly` — the parts are those that the first line declares, and make up the body;
* `Common.SizesWrap` — the sizes add up to the length of the body, but only modulo `2 ^ 64`.

Main results:

* `Common.roundTrip_multiChunk` — **both writers are read back** if no part is empty, and refused
  otherwise;
* `Common.parsesExactly_iff` — **what is parsed is exact if and only if the sizes do not wrap
  around**;
* `Common.makeMultiChunk_eq_iff` — **the two writers agree only about no parts**.
-/

import Distribuild.Packing
import Mathlib.Algebra.BigOperators.Ring.Finset

set_option relaxedAutoImplicit false
set_option autoImplicit false

namespace Common

open Bytes

/-! ### The two writers -/

/-- `MakeMultiChunkHeaderLine`. -/
def makeMultiChunkHeaderLine (parts : List Bytes) : Bytes :=
  if parts = [] then [] else fieldLine [44] (parts.map fun e => decimal e.length) ++ [13, 10]

theorem makeMultiChunkHeaderLine_eq {parts : List Bytes} (h : parts ≠ []) :
    makeMultiChunkHeaderLine parts ++ parts.flatten =
      fieldLine (List.replicate 1 44) (parts.map fun e => decimal e.length) ++
        13 :: 10 :: parts.flatten := by
  rw [makeMultiChunkHeaderLine, if_neg h, List.append_assoc]
  rfl

/-- **Both writers are read back** if no part is empty, and refused otherwise. -/
theorem roundTrip_multiChunk {parts : List Bytes} (hsize : parts.flatten.length < 2 ^ 63 - 1) :
    tryParseMultiChunk (makeMultiChunk parts) =
        .ok (if [] ∈ parts then none else some parts) ∧
      tryParseMultiChunk (makeMultiChunkHeaderLine parts ++ parts.flatten) =
        .ok (if [] ∈ parts then none else some parts) := by
  by_cases hne : parts = []
  · subst hne
    exact ⟨rfl, rfl⟩
  · rw [makeMultiChunk_eq hne, makeMultiChunkHeaderLine_eq hne]
    exact ⟨tryParseMultiChunk_fieldLine 1 hsize, tryParseMultiChunk_fieldLine 0 hsize⟩

/-- A part with a comma and line ends. -/
theorem roundTrip_commaPart :
    tryParseMultiChunk (makeMultiChunk [[44, 13, 10], [49]]) = .ok (some [[44, 13, 10], [49]]) ∧
      tryParseMultiChunk (makeMultiChunkHeaderLine [[44, 13, 10], [49]] ++ [44, 13, 10, 49]) =
        .ok (some [[44, 13, 10], [49]]) :=
  roundTrip_multiChunk (by decide)

theorem length_fieldLine {separators : Bytes} (hs : separators ≠ []) {fields : List Bytes}
    (hf : fields ≠ []) :
    (fieldLine separators fields).length + 1 =
      fields.flatten.length + fields.length * separators.length := by
  induction fields with
  | nil => exact absurd rfl hf
  | cons field fields ih =>
      have hpos := List.length_pos_iff.2 hs
      by_cases hrest : fields = []
      · rw [hrest, fieldLine_singleton hs, List.length_append, List.length_dropLast]
        simp only [List.flatten_singleton, List.length_singleton]
        omega
      · have hlen := ih hrest
        rw [fieldLine_cons hs field hrest, List.flatten_cons, List.length_cons, Nat.add_mul]
        simp only [List.length_append]
        omega

/-- **The two writers agree only about no parts**: of every part `MakeMultiChunk` writes a comma
more. -/
theorem makeMultiChunk_eq_iff (parts : List Bytes) :
    makeMultiChunk parts = makeMultiChunkHeaderLine parts ++ parts.flatten ↔ parts = [] := by
  constructor
  · intro h
    by_contra hne
    rw [makeMultiChunk_eq hne, makeMultiChunkHeaderLine_eq hne] at h
    have hline := congrArg List.length (List.append_cancel_right h)
    have hfields : (parts.map fun e => decimal e.length) ≠ [] := by simpa using hne
    have hrep : ∀ n, List.replicate (n + 1) (44 : UInt8) ≠ [] := fun n => by simp
    have htwo := length_fieldLine (hrep 1) hfields
    have hone := length_fieldLine (hrep 0) hfields
    have hpos := List.length_pos_iff.2 hfields
    simp only [Nat.reduceAdd, List.length_replicate] at htwo hone
    omega
  · rintro rfl
    rfl

/-- One part of one byte is enough: `1,` against `1`. -/
theorem makeMultiChunk_comma :
    ¬∀ parts, makeMultiChunk parts = makeMultiChunkHeaderLine parts ++ parts.flatten := by
  intro hall
  have hone := hall [[97]]
  revert hone
  decide

/-! ### The fields of the first line -/

/-- The fields between the commas of a line that are not empty. -/
def sizeFields (line : Bytes) : List Bytes := (line.splitOn 44).filter fun field => field ≠ []

/-- `Split` without empty pieces finds the fields that are not empty. -/
theorem splitChar_eq_sizeFields (line : Bytes) : splitChar line 44 false = sizeFields line := by
  induction hlen : line.length using Nat.strong_induction_on generalizing line with
  | h n ih =>
      by_cases hmem : (44 : UInt8) ∈ line
      · obtain ⟨a, rest, rfl, ha⟩ := List.eq_append_cons_of_mem hmem
        have hrest : rest.length < n := by
          rw [← hlen, List.length_append, List.length_cons]
          omega
        rw [splitChar_append ha, ih _ hrest rest rfl, sizeFields, sizeFields,
          List.splitOn_append_cons_self, List.splitOn_eq_singleton ha, List.filter_append]
        by_cases hnil : a = []
        · simp [hnil]
        · simp [hnil]
      · rw [sizeFields, List.splitOn_eq_singleton hmem]
        by_cases hnil : line = []
        · simp [hnil]
        · rw [splitChar_self hnil hmem]
          simp [hnil]

/-- A size that is accepted. -/
theorem parseSize_eq_some {e : Bytes} {n : ℕ} :
    parseSize e = some n ↔ (0 < strtol e ∧ strtol e < longMax) ∧ strtol e = n := by
  have hle : strtol e ≤ longMax := by
    rw [strtol]
    split
    · decide
    · rw [longMax, longMin]
      omega
  rw [parseSize]
  rw [longMax, longMin] at *
  split_ifs with h
  · refine iff_of_false (fun hsome => by cases hsome) ?_
    rintro ⟨⟨hpos, hlt⟩, -⟩
    omega
  · rw [Option.some.injEq]
    omega

/-- The sizes that are accepted. -/
theorem mapM_parseSize_eq_some {fields : List Bytes} {sizes : List ℕ} :
    fields.mapM parseSize = some sizes ↔
      (∀ field ∈ fields, 0 < strtol field ∧ strtol field < longMax) ∧
        fields.map strtol = sizes.map fun (n : ℕ) => (n : ℤ) := by
  induction fields generalizing sizes with
  | nil =>
      rw [List.mapM_nil, List.map_nil, eq_comm, eq_comm (a := ([] : List ℤ)), List.map_eq_nil_iff]
      simp
  | cons field fields ih =>
      rw [List.mapM_cons, List.forall_mem_cons, List.map_cons]
      constructor
      · intro h
        obtain ⟨n, hn, h⟩ := Option.bind_eq_some_iff.1 h
        obtain ⟨rest, hrest, h⟩ := Option.bind_eq_some_iff.1 h
        obtain rfl := Option.some.inj h
        obtain ⟨hfield, heq⟩ := parseSize_eq_some.1 hn
        obtain ⟨hfields, hmap⟩ := ih.1 hrest
        exact ⟨⟨hfield, hfields⟩, by rw [heq, hmap, List.map_cons]⟩
      · rintro ⟨⟨hfield, hfields⟩, hmap⟩
        cases sizes with
        | nil => cases hmap
        | cons n rest =>
            rw [List.map_cons, List.cons.injEq] at hmap
            have hn := parseSize_eq_some.2 ⟨hfield, hmap.1⟩
            have hrest := ih.2 ⟨hfields, hmap.2⟩
            exact Option.bind_eq_some_iff.2 ⟨n, hn, Option.bind_eq_some_iff.2 ⟨rest, hrest, rfl⟩⟩

/-- Sizes in the range are accepted. -/
theorem exists_mapM_parseSize {fields : List Bytes}
    (h : ∀ field ∈ fields, 0 < strtol field ∧ strtol field < longMax) :
    ∃ sizes, fields.mapM parseSize = some sizes := by
  refine ⟨fields.map fun field => (strtol field).toNat, mapM_parseSize_eq_some.2 ⟨h, ?_⟩⟩
  rw [List.map_map]
  refine List.map_congr_left fun field hfield => ?_
  exact (Int.toNat_of_nonneg (h field hfield).1.le).symm

/-! ### Taking the parts -/

/-- **Sizes that add up to the length of the rest cut it into parts of these sizes.** -/
theorem takeParts_eq_ok {restBytes : Bytes} {sizes : List ℕ} (h : sizes.sum = restBytes.length) :
    ∃ parts, takeParts restBytes sizes = .ok parts ∧ parts.map List.length = sizes ∧
      parts.flatten = restBytes := by
  induction sizes generalizing restBytes with
  | nil => exact ⟨[], rfl, rfl, (List.length_eq_zero_iff.1 h.symm).symm⟩
  | cons e sizes ih =>
      rw [List.sum_cons] at h
      have hrest : sizes.sum = (restBytes.drop e).length := by
        rw [List.length_drop]
        omega
      obtain ⟨parts, hparts, hlens, hflatten⟩ := ih hrest
      refine ⟨restBytes.take e :: parts, ?_, ?_, ?_⟩
      · rw [takeParts, if_neg (by omega), hparts]
        rfl
      · rw [List.map_cons, hlens, List.length_take_of_le (by omega)]
      · rw [List.flatten_cons, hflatten, List.take_append_drop]

/-- Sizes that add up to more than there is end in a removal of more than there is. -/
theorem takeParts_undefined {restBytes : Bytes} {sizes : List ℕ}
    (h : restBytes.length < sizes.sum) : takeParts restBytes sizes = .error .undefined := by
  induction sizes generalizing restBytes with
  | nil => exact absurd h (Nat.not_lt_zero _)
  | cons e sizes ih =>
      rw [List.sum_cons] at h
      rw [takeParts]
      split_ifs with he
      · rfl
      · rw [ih (by rw [List.length_drop]; omega)]
        rfl

/-! ### Exactness -/

/-- The first line of the string is `line`, ended by CR and LF, and `body` follows. -/
def HasFirstLine (view line body : Bytes) : Prop :=
  view = line ++ 13 :: 10 :: body ∧ (10 : UInt8) ∉ line

/-- A string that is neither empty nor has such a line is refused. -/
theorem tryParseMultiChunk_cases (view : Bytes) :
    view = [] ∨ (∃ line body, HasFirstLine view line body) ∨
      tryParseMultiChunk view = .ok none := by
  by_cases hview : view = []
  · exact Or.inl hview
  refine Or.inr ?_
  by_cases hmem : (10 : UInt8) ∈ view
  · obtain ⟨front, body, rfl, hfront⟩ := List.eq_append_cons_of_mem hmem
    have hfind := find_singleton_append hfront body
    rcases List.eq_nil_or_concat front with rfl | ⟨line, b, rfl⟩
    · refine Or.inr ?_
      rw [tryParseMultiChunk, if_neg hview, hfind]
      rfl
    · rw [List.concat_eq_append] at hfind hfront
      by_cases hb : b = 13
      · refine Or.inl ⟨line, body, ?_, fun h => hfront (List.mem_append_left _ h)⟩
        simp [hb]
      · refine Or.inr ?_
        have hlast : (line ++ [b] ++ 10 :: body)[line.length]? = some b := by simp
        have hne : some b ≠ some (13 : UInt8) := fun h => hb (Option.some.inj h)
        rw [List.concat_eq_append, tryParseMultiChunk, if_neg (by simp), hfind]
        simp only [List.length_append, List.length_singleton, Nat.add_sub_cancel, hlast]
        rw [if_pos (Or.inr hne)]
  · refine Or.inr ?_
    rw [tryParseMultiChunk, if_neg hview, find_singleton_eq_none hmem]

/-- **The parts are what the string says**: as many as the first line has sizes, each of the size
that is declared for it, and together the body. -/
def ParsesExactly (view : Bytes) (parts : List Bytes) : Prop :=
  (view = [] ∧ parts = []) ∨
    ∃ line body, HasFirstLine view line body ∧ parts.length = (sizeFields line).length ∧
      (parts.map fun e => (e.length : ℤ)) = (sizeFields line).map strtol ∧ parts.flatten = body

/-- **The sizes wrap around**: each of them is accepted, and they add up to the length of the body
modulo `2 ^ 64`, but to `2 ^ 64` or more. -/
def SizesWrap (view : Bytes) : Prop :=
  ∃ line body, HasFirstLine view line body ∧
    (∀ field ∈ sizeFields line, 0 < strtol field ∧ strtol field < longMax) ∧
    ((sizeFields line).map strtol).sum % sizeValues = body.length ∧
    (sizeValues : ℤ) ≤ ((sizeFields line).map strtol).sum

/-- **What is parsed is exact if and only if the sizes do not wrap around.**  If they do, more bytes
are removed than there are. -/
theorem parsesExactly_iff (view : Bytes) :
    (∃ result, tryParseMultiChunk view = .ok result ∧
        ∀ parts, result = some parts → ParsesExactly view parts) ↔
      ¬SizesWrap view := by
  constructor
  · rintro ⟨result, hresult, -⟩ ⟨line, body, ⟨rfl, hline⟩, hfields, hmod, hwrap⟩
    obtain ⟨sizes, hsizes⟩ := exists_mapM_parseSize hfields
    rw [(mapM_parseSize_eq_some.1 hsizes).2, ← Nat.cast_list_sum] at hmod hwrap
    have hcheck : sizes.sum % sizeValues = body.length := by omega
    have hmore : body.length < sizes.sum := by
      rw [← hcheck]
      exact Nat.lt_of_lt_of_le (Nat.mod_lt _ (by decide)) (by omega)
    rw [tryParseMultiChunk_line hline, splitChar_eq_sizeFields, hsizes] at hresult
    simp only [hcheck, ne_eq, not_true_eq_false, if_false, takeParts_undefined hmore] at hresult
    cases hresult
  · intro hwrap
    rcases tryParseMultiChunk_cases view with rfl | ⟨line, body, hview⟩ | hnone
    · exact ⟨some [], rfl, fun parts hparts => Or.inl ⟨rfl, (Option.some.inj hparts).symm⟩⟩
    · rw [hview.1, tryParseMultiChunk_line hview.2, splitChar_eq_sizeFields, ← hview.1]
      cases hsizes : (sizeFields line).mapM parseSize with
      | none => exact ⟨none, rfl, fun parts hparts => by cases hparts⟩
      | some sizes =>
          dsimp only
          split_ifs with hcheck
          · exact ⟨none, rfl, fun parts hparts => by cases hparts⟩
          · obtain ⟨hfields, hmap⟩ := mapM_parseSize_eq_some.1 hsizes
            have hcast : ((sizeFields line).map strtol).sum = (sizes.sum : ℤ) := by
              rw [hmap, Nat.cast_list_sum]
            have hsum : sizes.sum = body.length := by
              rw [← not_not.1 hcheck, Nat.mod_eq_of_lt]
              by_contra hmore
              refine hwrap ⟨line, body, hview, hfields, ?_, ?_⟩
              · rw [hcast]
                omega
              · rw [hcast]
                omega
            obtain ⟨parts, hparts, hlens, hflatten⟩ := takeParts_eq_ok hsum
            refine ⟨some parts, by rw [hparts]; rfl, fun parts' hsome => ?_⟩
            obtain rfl := Option.some.inj hsome
            refine Or.inr ⟨line, body, hview, ?_, ?_, hflatten⟩
            · have hcount := congrArg List.length hmap
              rw [List.length_map, List.length_map, ← hlens, List.length_map] at hcount
              exact hcount.symm
            · rw [hmap, ← hlens, List.map_map]
              rfl
    · exact ⟨none, hnone, fun parts hparts => by cases hparts⟩

/-- **A string that is not parsed exactly**: three sizes that add up to `2 ^ 64 + 1`, and one byte.
-/
theorem parsesExactly_wraps :
    ¬∀ view, ∃ result, tryParseMultiChunk view = .ok result ∧
      ∀ parts, result = some parts → ParsesExactly view parts := by
  intro hall
  obtain ⟨result, hresult, -⟩ :=
    hall (ofString "9223372036854775806,9223372036854775806,5\r\nx")
  have hundefined : tryParseMultiChunk
      (ofString "9223372036854775806,9223372036854775806,5\r\nx") = .error .undefined := by
    decide +kernel
  rw [hundefined] at hresult
  cases hresult

end Common
