/-
**Where a path stands in an output file.**

A servant compiles in a temporary directory, and the compiler writes the path of that directory into
the files it leaves behind.  With the files the servant therefore sends where the path stands, so
that whoever receives them can put another path in its place.  This module embeds
`FindPathLocations`, which looks for these places: it searches for the path, searches for the `0`
that ends the string the path begins, and goes on from that `0`.

What is looked for is said here without a search.  A *run* is a piece of the file without a `0` that
cannot be made longer to the left and is followed by a `0`; a run is marked at its leftmost
occurrence of the path, unless a `0` is too far away for the string to be a path.

Main definitions:

* `Cloud.findPathLocations` — `FindPathLocations`;
* `Cloud.IsRun`, `Cloud.IsLeftmost` — the runs of a file, and the leftmost occurrence in a run;
* `Cloud.Marked.Qualifies`, `Cloud.Marked.Describes` — a run that has to be marked, and its
  location.

Main results:

* `Cloud.locationRound_found` — what a round of the search does to the runs marked so far;
* `Cloud.findPathLocations_exact` — **the locations are exact**: one for every run that has to be
  marked, in the order of the file.
-/

import Mathlib.Data.List.Forall2
import Distribuild.Loop

set_option relaxedAutoImplicit false
set_option autoImplicit false

namespace Cloud

open Bytes

/-! ### The search -/

/-- `PATH_MAX`. -/
def pathMax : ℕ := 4096

/-- `Location`. -/
structure Location where
  position : UInt32
  length : UInt32
  suffix : UInt32
  deriving Repr, DecidableEq

/-- `std::search` from `start` to the end of the file; the end of the file if there is nothing. -/
def search (pattern file : Bytes) (start : ℕ) : ℕ :=
  ((find pattern (file.drop start)).map (start + ·)).getD file.length

/-- One round of `FindPathLocations`, with `start` and the locations added so far. -/
def locationRound (file pathPrefix : Bytes) (s : ℕ × List Location) :
    (ℕ × List Location) ⊕ List Location :=
  let pos := search pathPrefix file s.1
  if pos = file.length then .inr s.2
  else
    let last := search [0] file pos
    if last = file.length ∨ last - pos > pathMax then .inl (last, s.2)
    else
      .inl (last, s.2 ++ [{
        position := .ofNat pos
        length := .ofNat (last - pos)
        suffix := .ofInt ((last : ℤ) - pos - pathPrefix.length) }])

/-- `FindPathLocations`. -/
def findPathLocations (file pathPrefix : Bytes) (fuel : ℕ) : Option (List Location) :=
  Loop.run (locationRound file pathPrefix) fuel (0, [])

/-- What a search finds: the first occurrence from `start` on, or none. -/
theorem search_cases {pattern : Bytes} (hp : pattern ≠ []) (file : Bytes) (start : ℕ) :
    (search pattern file start = file.length ∧ ∀ q, start ≤ q → ¬ pattern <+: file.drop q) ∨
      ∃ pos, search pattern file start = pos ∧ start ≤ pos ∧ pos < file.length ∧
        pattern <+: file.drop pos ∧ ∀ q, start ≤ q → q < pos → ¬ pattern <+: file.drop q := by
  have hdrop : ∀ {q}, start ≤ q → file.drop q = (file.drop start).drop (q - start) := by
    intro q hq
    rw [List.drop_drop, Nat.add_sub_cancel' hq]
  cases hfind : find pattern (file.drop start) with
  | none =>
      refine Or.inl ⟨by simp [search, hfind], fun q hq hocc => ?_⟩
      have hsome : (find pattern (file.drop start)).isSome = true := by
        rw [find_isSome_iff]
        rw [hdrop hq] at hocc
        exact hocc.isInfix.trans (List.drop_suffix _ _).isInfix
      rw [hfind] at hsome
      exact Bool.false_ne_true hsome
  | some p =>
      obtain ⟨hle, hocc, hleft⟩ := find_eq_some_iff.1 hfind
      rw [List.drop_drop] at hocc
      refine Or.inr ⟨start + p, by simp [search, hfind], Nat.le_add_right _ _, ?_, hocc, ?_⟩
      · have hpos := List.length_pos_iff.2 hp
        have hlen := hocc.length_le
        rw [List.length_drop] at hlen
        omega
      · intro q hq hlt hbefore
        rw [hdrop hq] at hbefore
        exact hleft (q - start) (by omega) hbefore

theorem singleton_isPrefix_drop_iff {c : UInt8} {file : Bytes} {q : ℕ} :
    [c] <+: file.drop q ↔ file[q]? = some c := by
  rw [List.singleton_prefix_iff_head?_eq_some, List.head?_drop]

/-- The search for the `0`: it is the first one, or there is none. -/
theorem search_zero_cases (file : Bytes) (pos : ℕ) :
    (search [0] file pos = file.length ∧ ∀ q, pos ≤ q → file[q]? ≠ some 0) ∨
      ∃ last, search [0] file pos = last ∧ pos ≤ last ∧ last < file.length ∧
        file[last]? = some 0 ∧ ∀ q, pos ≤ q → q < last → file[q]? ≠ some 0 := by
  simpa only [singleton_isPrefix_drop_iff] using search_cases (List.cons_ne_nil 0 []) file pos

/-! ### Runs -/

/-- A run: the bytes from `first` to before `last` are not `0`, a `0` follows them, and the run
cannot be made longer to the left. -/
structure IsRun (file : Bytes) (first last : ℕ) : Prop where
  le : first ≤ last
  terminated : file[last]? = some 0
  free : ∀ i, first ≤ i → i < last → file[i]? ≠ some 0
  maximal : first = 0 ∨ file[first - 1]? = some 0

/-- The leftmost occurrence of a path in the bytes from `first` to before `last`. -/
structure IsLeftmost (file pathPrefix : Bytes) (first last pos : ℕ) : Prop where
  inside : first ≤ pos ∧ pos + pathPrefix.length ≤ last
  occurs : pathPrefix <+: file.drop pos
  leftmost : ∀ q, first ≤ q → q + pathPrefix.length ≤ last → pathPrefix <+: file.drop q → pos ≤ q

/-- A run, and a place in it. -/
structure Marked where
  first : ℕ
  last : ℕ
  pos : ℕ

/-- A run that has to be marked, and where. -/
structure Marked.Qualifies (file pathPrefix : Bytes) (r : Marked) : Prop where
  run : IsRun file r.first r.last
  leftmost : IsLeftmost file pathPrefix r.first r.last r.pos
  near : r.last - r.pos ≤ pathMax

/-- The location of a marked run: its place, the distance to the `0`, and how much of that is
behind the path. -/
def Marked.Describes (pathPrefix : Bytes) (r : Marked) (l : Location) : Prop :=
  l.position.toNat = r.pos ∧ r.pos + l.length.toNat = r.last ∧
    pathPrefix.length + l.suffix.toNat = l.length.toNat

/-- The run that ends before a given place can be extended to the left. -/
theorem exists_first (file : Bytes) (p : ℕ) :
    ∃ first ≤ p, (first = 0 ∨ file[first - 1]? = some 0) ∧
      ∀ i, first ≤ i → i < p → file[i]? ≠ some 0 := by
  induction p with
  | zero => exact ⟨0, Nat.le_refl 0, Or.inl rfl, fun i _ hi => absurd hi (Nat.not_lt_zero i)⟩
  | succ p ih =>
      by_cases hp : file[p]? = some 0
      · exact ⟨p + 1, Nat.le_refl _, Or.inr hp, fun i hi hlt => absurd hlt (by omega)⟩
      · obtain ⟨first, hle, hmax, hfree⟩ := ih
        refine ⟨first, by omega, hmax, fun i hi hlt => ?_⟩
        rcases Nat.lt_succ_iff_lt_or_eq.1 hlt with hlt | rfl
        · exact hfree i hi hlt
        · exact hp

/-- An occurrence of a path without `0` has no `0` in it. -/
theorem ne_zero_of_occurs {file pathPrefix : Bytes} (hnul : (0 : UInt8) ∉ pathPrefix) {p : ℕ}
    (hocc : pathPrefix <+: file.drop p) {i : ℕ} (hle : p ≤ i) (hlt : i < p + pathPrefix.length) :
    file[i]? ≠ some 0 := by
  obtain ⟨rest, hrest⟩ := hocc
  have hget : file[i]? = pathPrefix[i - p]? := by
    calc file[i]? = (file.drop p)[i - p]? := by rw [List.getElem?_drop, Nat.add_sub_cancel' hle]
      _ = pathPrefix[i - p]? := by rw [← hrest, List.getElem?_append_left (by omega)]
  intro hzero
  rw [hget] at hzero
  exact hnul (List.mem_of_getElem? hzero)

namespace IsRun

variable {file : Bytes} {first last : ℕ}

/-- Between a place of a run and a later `0` lies the end of the run. -/
theorem last_le (h : IsRun file first last) {i : ℕ} (hi : first ≤ i) (hzero : file[i]? = some 0) :
    last ≤ i := by
  by_contra hlt
  exact h.free i hi (by omega) hzero

/-- A run that holds a place begins behind every earlier `0`. -/
theorem lt_first (h : IsRun file first last) {i p : ℕ} (hzero : file[i]? = some 0) (hip : i < p)
    (hp : p < last) : i < first := by
  by_contra hge
  exact h.free i (by omega) (by omega) hzero

/-- A run that holds the end of a piece without `0` holds the piece. -/
theorem first_le (h : IsRun file first last) {p q : ℕ}
    (hpiece : ∀ i, p ≤ i → i < q → file[i]? ≠ some 0)
    (hq : first ≤ q) : first ≤ p := by
  by_contra hlt
  rcases h.maximal with hzero | hzero
  · omega
  · exact hpiece (first - 1) (by omega) (by omega) hzero

theorem first_unique (h : IsRun file first last) {first' : ℕ} (h' : IsRun file first' last) :
    first = first' :=
  Nat.le_antisymm (h.first_le h'.free h.le) (h'.first_le h.free h'.le)

end IsRun

/-! ### What one round finds -/

section Found

variable {file pathPrefix : Bytes} {start pos last : ℕ}

/-- What a round has found: the first occurrence from the place where it started, and the first `0`
behind it. -/
structure Found (file pathPrefix : Bytes) (start pos last : ℕ) : Prop where
  boundary : start = 0 ∨ file[start]? = some 0
  le : start ≤ pos
  occurs : pathPrefix <+: file.drop pos
  first : ∀ q, start ≤ q → q < pos → ¬ pathPrefix <+: file.drop q
  terminated : file[last]? = some 0
  free : ∀ q, pos ≤ q → q < last → file[q]? ≠ some 0
  ends : pos + pathPrefix.length ≤ last

/-- The occurrence that is found is the leftmost one of a run. -/
theorem Found.exists_run (h : Found file pathPrefix start pos last) (hne : pathPrefix ≠ []) :
    ∃ first, IsRun file first last ∧ IsLeftmost file pathPrefix first last pos := by
  have hpos := List.length_pos_iff.2 hne
  have hends := h.ends
  obtain ⟨first, hle, hmax, hfree⟩ := exists_first file pos
  have hrun : IsRun file first last := by
    refine ⟨by omega, h.terminated, fun i hi hlt => ?_, hmax⟩
    rcases Nat.lt_or_ge i pos with hbefore | hbehind
    · exact hfree i hi hbefore
    · exact h.free i hbehind hlt
  refine ⟨first, hrun, ⟨hle, hends⟩, h.occurs, fun q hq _ hocc => ?_⟩
  by_contra hlt
  -- an earlier occurrence would lie before the start, and so would the `0` at the start
  rcases Nat.lt_or_ge q start with hbefore | hbehind
  · rcases h.boundary with hzero | hzero
    · omega
    · have hle' := h.le
      exact hrun.free start (by omega) (by omega) hzero
  · exact h.first q hbehind (by omega) hocc

/-- There is no other leftmost occurrence between the start and the `0`. -/
theorem Found.eq_of_isLeftmost (h : Found file pathPrefix start pos last) (hne : pathPrefix ≠ [])
    {r : Marked} (hrun : IsRun file r.first r.last)
    (hleft : IsLeftmost file pathPrefix r.first r.last r.pos) (hstart : start ≤ r.pos)
    (hlast : r.pos < last) : r.pos = pos ∧ r.last = last := by
  have hlen := List.length_pos_iff.2 hne
  obtain ⟨hin, hends⟩ := hleft.inside
  have hge : pos ≤ r.pos := by
    by_contra hlt
    exact h.first r.pos hstart (by omega) hleft.occurs
  have hlast' : r.last ≤ last := hrun.last_le (by omega) h.terminated
  have hlast'' : last ≤ r.last := by
    by_contra hlt
    exact h.free r.last (by omega) (by omega) hrun.terminated
  have hfirst : r.first ≤ pos :=
    hrun.first_le (fun i hi hlt => h.free i hi (by omega)) hin
  have hle : r.pos ≤ pos := hleft.leftmost pos hfirst (by have := h.ends; omega) h.occurs
  exact ⟨Nat.le_antisymm hle hge, Nat.le_antisymm hlast' hlast''⟩

/-- A run that is marked before the start ends there. -/
theorem Found.last_lt_first (h : Found file pathPrefix start pos last) {r : Marked} {first : ℕ}
    (hrun : IsRun file r.first r.last) (hin : r.first ≤ r.pos) (hbefore : r.pos < start)
    (hnew : IsRun file first last) (hne : pathPrefix ≠ []) (hnul : (0 : UInt8) ∉ pathPrefix) :
    r.last < first := by
  have hlen := List.length_pos_iff.2 hne
  have hends := h.ends
  have hle := h.le
  rcases h.boundary with hzero | hzero
  · omega
  · have hlast : r.last ≤ start := hrun.last_le (by omega) hzero
    have hstart : start ≠ pos := by
      rintro rfl
      exact ne_zero_of_occurs hnul h.occurs (Nat.le_refl _) (by omega) hzero
    have hfirst : start < first := hnew.lt_first (p := pos) hzero (by omega) (by omega)
    omega

end Found

/-! ### Whole searches -/

/-- The locations of the runs that have to be marked before a place, in order. -/
def MarkedUpTo (file pathPrefix : Bytes) (bound : ℕ) (locations : List Location) : Prop :=
  ∃ runs : List Marked, (∀ r, r ∈ runs ↔ r.Qualifies file pathPrefix ∧ r.pos < bound) ∧
    runs.Pairwise (fun a b => a.last < b.first) ∧
    List.Forall₂ (Marked.Describes pathPrefix) runs locations

section Rounds

variable {file pathPrefix : Bytes} {start pos last : ℕ} {locations : List Location}

/-- A bound can be moved over places where no run has to be marked. -/
theorem MarkedUpTo.move {bound bound' : ℕ} (h : MarkedUpTo file pathPrefix bound locations)
    (hmove : ∀ r : Marked, r.Qualifies file pathPrefix → (r.pos < bound ↔ r.pos < bound')) :
    MarkedUpTo file pathPrefix bound' locations := by
  obtain ⟨runs, hmem, hpair, hdesc⟩ := h
  refine ⟨runs, fun r => ?_, hpair, hdesc⟩
  rw [hmem]
  exact and_congr_right (hmove r)

theorem Marked.Qualifies.pos_lt {r : Marked} (h : r.Qualifies file pathPrefix)
    (hne : pathPrefix ≠ []) : r.pos < file.length := by
  have hlen := List.length_pos_iff.2 hne
  have hle := h.leftmost.occurs.length_le
  rw [List.length_drop] at hle
  omega

/-- The location that a round adds describes the run. -/
theorem describes_added (hfile : file.length < 2 ^ 32) (hlast : last < file.length)
    (hends : pos + pathPrefix.length ≤ last) (first : ℕ) :
    Marked.Describes pathPrefix ⟨first, last, pos⟩
      { position := .ofNat pos
        length := .ofNat (last - pos)
        suffix := .ofInt ((last : ℤ) - pos - pathPrefix.length) } := by
  have hsuffix : UInt32.ofInt ((last : ℤ) - pos - pathPrefix.length) =
      .ofNat (last - pos - pathPrefix.length) := by
    rw [UInt32.ofInt]
    congr 1
    omega
  have hmod : ∀ n, n < 2 ^ 32 → (UInt32.ofNat n).toNat = n := fun n hn =>
    UInt32.toNat_ofNat_of_lt hn
  refine ⟨?_, ?_, ?_⟩
  · exact hmod pos (by omega)
  · rw [hmod (last - pos) (by omega)]
    show pos + (last - pos) = last
    omega
  · rw [hsuffix, hmod (last - pos) (by omega), hmod (last - pos - pathPrefix.length) (by omega)]
    omega

/-- **A run is marked**: the run that is found is added to those marked before. -/
theorem MarkedUpTo.add (h : MarkedUpTo file pathPrefix start locations)
    (hfound : Found file pathPrefix start pos last) (hne : pathPrefix ≠ [])
    (hnul : (0 : UInt8) ∉ pathPrefix) (hnear : last - pos ≤ pathMax) {l : Location}
    (hl : ∀ first, Marked.Describes pathPrefix ⟨first, last, pos⟩ l) :
    MarkedUpTo file pathPrefix last (locations ++ [l]) := by
  obtain ⟨runs, hmem, hpair, hdesc⟩ := h
  obtain ⟨first, hrun, hleft⟩ := hfound.exists_run hne
  have hlen := List.length_pos_iff.2 hne
  have hle := hfound.le
  have hends := hfound.ends
  refine ⟨runs ++ [⟨first, last, pos⟩], fun r => ?_, ?_, ?_⟩
  · rw [List.mem_append, List.mem_singleton, hmem]
    constructor
    · rintro (⟨hq, hlt⟩ | rfl)
      · exact ⟨hq, by omega⟩
      · exact ⟨⟨hrun, hleft, hnear⟩, show pos < last by omega⟩
    · rintro ⟨hq, hlt⟩
      rcases Nat.lt_or_ge r.pos start with hbefore | hbehind
      · exact Or.inl ⟨hq, hbefore⟩
      · obtain ⟨rfl, rfl⟩ := hfound.eq_of_isLeftmost hne hq.run hq.leftmost hbehind hlt
        refine Or.inr ?_
        rw [hrun.first_unique hq.run]
  · rw [List.pairwise_append]
    refine ⟨hpair, List.pairwise_singleton _ _, fun r hr r' hr' => ?_⟩
    rw [List.mem_singleton.1 hr']
    obtain ⟨hq, hlt⟩ := (hmem r).1 hr
    exact hfound.last_lt_first hq.run hq.leftmost.inside.1 hlt hrun hne hnul
  · exact List.rel_append hdesc (List.Forall₂.cons (hl first) List.Forall₂.nil)

/-- What holds between the rounds: the search stands at a `0` or at an end of the file, and every
run before is marked. -/
structure Searched (file pathPrefix : Bytes) (s : ℕ × List Location) : Prop where
  boundary : s.1 = 0 ∨ s.1 = file.length ∨ file[s.1]? = some 0
  marked : MarkedUpTo file pathPrefix s.1 s.2

/-- A round keeps to what holds, and it either goes on from a later place or has marked every run.
-/
theorem locationRound_found (hfile : file.length < 2 ^ 32) (hne : pathPrefix ≠ [])
    (hnul : (0 : UInt8) ∉ pathPrefix) (s : ℕ × List Location) (hs : Searched file pathPrefix s) :
    Loop.Round (Searched file pathPrefix) (fun t s => file.length - t.1 < file.length - s.1)
      (MarkedUpTo file pathPrefix file.length) s (locationRound file pathPrefix s) := by
  have hlen := List.length_pos_iff.2 hne
  rcases search_cases hne file s.1 with ⟨hsearch, hnone⟩ | ⟨pos, hsearch, hle, hlt, hocc, hfirst⟩
  · simp only [locationRound, hsearch, if_true]
    refine hs.marked.move fun r hr => ⟨fun _ => hr.pos_lt hne, fun _ => ?_⟩
    by_contra hge
    exact hnone r.pos (by omega) hr.leftmost.occurs
  · have hge : ∀ r : Marked, r.Qualifies file pathPrefix → ¬ r.pos < s.1 → pos ≤ r.pos := by
      intro r hr hr'
      by_contra hlt'
      exact hfirst r.pos (by omega) (by omega) hr.leftmost.occurs
    simp only [locationRound, hsearch, if_neg (Nat.ne_of_lt hlt)]
    rcases search_zero_cases file pos with ⟨hzero, hnone⟩ | ⟨last, hzero, hle', hlast, hterm, hfree⟩
    · -- the string is not terminated: neither is any later one
      simp only [hzero, true_or, if_true]
      refine ⟨⟨Or.inr (Or.inl rfl),
        hs.marked.move fun r hr => ⟨fun _ => hr.pos_lt hne, fun _ => ?_⟩⟩,
        ?_⟩
      · by_contra hr'
        have := hge r hr hr'
        exact hnone r.last (by have := hr.leftmost.inside; omega) hr.run.terminated
      · show file.length - file.length < file.length - s.1
        omega
    · have hends : pos + pathPrefix.length ≤ last := by
        by_contra hlt'
        exact ne_zero_of_occurs hnul hocc hle' (by omega) hterm
      have hfound : Found file pathPrefix s.1 pos last := by
        refine ⟨?_, hle, hocc, hfirst, hterm, hfree, hends⟩
        rcases hs.boundary with h | h | h
        · exact Or.inl h
        · omega
        · exact Or.inr h
      have hdown : file.length - last < file.length - s.1 := by omega
      rw [hzero]
      by_cases hfar : last = file.length ∨ last - pos > pathMax
      · -- the string is too long for a path
        rw [if_pos hfar]
        refine ⟨⟨Or.inr (Or.inr hterm),
          hs.marked.move fun r hr => ⟨fun _ => ?_, fun hr' => ?_⟩⟩, hdown⟩
        · show r.pos < last
          omega
        · by_contra hr''
          obtain ⟨hpos, hlast'⟩ :=
            hfound.eq_of_isLeftmost hne hr.run hr.leftmost (by omega) hr'
          have hnear := hr.near
          rw [hpos, hlast'] at hnear
          omega
      · rw [if_neg hfar]
        refine ⟨⟨Or.inr (Or.inr hterm), ?_⟩, hdown⟩
        exact hs.marked.add hfound hne hnul (by omega) (describes_added hfile hlast hends)

/-- Runs that stand in order are described by locations that stand in order. -/
theorem pairwise_of_describes {runs : List Marked}
    (hdesc : List.Forall₂ (Marked.Describes pathPrefix) runs locations)
    (hpair : runs.Pairwise (fun a b => a.last < b.first)) (hin : ∀ r ∈ runs, r.first ≤ r.pos) :
    locations.Pairwise (fun a b => a.position.toNat + a.length.toNat < b.position.toNat) := by
  obtain ⟨hlen, hget⟩ := List.forall₂_iff_get.1 hdesc
  rw [List.pairwise_iff_getElem] at hpair ⊢
  intro i j hi hj hij
  rw [← hlen] at hi hj
  obtain ⟨hpos, hlast, -⟩ := hget i hi (hlen ▸ hi)
  obtain ⟨hpos', -, -⟩ := hget j hj (hlen ▸ hj)
  have hlt := hpair i j hi hj hij
  have hfirst := hin runs[j] (List.getElem_mem hj)
  simp only [List.get_eq_getElem] at hpos hlast hpos'
  omega

end Rounds

/-- **Path patch locations are exact.**  The search ends.  There is exactly one location for every
run that has to be marked, they stand in the order of the file, and they do not overlap. -/
theorem findPathLocations_exact (file pathPrefix : Bytes) (hfile : file.length < 2 ^ 32)
    (hne : pathPrefix ≠ []) (hnul : (0 : UInt8) ∉ pathPrefix) :
    ∃ (locations : List Location) (runs : List Marked),
      Loop.Returns (findPathLocations file pathPrefix) locations ∧
      (∀ r, r ∈ runs ↔ r.Qualifies file pathPrefix) ∧
      runs.Pairwise (fun a b => a.last < b.first) ∧
      List.Forall₂ (Marked.Describes pathPrefix) runs locations ∧
      locations.Pairwise (fun a b => a.position.toNat + a.length.toNat < b.position.toNat) := by
  have hstart : Searched file pathPrefix (0, []) := by
    refine ⟨Or.inl rfl, [], fun r => ?_, List.Pairwise.nil, List.Forall₂.nil⟩
    refine iff_of_false List.not_mem_nil fun h => Nat.not_lt_zero _ h.2
  obtain ⟨locations, ⟨runs, hmem, hpair, hdesc⟩, hreturns⟩ :=
    Loop.run_measure _ _ _ _ (locationRound_found hfile hne hnul) hstart
  refine ⟨locations, runs, hreturns, fun r => ?_, hpair, hdesc, ?_⟩
  · rw [hmem]
    exact and_iff_left_of_imp fun hr => hr.pos_lt hne
  · exact pairwise_of_describes hdesc hpair fun r hr => ((hmem r).1 hr).1.leftmost.inside.1

/-- A file with a string that begins with the path, one that holds it twice, one that does not hold
it and one that is not terminated. -/
def sectionFile : Bytes := ofString "/w/a.c\x00-I/w:/w\x00.text\x00/w"

theorem findPathLocations_exact_sectionFile :
    ∃ (locations : List Location) (runs : List Marked),
      Loop.Returns (findPathLocations sectionFile (ofString "/w")) locations ∧
      (∀ r, r ∈ runs ↔ r.Qualifies sectionFile (ofString "/w")) ∧
      runs.Pairwise (fun a b => a.last < b.first) ∧
      List.Forall₂ (Marked.Describes (ofString "/w")) runs locations ∧
      locations.Pairwise (fun a b => a.position.toNat + a.length.toNat < b.position.toNat) :=
  findPathLocations_exact sectionFile (ofString "/w") (by decide) (by decide) (by decide)

example : findPathLocations sectionFile (ofString "/w") 9 = some [⟨0, 6, 4⟩, ⟨9, 5, 3⟩] := by decide

end Cloud
