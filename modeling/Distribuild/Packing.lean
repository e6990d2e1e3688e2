/-
**The formats that several files are packed in.**

The files that a compile leaves behind travel in two formats.  Between a servant and a daemon, and
in the cache, they are one *pack*: a line with the total size, a line with the suffixes, a line with
the sizes, and then the contents.  Between a daemon and its client they are a *multi-chunk*: a line
with the sizes and then the parts.  This module embeds both, from `common/tools.h` and
`common/multi_chunk.h`, together with `Split`, which both readers use.

Sizes are numbers of type `size_t`, and the readers compute with what a stranger has written into
the headers.  Where such a computation can wrap around it is written modulo `2 ^ 64` here.

Main definitions:

* `Common.split`, `Common.splitChar` — `Split`;
* `Common.packFiles`, `Common.tryUnpackFiles` — the pack;
* `Common.makeMultiChunk`, `Common.tryParseMultiChunk` — the multi-chunk.

Main results:

* `Common.split_joins` — **splitting is the inverse of joining**;
* `Common.tryUnpackFiles_packFiles` — **a pack is read back** to the files that were packed;
* `Common.tryParseMultiChunk_line` — what is read behind a first line, whatever it is;
* `Common.tryParseMultiChunk_makeMultiChunk` — **a multi-chunk is read back** to its parts.
-/

import Distribuild.Bytes

set_option relaxedAutoImplicit false
set_option autoImplicit false

namespace Common

open Bytes

/-! ### Splitting -/

/-- The loop of `Split` on `cur`.  An empty delimiter is found everywhere, and then it does not
end. -/
def splitLoop (delim : Bytes) (keepEmpty : Bool) : ℕ → Bytes → Option (List Bytes)
  | 0, _ => none
  | fuel + 1, cur =>
      let pos := find delim cur
      let splited := if pos ≠ some 0 ∨ keepEmpty then [cur.take (pos.getD cur.length)] else []
      match pos with
      | none => some splited
      | some p =>
          let rest := cur.drop (p + delim.length)
          if rest = [] then some (splited ++ if keepEmpty then [[]] else [])
          else (splitLoop delim keepEmpty fuel rest).map (splited ++ ·)

/-- `Split(s, delim, keep_empty)` for a delimiter that is a string; nothing if it does not end. -/
def split (s delim : Bytes) (keepEmpty : Bool) : Option (List Bytes) :=
  if s = [] then some [] else splitLoop delim keepEmpty (s.length + 1) s

/-- `Split(s, delim, keep_empty)` for a delimiter that is a character. -/
def splitChar (s : Bytes) (delim : UInt8) (keepEmpty : Bool) : List Bytes :=
  (split s [delim] keepEmpty).getD []

/-- With a delimiter that is not empty the loop ends, after at most as many rounds as there are
characters, and the fuel makes no difference. -/
theorem splitLoop_ends {delim : Bytes} (hd : delim ≠ []) (keepEmpty : Bool) {fuel : ℕ} {cur : Bytes}
    (h : cur.length < fuel) : ∃ splited, ∀ fuel', cur.length < fuel' →
      splitLoop delim keepEmpty fuel' cur = some splited := by
  induction fuel generalizing cur with
  | zero => exact absurd h (Nat.not_lt_zero _)
  | succ fuel ih =>
      have hpos : 0 < delim.length := List.length_pos_iff.2 hd
      cases hfind : find delim cur with
      | none =>
          refine ⟨[cur], fun fuel' h' => ?_⟩
          obtain ⟨n, rfl⟩ : ∃ n, fuel' = n + 1 := ⟨fuel' - 1, by omega⟩
          simp [splitLoop, hfind]
      | some p =>
          by_cases hrest : cur.drop (p + delim.length) = []
          · refine ⟨(if some p ≠ some 0 ∨ keepEmpty then [cur.take p] else []) ++
              if keepEmpty then [[]] else [], fun fuel' h' => ?_⟩
            obtain ⟨n, rfl⟩ : ∃ n, fuel' = n + 1 := ⟨fuel' - 1, by omega⟩
            simp [splitLoop, hfind, hrest]
          · have hlen : (cur.drop (p + delim.length)).length < cur.length := by
              have := List.length_pos_iff.2 hrest
              rw [List.length_drop] at this ⊢
              omega
            obtain ⟨splited, hsplited⟩ := ih (Nat.lt_of_lt_of_le hlen (Nat.lt_succ_iff.1 h))
            refine ⟨(if some p ≠ some 0 ∨ keepEmpty then [cur.take p] else []) ++ splited,
              fun fuel' h' => ?_⟩
            obtain ⟨n, rfl⟩ : ∃ n, fuel' = n + 1 := ⟨fuel' - 1, by omega⟩
            simp [splitLoop, hfind, hrest, hsplited n (by omega)]

/-- What is kept of the pieces. -/
def kept (keepEmpty : Bool) (pieces : List Bytes) : List Bytes :=
  pieces.filter fun piece => keepEmpty || decide (piece ≠ [])

theorem kept_cons (keepEmpty : Bool) (piece : Bytes) (pieces : List Bytes) :
    kept keepEmpty (piece :: pieces) =
      (if piece ≠ [] ∨ keepEmpty then [piece] else []) ++ kept keepEmpty pieces := by
  rw [kept, kept, List.filter_cons]
  by_cases hpiece : piece ≠ [] ∨ keepEmpty = true
  · rw [if_pos hpiece, if_pos (by simpa [or_comm] using hpiece), List.singleton_append]
  · rw [if_neg hpiece, if_neg (by simpa [or_comm] using hpiece), List.nil_append]

/-- A round that finds the delimiter.  What stands before it is a piece, and so is the empty end
behind a delimiter that is the last. -/
theorem splitLoop_found {delim cur : Bytes} {p : ℕ} (hcur : cur ≠ [])
    (hfind : find delim cur = some p) (keepEmpty : Bool) (fuel : ℕ) :
    splitLoop delim keepEmpty (fuel + 1) cur =
      if cur.drop (p + delim.length) = [] then some (kept keepEmpty [cur.take p, []])
      else (splitLoop delim keepEmpty fuel (cur.drop (p + delim.length))).map
        (kept keepEmpty [cur.take p] ++ ·) := by
  have hp : some p ≠ some 0 ↔ cur.take p ≠ [] := by simp [hcur]
  have hnil : kept keepEmpty [] = [] := rfl
  have hend : (if ([] : Bytes) ≠ [] ∨ keepEmpty = true then [([] : Bytes)] else []) =
      if keepEmpty = true then [[]] else [] := by simp
  simp only [splitLoop, hfind, hp, Option.getD_some, kept_cons, hnil, List.append_nil, hend]

/-- The pieces that the loop makes of a string, empty ones included: none of them holds the
delimiter, and joined with it they are the string. -/
theorem splitLoop_joins {delim : Bytes} (hd : delim ≠ []) {fuel : ℕ} {cur : Bytes} (hcur : cur ≠ [])
    (h : cur.length < fuel) :
    ∃ pieces, pieces ≠ [] ∧ (∀ piece ∈ pieces, ¬ delim <:+: piece) ∧
      delim.intercalate pieces = cur ∧
      ∀ keepEmpty, splitLoop delim keepEmpty fuel cur = some (kept keepEmpty pieces) := by
  induction fuel generalizing cur with
  | zero => exact absurd h (Nat.not_lt_zero _)
  | succ fuel ih =>
      cases hfind : find delim cur with
      | none =>
          have hno : ¬ delim <:+: cur := by
            rw [← find_isSome_iff, hfind]
            exact Bool.false_ne_true
          refine ⟨[cur], List.cons_ne_nil _ _, by simpa using hno, List.intercalate_singleton, ?_⟩
          intro keepEmpty
          simp [splitLoop, hfind, kept, hcur]
      | some p =>
          obtain ⟨rest, heq, hrest⟩ := exists_of_find hfind
          have hno := not_infix_take_of_find hd hfind
          by_cases hnil : rest = []
          · refine ⟨[cur.take p, []], List.cons_ne_nil _ _, ?_, ?_, ?_⟩
            · simp [hno, hd]
            · rw [List.intercalate_cons_cons, List.intercalate_singleton]
              rw [hnil] at heq
              simpa using heq.symm
            · intro keepEmpty
              rw [splitLoop_found hcur hfind, hrest, if_pos hnil]
          · have hlen : rest.length < fuel := by
              have hpos := List.length_pos_iff.2 hd
              have := congrArg List.length heq
              simp only [List.length_append] at this
              omega
            obtain ⟨pieces, hne, hfree, hjoin, hloop⟩ := ih hnil hlen
            refine ⟨cur.take p :: pieces, List.cons_ne_nil _ _, ?_, ?_, ?_⟩
            · intro piece hpiece
              rcases List.mem_cons.1 hpiece with rfl | hmem
              · exact hno
              · exact hfree piece hmem
            · obtain ⟨second, others, rfl⟩ := List.exists_cons_of_ne_nil hne
              rw [List.intercalate_cons_cons, hjoin, List.append_assoc]
              exact heq.symm
            · intro keepEmpty
              rw [splitLoop_found hcur hfind, hrest, if_neg hnil, hloop, Option.map_some, kept, kept,
                ← List.filter_append, List.singleton_append, kept]

/-- **`Split` is the inverse of joining**: with empty pieces it ends with pieces that do not hold the
delimiter and whose join is the string, and without empty pieces it leaves out just the empty ones.
-/
theorem split_joins {s delim : Bytes} (hs : s ≠ []) (hd : delim ≠ []) :
    ∃ pieces, split s delim true = some pieces ∧ (∀ piece ∈ pieces, ¬ delim <:+: piece) ∧
      delim.intercalate pieces = s ∧ split s delim false = some (pieces.filter (· ≠ [])) := by
  obtain ⟨pieces, -, hfree, hjoin, hloop⟩ := splitLoop_joins hd hs (Nat.lt_succ_self _)
  refine ⟨pieces, ?_, hfree, hjoin, ?_⟩
  · rw [split, if_neg hs, hloop]
    simp [kept]
  · rw [split, if_neg hs, hloop]
    simp [kept]

/-- A path with a doubled and a last separator. -/
theorem split_joins_path : ∃ pieces,
    split (ofString "/usr//bin/") (ofString "/") true = some pieces ∧
      (∀ piece ∈ pieces, ¬ ofString "/" <:+: piece) ∧
      (ofString "/").intercalate pieces = ofString "/usr//bin/" ∧
      split (ofString "/usr//bin/") (ofString "/") false = some (pieces.filter (· ≠ [])) :=
  split_joins (by decide) (by decide)

@[simp] theorem splitChar_nil (c : UInt8) (keepEmpty : Bool) : splitChar [] c keepEmpty = [] := rfl

theorem splitLoop_singleton {c : UInt8} {s : Bytes} (hs : s ≠ []) {fuel : ℕ}
    (h : s.length < fuel) : splitLoop [c] false fuel s = some (splitChar s c false) := by
  obtain ⟨splited, hsplited⟩ := splitLoop_ends (List.cons_ne_nil c []) false h
  rw [splitChar, split, if_neg hs, hsplited _ (Nat.lt_succ_self _), hsplited _ h]
  rfl

/-- One round of `Split` without empty pieces: what stands before the first delimiter is a piece
unless it is empty, and the rest is split. -/
theorem splitChar_append {c : UInt8} {a : Bytes} (hc : c ∉ a) (s : Bytes) :
    splitChar (a ++ c :: s) c false = (if a = [] then [] else [a]) ++ splitChar s c false := by
  have hne : a ++ c :: s ≠ [] := by simp
  have hfind : find [c] (a ++ c :: s) = some a.length := find_singleton_append hc s
  have hdrop : (a ++ c :: s).drop (a.length + 1) = s := by
    rw [← List.drop_drop, List.drop_left]
    rfl
  have hlen : s.length < (a ++ c :: s).length := by
    rw [List.length_append, List.length_cons]
    omega
  have hpiece : (if some a.length ≠ some 0 ∨ false = true
      then [(a ++ c :: s).take ((some a.length).getD (a ++ c :: s).length)] else []) =
        if a = [] then [] else [a] := by
    by_cases ha : a = []
    · simp [ha]
    · simp [ha]
  rw [splitChar, split, if_neg hne, splitLoop]
  simp only [hfind, hpiece, List.length_singleton, hdrop]
  by_cases hs : s = []
  · simp [hs]
  · rw [if_neg hs, splitLoop_singleton hs hlen]
    rfl

theorem splitChar_self {c : UInt8} {a : Bytes} (ha : a ≠ []) (hc : c ∉ a) :
    splitChar a c false = [a] := by
  have hfind : find [c] a = none := find_singleton_eq_none hc
  simp [splitChar, split, splitLoop, hfind, ha]

theorem splitChar_replicate (c : UInt8) (n : ℕ) (s : Bytes) :
    splitChar (List.replicate n c ++ s) c false = splitChar s c false := by
  induction n with
  | zero => rfl
  | succ n ih =>
      have hround := splitChar_append (c := c) List.not_mem_nil (List.replicate n c ++ s)
      rw [List.replicate_succ, List.cons_append]
      simpa [ih] using hround

/-! ### Lines of fields -/

/-- A line as the writers make it up: every field is followed by the separators, and the last one is
taken off again. -/
def fieldLine (separators : Bytes) (fields : List Bytes) : Bytes :=
  (fields.flatMap fun field => field ++ separators).dropLast

theorem fieldLine_cons {separators : Bytes} (hs : separators ≠ []) (field : Bytes)
    {fields : List Bytes} (hf : fields ≠ []) :
    fieldLine separators (field :: fields) = field ++ separators ++ fieldLine separators fields := by
  obtain ⟨second, rest, rfl⟩ := List.exists_cons_of_ne_nil hf
  rw [fieldLine, List.flatMap_cons, List.dropLast_append_of_ne_nil, fieldLine]
  simp [hs]

theorem fieldLine_singleton {separators : Bytes} (hs : separators ≠ []) (field : Bytes) :
    fieldLine separators [field] = field ++ separators.dropLast := by
  rw [fieldLine, List.flatMap_singleton, List.dropLast_append_of_ne_nil hs]

/-- **A line of fields is split into its fields**, however often the separator is repeated. -/
theorem splitChar_fieldLine {c : UInt8} (n : ℕ) {fields : List Bytes}
    (h : ∀ field ∈ fields, field ≠ [] ∧ c ∉ field) :
    splitChar (fieldLine (List.replicate (n + 1) c) fields) c false = fields := by
  have hsep : List.replicate (n + 1) c ≠ [] := by simp
  induction fields with
  | nil => rfl
  | cons field fields ih =>
      obtain ⟨hne, hc⟩ := h field List.mem_cons_self
      by_cases hf : fields = []
      · subst hf
        rw [fieldLine_singleton hsep, List.dropLast_replicate]
        cases n with
        | zero => simpa using splitChar_self hne hc
        | succ n =>
            have hnil := splitChar_replicate c n []
            rw [List.append_nil, splitChar_nil] at hnil
            rw [Nat.add_sub_cancel, List.replicate_succ, splitChar_append hc, if_neg hne, hnil]
            rfl
      · have hfields := ih fun field' hmem => h field' (List.mem_cons_of_mem _ hmem)
        have hround := splitChar_append hc
          (List.replicate n c ++ fieldLine (List.replicate (n + 1) c) fields)
        rw [splitChar_replicate, if_neg hne, hfields] at hround
        rw [fieldLine_cons hsep field hf]
        simpa [List.replicate_succ] using hround

theorem not_mem_fieldLine {separators : Bytes} {fields : List Bytes} {b : UInt8}
    (hs : b ∉ separators) (hf : ∀ field ∈ fields, b ∉ field) : b ∉ fieldLine separators fields := by
  intro hmem
  obtain ⟨field, hfield, hb⟩ := List.mem_flatMap.1 (List.dropLast_subset _ hmem)
  rcases List.mem_append.1 hb with hb | hb
  · exact hf field hfield hb
  · exact hs hb

/-- The digits of a number are no commas and no line ends. -/
theorem not_mem_decimal {b : UInt8} (hb : isDigit b = false) (n : ℕ) : b ∉ decimal n := by
  intro hmem
  rw [isDigit_of_mem_decimal n b hmem] at hb
  cases hb

/-- A field can be read back from a line: it is not empty and holds no comma and no line end. -/
def IsField (field : Bytes) : Prop := field ≠ [] ∧ (44 : UInt8) ∉ field ∧ (10 : UInt8) ∉ field

theorem isField_decimal {α : Type} (size : α → ℕ) (items : List α) :
    ∀ field ∈ items.map fun item => decimal (size item), IsField field := by
  intro field hfield
  obtain ⟨item, -, rfl⟩ := List.mem_map.1 hfield
  exact ⟨decimal_ne_nil _, not_mem_decimal rfl _, not_mem_decimal rfl _⟩

theorem not_mem_fieldLine_of_isField (n : ℕ) {fields : List Bytes}
    (h : ∀ field ∈ fields, IsField field) :
    (10 : UInt8) ∉ fieldLine (List.replicate (n + 1) 44) fields := by
  refine not_mem_fieldLine (fun hmem => ?_) fun field hfield => (h field hfield).2.2
  exact absurd (List.eq_of_mem_replicate hmem) (by decide)

theorem splitChar_fieldLine_of_isField (n : ℕ) {fields : List Bytes}
    (h : ∀ field ∈ fields, IsField field) :
    splitChar (fieldLine (List.replicate (n + 1) 44) fields) 44 false = fields :=
  splitChar_fieldLine n fun field hfield => ⟨(h field hfield).1, (h field hfield).2.1⟩

/-! ### The pack -/

/-- `PackFiles`, for pairs of a suffix and a content. -/
def packFiles (files : List (Bytes × Bytes)) : Bytes :=
  if files = [] then []
  else
    let suffixLine := fieldLine [44] (files.map fun file => file.1) ++ [10]
    let sizeLine := fieldLine [44] (files.map fun file => decimal file.2.length) ++ [10]
    let filesSize := (files.map fun file => file.2.length).sum % sizeValues
    decimal filesSize ++ [10] ++ suffixLine ++ sizeLine ++ files.flatMap fun file => file.2

/-- The loop of `TryUnpackFiles` over the suffixes and sizes, with the position it has reached. -/
def unpackLoop (packedFile : Bytes) : ℕ → List (Bytes × Bytes) → Except Fault (List (Bytes × Bytes))
  | _, [] => .ok []
  | pos, (suffix, size) :: rest => do
      let len ← stoul size
      let content ← substr packedFile pos len
      let files ← unpackLoop packedFile ((pos + len) % sizeValues) rest
      return (suffix, content) :: files

def tryUnpackFiles (packedFile : Bytes) : Except Fault (Option (List (Bytes × Bytes))) := do
  let lengthLine := (getline packedFile).1
  let ss := (getline packedFile).2
  let length ← stol lengthLine
  let filesSize := (length % sizeValues).toNat
  let suffixsLine := (getline ss).1
  let suffixs := splitChar suffixsLine 44 false
  let sizesLine := (getline (getline ss).2).1
  let sizes := splitChar sizesLine 44 false
  let headSize := (lengthLine.length + 1) + (suffixsLine.length + 1) + (sizesLine.length + 1)
  if suffixs.length ≠ sizes.length then return none
  -- a string with fewer than three lines is shorter than its header
  if (packedFile.length + sizeValues - headSize) % sizeValues ≠ filesSize then return none
  let files ← unpackLoop packedFile headSize (suffixs.zip sizes)
  return some files

theorem unpackLoop_ne_undefined (packedFile : Bytes) (pos : ℕ) (files : List (Bytes × Bytes)) :
    unpackLoop packedFile pos files ≠ .error .undefined := by
  induction files generalizing pos with
  | nil => simp [unpackLoop]
  | cons file files ih =>
      rw [unpackLoop]
      refine Fault.bind_ne_undefined (stoul_ne_undefined _) fun len => ?_
      refine Fault.bind_ne_undefined (substr_ne_undefined _ _ _) fun content => ?_
      refine Fault.bind_ne_undefined (ih _) fun rest => ?_
      simp [pure, Except.pure]

/-- Whatever is unpacked, nothing undefined happens. -/
theorem tryUnpackFiles_ne_undefined (packedFile : Bytes) :
    tryUnpackFiles packedFile ≠ .error .undefined := by
  rw [tryUnpackFiles]
  refine Fault.bind_ne_undefined (stol_ne_undefined _) fun length => ?_
  dsimp only
  split
  · simp [pure, Except.pure]
  · split
    · simp [pure, Except.pure]
    · refine Fault.bind_ne_undefined (unpackLoop_ne_undefined _ _ _) fun files => ?_
      simp [pure, Except.pure]

/-- The loop finds every content where the one before it ends. -/
theorem unpackLoop_contents {packedFile head : Bytes} {files : List (Bytes × Bytes)}
    (h : packedFile = head ++ files.flatMap fun file => file.2)
    (hsize : packedFile.length < sizeValues) :
    unpackLoop packedFile head.length
      (files.map fun file => (file.1, decimal file.2.length)) = .ok files := by
  induction files generalizing head with
  | nil => rfl
  | cons file files ih =>
      rw [List.flatMap_cons, ← List.append_assoc] at h
      have hlen : (head ++ file.2).length < sizeValues := by
        rw [h, List.length_append] at hsize
        omega
      have hcontent : substr packedFile head.length file.2.length = .ok file.2 := by
        rw [h, List.append_assoc]
        exact substr_append head file.2 _
      have hstoul : stoul (decimal file.2.length) = .ok file.2.length := by
        refine stoul_decimal (Nat.lt_of_le_of_lt ?_ hlen)
        rw [List.length_append]
        omega
      have hpos : (head.length + file.2.length) % sizeValues = (head ++ file.2).length := by
        rw [← List.length_append, Nat.mod_eq_of_lt hlen]
      rw [List.map_cons, unpackLoop, hstoul]
      simp only [bind, Except.bind, hcontent, hpos, ih h]
      rfl

/-- The files of a pack can be read back: their suffixes are not empty and hold no comma and no line
end. -/
def Packable (files : List (Bytes × Bytes)) : Prop :=
  files ≠ [] ∧ ∀ file ∈ files, file.1 ≠ [] ∧ (44 : UInt8) ∉ file.1 ∧ (10 : UInt8) ∉ file.1

/-- The lines of a pack. -/
theorem packFiles_eq {files : List (Bytes × Bytes)} (h : files ≠ []) :
    packFiles files = decimal ((files.map fun file => file.2.length).sum % sizeValues) ++ 10 ::
      (fieldLine [44] (files.map fun file => file.1) ++ 10 ::
        (fieldLine [44] (files.map fun file => decimal file.2.length) ++ 10 ::
          files.flatMap fun file => file.2)) := by
  simp [packFiles, h]

/-- The contents are a part of the pack. -/
theorem contents_length_le (files : List (Bytes × Bytes)) :
    (files.flatMap fun file => file.2).length ≤ (packFiles files).length := by
  by_cases h : files = []
  · rw [h]
    exact Nat.le_refl 0
  · rw [packFiles_eq h]
    simp only [List.length_append, List.length_cons]
    omega

/-- Three lines that say what the body is made up of are read back to the files in it. -/
theorem tryUnpackFiles_lines {lengthLine suffixsLine sizesLine body : Bytes}
    {files : List (Bytes × Bytes)} (hL : (10 : UInt8) ∉ lengthLine) (hS : (10 : UInt8) ∉ suffixsLine)
    (hZ : (10 : UInt8) ∉ sizesLine) (hstol : stol lengthLine = .ok (body.length : ℕ))
    (hsuffixs : splitChar suffixsLine 44 false = files.map fun file => file.1)
    (hsizes : splitChar sizesLine 44 false = files.map fun file => decimal file.2.length)
    (hbody : body = files.flatMap fun file => file.2) {packedFile : Bytes}
    (hpack : packedFile = lengthLine ++ 10 :: (suffixsLine ++ 10 :: (sizesLine ++ 10 :: body)))
    (hsize : packedFile.length < sizeValues) :
    tryUnpackFiles packedFile = .ok (some files) := by
  have hlength : packedFile.length =
      (lengthLine.length + 1) + (suffixsLine.length + 1) + (sizesLine.length + 1) + body.length := by
    rw [hpack]
    simp only [List.length_append, List.length_cons]
    omega
  have hcheck : (packedFile.length + sizeValues -
      ((lengthLine.length + 1) + (suffixsLine.length + 1) + (sizesLine.length + 1))) % sizeValues =
        (((body.length : ℕ) : ℤ) % (sizeValues : ℕ)).toNat := by
    rw [sizeValues] at hsize ⊢
    rw [hlength] at hsize ⊢
    omega
  have hwhole : packedFile =
      (lengthLine ++ 10 :: (suffixsLine ++ 10 :: (sizesLine ++ [10]))) ++
        files.flatMap fun file => file.2 := by
    rw [hpack, hbody]
    simp
  have hhead : (lengthLine ++ 10 :: (suffixsLine ++ 10 :: (sizesLine ++ [10]))).length =
      (lengthLine.length + 1) + (suffixsLine.length + 1) + (sizesLine.length + 1) := by
    simp only [List.length_append, List.length_cons, List.length_nil]
    omega
  have hloop := unpackLoop_contents hwhole hsize
  rw [hhead] at hloop
  have hlines : getline packedFile =
      (lengthLine, suffixsLine ++ 10 :: (sizesLine ++ 10 :: body)) := by
    rw [hpack, getline_append hL]
  simp only [tryUnpackFiles, hlines, getline_append hS, getline_append hZ, hstol, hsuffixs,
    hsizes, bind, Except.bind, List.length_map, ne_eq, not_true_eq_false, if_false, hcheck,
    List.zip_map', hloop]
  rfl

/-- A pack is read back if the contents have a size that `std::stol` can read, and the pack one that
a `size_t` can hold. -/
theorem tryUnpackFiles_packFiles_of_contents {files : List (Bytes × Bytes)} (h : Packable files)
    (hsize : (files.map fun file => file.2.length).sum < 2 ^ 63)
    (hstring : (packFiles files).length < sizeValues) :
    tryUnpackFiles (packFiles files) = .ok (some files) := by
  obtain ⟨hne, hsuffix⟩ := h
  have hpack := packFiles_eq hne
  have hsuffixs : ∀ field ∈ files.map fun file => file.1, IsField field := by
    intro field hfield
    obtain ⟨file, hfile, rfl⟩ := List.mem_map.1 hfield
    exact hsuffix file hfile
  have hsizes := isField_decimal (fun file : Bytes × Bytes => file.2.length) files
  have hbody : (files.flatMap fun file => file.2).length =
      (files.map fun file => file.2.length).sum := List.length_flatMap
  have hstol : stol (decimal ((files.map fun file => file.2.length).sum % sizeValues)) =
      .ok ((files.flatMap fun file => file.2).length : ℕ) := by
    rw [hbody, Nat.mod_eq_of_lt]
    · exact stol_decimal hsize
    · rw [sizeValues]
      omega
  exact tryUnpackFiles_lines (not_mem_decimal rfl _) (not_mem_fieldLine_of_isField 0 hsuffixs)
    (not_mem_fieldLine_of_isField 0 hsizes) hstol (splitChar_fieldLine_of_isField 0 hsuffixs)
    (splitChar_fieldLine_of_isField 0 hsizes) rfl hpack hstring

/-- **A pack is read back** to the files that were packed. -/
theorem tryUnpackFiles_packFiles {files : List (Bytes × Bytes)} (h : Packable files)
    (hsize : (packFiles files).length < 2 ^ 63) :
    tryUnpackFiles (packFiles files) = .ok (some files) := by
  have hle := contents_length_le files
  rw [List.length_flatMap] at hle
  exact tryUnpackFiles_packFiles_of_contents h (by omega) (by rw [sizeValues]; omega)

/-! ### The multi-chunk -/

/-- `MakeMultiChunk`.  It writes two commas after every size. -/
def makeMultiChunk (parts : List Bytes) : Bytes :=
  if parts = [] then []
  else fieldLine [44, 44] (parts.map fun e => decimal e.length) ++ [13, 10] ++ parts.flatten

/-- A size in the first line of a multi-chunk. -/
def parseSize (e : Bytes) : Option ℕ :=
  let size := strtol e
  if size ≤ 0 ∨ size = longMax ∨ size = longMin then none else some size.toNat

/-- The last loop of `TryParseMultiChunk`.  `remove_prefix` must not remove more than there is. -/
def takeParts : Bytes → List ℕ → Except Fault (List Bytes)
  | _, [] => .ok []
  | restBytes, e :: sizes =>
      if restBytes.length < e then .error .undefined
      else do
        let parts ← takeParts (restBytes.drop e) sizes
        return restBytes.take e :: parts

def tryParseMultiChunk (view : Bytes) : Except Fault (Option (List Bytes)) :=
  if view = [] then .ok (some [])
  else
    match find [10] view with
    | none => .ok none
    | some delim =>
        if delim = 0 ∨ view[delim - 1]? ≠ some 13 then .ok none
        else
          let restBytes := view.drop (delim + 1)
          match (splitChar (view.take (delim - 1)) 44 false).mapM parseSize with
          | none => .ok none
          | some parsedSize =>
              if parsedSize.sum % sizeValues ≠ restBytes.length then .ok none
              else (takeParts restBytes parsedSize).map some

theorem parseSize_decimal {n : ℕ} (hpos : 0 < n) (h : n < 2 ^ 63 - 1) :
    parseSize (decimal n) = some n := by
  have hsize : ¬((n : ℤ) ≤ 0 ∨ (n : ℤ) = longMax ∨ (n : ℤ) = longMin) := by
    rw [longMax, longMin]
    omega
  rw [parseSize, strtol_decimal (by omega)]
  simp only [if_neg hsize, Int.toNat_natCast]

/-- The sizes of the parts are read, unless one of them is zero. -/
theorem mapM_parseSize {parts : List Bytes} (h : ∀ e ∈ parts, e.length < 2 ^ 63 - 1) :
    (parts.map fun e => decimal e.length).mapM parseSize =
      if [] ∈ parts then none else some (parts.map fun e => e.length) := by
  induction parts with
  | nil => rfl
  | cons e parts ih =>
      have hlt := h e List.mem_cons_self
      rw [List.map_cons, List.mapM_cons, ih fun e' hmem => h e' (List.mem_cons_of_mem _ hmem)]
      by_cases he : e = []
      · have hzero : parseSize (decimal e.length) = none := by
          rw [he]
          decide
        rw [hzero, he, if_pos List.mem_cons_self]
        rfl
      · rw [parseSize_decimal (List.length_pos_iff.2 he) hlt]
        by_cases hrest : [] ∈ parts
        · rw [if_pos hrest, if_pos (List.mem_cons_of_mem _ hrest)]
          rfl
        · have hnone : [] ∉ e :: parts := by
            rw [List.mem_cons, not_or]
            exact ⟨fun heq => he heq.symm, hrest⟩
          rw [if_neg hrest, if_neg hnone]
          rfl

theorem takeParts_flatten (parts : List Bytes) :
    takeParts parts.flatten (parts.map fun e => e.length) = .ok parts := by
  induction parts with
  | nil => rfl
  | cons e parts ih =>
      have hle : ¬(e ++ parts.flatten).length < e.length := by
        rw [List.length_append]
        omega
      rw [List.flatten_cons, List.map_cons, takeParts, if_neg hle, List.drop_left, ih,
        List.take_left]
      rfl

/-- What is read from a string whose first line is ended by CR and LF. -/
theorem tryParseMultiChunk_line {line : Bytes} (hline : (10 : UInt8) ∉ line) (body : Bytes) :
    tryParseMultiChunk (line ++ 13 :: 10 :: body) =
      match (splitChar line 44 false).mapM parseSize with
      | none => .ok none
      | some parsedSize =>
          if parsedSize.sum % sizeValues ≠ body.length then .ok none
          else (takeParts body parsedSize).map some := by
  have hfind : find [10] (line ++ 13 :: 10 :: body) = some (line.length + 1) := by
    have hcr : (10 : UInt8) ∉ line ++ [13] := by
      intro hmem
      rcases List.mem_append.1 hmem with hmem | hmem
      · exact hline hmem
      · revert hmem
        decide
    have hfound := find_singleton_append hcr body
    rw [List.append_assoc] at hfound
    simpa using hfound
  have hview : line ++ 13 :: 10 :: body ≠ [] := by simp
  have hcr : (line ++ 13 :: 10 :: body)[line.length]? = some 13 := by simp
  have hbody : (line ++ 13 :: 10 :: body).drop (line.length + 1 + 1) = body := by
    rw [Nat.add_assoc, ← List.drop_drop, List.drop_left]
    rfl
  have htake : (line ++ 13 :: 10 :: body).take line.length = line := List.take_left
  simp only [tryParseMultiChunk, if_neg hview, hfind, Nat.add_sub_cancel, Nat.add_eq_zero_iff, hcr,
    htake, hbody]
  simp

/-- The sizes of the parts in one line, however often the comma is repeated, and then the parts:
this is read back to the parts, unless one of them is empty. -/
theorem tryParseMultiChunk_fieldLine (n : ℕ) {parts : List Bytes}
    (hsize : parts.flatten.length < 2 ^ 63 - 1) :
    tryParseMultiChunk (fieldLine (List.replicate (n + 1) 44)
        (parts.map fun e => decimal e.length) ++ 13 :: 10 :: parts.flatten) =
      .ok (if [] ∈ parts then none else some parts) := by
  have hfields := isField_decimal (fun e : Bytes => e.length) parts
  have hsizes : ∀ e ∈ parts, e.length < 2 ^ 63 - 1 := by
    intro e he
    exact Nat.lt_of_le_of_lt (List.sublist_flatten_of_mem he).length_le hsize
  have htotal : (parts.map fun e => e.length).sum % sizeValues = parts.flatten.length := by
    rw [← List.length_flatten, Nat.mod_eq_of_lt]
    rw [sizeValues]
    omega
  rw [tryParseMultiChunk_line (not_mem_fieldLine_of_isField n hfields),
    splitChar_fieldLine_of_isField n hfields, mapM_parseSize hsizes]
  split_ifs with hempty
  · rfl
  · simp [htotal, takeParts_flatten, Except.map]

theorem makeMultiChunk_eq {parts : List Bytes} (h : parts ≠ []) :
    makeMultiChunk parts = fieldLine (List.replicate 2 44) (parts.map fun e => decimal e.length) ++
      13 :: 10 :: parts.flatten := by
  rw [makeMultiChunk, if_neg h, List.append_assoc]
  rfl

/-- **A multi-chunk is read back** to its parts. -/
theorem tryParseMultiChunk_makeMultiChunk {parts : List Bytes} (h : ∀ e ∈ parts, e ≠ [])
    (hsize : parts.flatten.length < 2 ^ 63 - 1) :
    tryParseMultiChunk (makeMultiChunk parts) = .ok (some parts) := by
  by_cases hne : parts = []
  · subst hne
    rfl
  · rw [makeMultiChunk_eq hne, tryParseMultiChunk_fieldLine 1 hsize,
      if_neg fun hmem => h [] hmem rfl]

end Common
