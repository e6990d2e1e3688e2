/-
**The name of the object file, as the client chooses it.**

A compile without `-o` leaves its object file in the working directory, under the name of the source
without the directory and with `.o` for the extension.  The client writes the file itself, so
`CompilerArgs::GetOutputFile` has to choose the same name.  It cuts the name of the source at the
last dot and then behind the last slash.  The last dot may stand in the name of a directory; and the
position of the slash is used as a truth value, so that a slash in front of everything is not found.

Main definitions:

* `Client.CompilerArgs.getOutputFile` — `GetOutputFile`;
* `Client.baseName`, `Client.stem` — the name that a compiler chooses;
* `Client.NamedAlike` — the sources for which the client chooses the same name.

Main results:

* `Client.behindSlash_eq_iff` — which paths are cut down to a given name;
* `Client.getOutputFile_iff` — **the client chooses the name that the compiler would choose if and
  only if** the name of the source is `NamedAlike`.
-/

import Distribuild.ClientArgs
import Mathlib.Data.List.DropRight

set_option relaxedAutoImplicit false
set_option autoImplicit false

namespace Client

open Bytes (findLastOf findLastOf_eq_none findLastOf_append)

/-! ### What the client does -/

/-- `filename.substr(0, filename.find_last_of('.'))`. -/
def beforeDot (filename : Bytes) : Bytes :=
  filename.take ((findLastOf 46 filename).getD filename.length)

/-- The `if` of `GetOutputFile`.  The position `0` counts as false; `npos` counts as true, and `npos
+ 1` is zero. -/
def behindSlash (path : Bytes) : Bytes :=
  match findLastOf 47 path with
  | some 0 => path
  | some pos => path.drop (pos + 1)
  | none => path.drop 0

/-- `GetOutputFile`.  Without `-o` it takes the first file name, even if there is none. -/
def CompilerArgs.getOutputFile (a : CompilerArgs) : Except Fault Bytes :=
  match a.tryGet (Bytes.ofString "-o") with
  | some (some value :: _) => .ok value
  | some _ => .error .undefined
  | none =>
      match a.filenames with
      | [] => .error .undefined
      | filename :: _ => .ok (behindSlash (beforeDot filename) ++ Bytes.ofString ".o")

/-! ### What a compiler does -/

/-- The part of a name behind the last slash. -/
def baseName (f : Bytes) : Bytes := f.rtakeWhile (· != 47)

/-- A name without its last dot and what follows it. -/
def stem (base : Bytes) : Bytes :=
  if (46 : UInt8) ∈ base then (base.rdropWhile (· != 46)).dropLast else base

theorem baseName_of_not_mem {f : Bytes} (h : (47 : UInt8) ∉ f) : baseName f = f :=
  List.rtakeWhile_eq_self_iff.2 fun _ hb => bne_iff_ne.2 fun heq => h (heq ▸ hb)

theorem baseName_append {base : Bytes} (h : (47 : UInt8) ∉ base) (dir : Bytes) :
    baseName (dir ++ 47 :: base) = base := by
  have hall : ∀ b ∈ base.reverse, (b != 47) = true := fun b hb =>
    bne_iff_ne.2 fun heq => h (heq ▸ List.mem_reverse.1 hb)
  rw [baseName, List.rtakeWhile, List.reverse_append, List.reverse_cons, List.append_assoc,
    List.takeWhile_append_of_pos hall]
  simp

theorem stem_of_not_mem {base : Bytes} (h : (46 : UInt8) ∉ base) : stem base = base := if_neg h

theorem stem_append {extension : Bytes} (h : (46 : UInt8) ∉ extension) (front : Bytes) :
    stem (front ++ 46 :: extension) = front := by
  have hall : ∀ b ∈ extension.reverse, (b != 46) = true := fun b hb =>
    bne_iff_ne.2 fun heq => h (heq ▸ List.mem_reverse.1 hb)
  rw [stem, if_pos (by simp), List.rdropWhile, List.reverse_append, List.reverse_cons,
    List.append_assoc, List.dropWhile_append_of_pos hall]
  simp

/-- The name that a compiler chooses holds no slash. -/
theorem not_mem_stem_baseName (f : Bytes) : (47 : UInt8) ∉ stem (baseName f) := by
  have hbase : (47 : UInt8) ∉ baseName f := by
    by_cases hf : (47 : UInt8) ∈ f
    · obtain ⟨dir, base, rfl, hbase⟩ := Bytes.exists_last hf
      rwa [baseName_append hbase]
    · rwa [baseName_of_not_mem hf]
  by_cases hdot : (46 : UInt8) ∈ baseName f
  · obtain ⟨front, extension, heq, hext⟩ := Bytes.exists_last hdot
    rw [heq, stem_append hext]
    rw [heq] at hbase
    exact fun hmem => hbase (List.mem_append_left _ hmem)
  · rwa [stem_of_not_mem hdot]

/-! ### Comparing the two -/

theorem beforeDot_of_not_mem {f : Bytes} (h : (46 : UInt8) ∉ f) : beforeDot f = f := by
  rw [beforeDot, findLastOf_eq_none h]
  exact List.take_length

theorem beforeDot_append {extension : Bytes} (h : (46 : UInt8) ∉ extension) (front : Bytes) :
    beforeDot (front ++ 46 :: extension) = front := by
  rw [beforeDot, findLastOf_append h]
  exact List.take_left

theorem behindSlash_of_not_mem {path : Bytes} (h : (47 : UInt8) ∉ path) :
    behindSlash path = path := by
  rw [behindSlash, findLastOf_eq_none h]
  rfl

theorem behindSlash_cons {name : Bytes} (h : (47 : UInt8) ∉ name) :
    behindSlash (47 :: name) = 47 :: name := by
  have hfind := findLastOf_append h []
  rw [List.nil_append] at hfind
  rw [behindSlash, hfind]
  rfl

theorem behindSlash_append {name : Bytes} (h : (47 : UInt8) ∉ name) {dir : Bytes}
    (hdir : dir ≠ []) : behindSlash (dir ++ 47 :: name) = name := by
  obtain ⟨b, dir, rfl⟩ := List.exists_cons_of_ne_nil hdir
  rw [behindSlash, findLastOf_append h]
  simp [List.drop_append]

/-- **Which paths are cut down to a name**: the name itself, and the name in a directory that is not
the root. -/
theorem behindSlash_eq_iff {path name : Bytes} (hname : (47 : UInt8) ∉ name) :
    behindSlash path = name ↔ path = name ∨ ∃ dir, dir ≠ [] ∧ path = dir ++ 47 :: name := by
  constructor
  · intro h
    by_cases hpath : (47 : UInt8) ∈ path
    · obtain ⟨dir, rest, rfl, hrest⟩ := Bytes.exists_last hpath
      by_cases hdir : dir = []
      · rw [hdir, List.nil_append, behindSlash_cons hrest] at h
        exact absurd (h ▸ List.mem_cons_self) hname
      · rw [behindSlash_append hrest hdir] at h
        exact Or.inr ⟨dir, hdir, by rw [h]⟩
    · rw [behindSlash_of_not_mem hpath] at h
      exact Or.inl h
  · rintro (rfl | ⟨dir, hdir, rfl⟩)
    · exact behindSlash_of_not_mem hname
    · exact behindSlash_append hname hdir

/-- **The sources for which the client chooses the same name.**  There is no directory; or there is
one, it is not the root, and the last dot does not stand in it; or it does stand there, and what
precedes it is by chance called as the file. -/
def NamedAlike (f : Bytes) : Prop :=
  (47 : UInt8) ∉ f ∨
    ∃ dir base, f = dir ++ 47 :: base ∧ (47 : UInt8) ∉ base ∧
      (((46 : UInt8) ∈ base ∨ (46 : UInt8) ∉ dir) ∧ dir ≠ [] ∨
        (46 : UInt8) ∉ base ∧ ∃ front back, dir = front ++ 46 :: back ∧ (46 : UInt8) ∉ back ∧
          (front = base ∨ ∃ dir', dir' ≠ [] ∧ front = dir' ++ 47 :: base))

/-- A source without a directory. -/
theorem behindSlash_beforeDot_of_not_mem {f : Bytes} (h : (47 : UInt8) ∉ f) :
    behindSlash (beforeDot f) = stem (baseName f) := by
  rw [baseName_of_not_mem h]
  by_cases hdot : (46 : UInt8) ∈ f
  · obtain ⟨front, extension, rfl, hext⟩ := Bytes.exists_last hdot
    rw [beforeDot_append hext, stem_append hext]
    exact behindSlash_of_not_mem fun hmem => h (List.mem_append_left _ hmem)
  · rw [beforeDot_of_not_mem hdot, stem_of_not_mem hdot, behindSlash_of_not_mem h]

/-- A source in a directory, with the last dot in its own name or no dot at all. -/
theorem behindSlash_beforeDot_append {dir base : Bytes} (hbase : (47 : UInt8) ∉ base)
    (hdot : (46 : UInt8) ∈ base ∨ (46 : UInt8) ∉ dir) :
    behindSlash (beforeDot (dir ++ 47 :: base)) = stem base ↔ dir ≠ [] := by
  -- what is left of the path before the dot is cut off is `dir`, a slash and the stem
  have hpath : ∃ name, (47 : UInt8) ∉ name ∧ stem base = name ∧
      beforeDot (dir ++ 47 :: base) = dir ++ 47 :: name := by
    by_cases hmem : (46 : UInt8) ∈ base
    · obtain ⟨front, extension, rfl, hext⟩ := Bytes.exists_last hmem
      refine ⟨front, fun h => hbase (List.mem_append_left _ h), stem_append hext front, ?_⟩
      rw [← List.cons_append, ← List.append_assoc, beforeDot_append hext]
    · refine ⟨base, hbase, stem_of_not_mem hmem, beforeDot_of_not_mem ?_⟩
      rw [List.mem_append, List.mem_cons, not_or, not_or]
      exact ⟨hdot.resolve_left hmem, by decide, hmem⟩
  obtain ⟨name, hname, hstem, hbefore⟩ := hpath
  rw [hbefore, hstem]
  constructor
  · rintro h rfl
    rw [List.nil_append, behindSlash_cons hname] at h
    exact hname (h ▸ List.mem_cons_self)
  · exact behindSlash_append hname

/-- A source in a directory that has the last dot in its name. -/
theorem behindSlash_beforeDot_dotted {front back base : Bytes} (hbase : (47 : UInt8) ∉ base)
    (hdot : (46 : UInt8) ∉ base) (hback : (46 : UInt8) ∉ back) :
    behindSlash (beforeDot (front ++ 46 :: back ++ 47 :: base)) = stem base ↔
      front = base ∨ ∃ dir', dir' ≠ [] ∧ front = dir' ++ 47 :: base := by
  have hrest : (46 : UInt8) ∉ back ++ 47 :: base := by
    rw [List.mem_append, List.mem_cons, not_or, not_or]
    exact ⟨hback, by decide, hdot⟩
  rw [List.append_assoc, List.cons_append, beforeDot_append hrest, stem_of_not_mem hdot]
  exact behindSlash_eq_iff hbase

/-- The two names are the same. -/
theorem behindSlash_beforeDot_iff (f : Bytes) :
    behindSlash (beforeDot f) = stem (baseName f) ↔ NamedAlike f := by
  by_cases hf : (47 : UInt8) ∈ f
  · constructor
    · intro h
      obtain ⟨dir, base, rfl, hbase⟩ := Bytes.exists_last hf
      rw [baseName_append hbase] at h
      refine Or.inr ⟨dir, base, rfl, hbase, ?_⟩
      by_cases hdot : (46 : UInt8) ∈ base ∨ (46 : UInt8) ∉ dir
      · exact Or.inl ⟨hdot, (behindSlash_beforeDot_append hbase hdot).1 h⟩
      · rw [not_or, not_not] at hdot
        obtain ⟨front, back, rfl, hback⟩ := Bytes.exists_last hdot.2
        exact Or.inr ⟨hdot.1, front, back, rfl, hback,
          (behindSlash_beforeDot_dotted hbase hdot.1 hback).1 h⟩
    · rintro (hno | ⟨dir, base, rfl, hbase, ⟨hdot, hdir⟩ | ⟨hdot, front, back, rfl, hback, hfront⟩⟩)
      · exact absurd hf hno
      · rw [baseName_append hbase]
        exact (behindSlash_beforeDot_append hbase hdot).2 hdir
      · rw [baseName_append hbase]
        exact (behindSlash_beforeDot_dotted hbase hdot hback).2 hfront
  · exact iff_of_true (behindSlash_beforeDot_of_not_mem hf) (Or.inl hf)

/-- **The client chooses the name that the compiler would choose if and only if** the source is
called so.  That name holds no slash. -/
theorem getOutputFile_iff {a : CompilerArgs} {f : Bytes}
    (ho : a.tryGet (Bytes.ofString "-o") = none) (hf : a.filenames = [f]) :
    (∃ name, a.getOutputFile = .ok name ∧ name = stem (baseName f) ++ Bytes.ofString ".o" ∧
        (47 : UInt8) ∉ name) ↔
      NamedAlike f := by
  have hfile : a.getOutputFile = .ok (behindSlash (beforeDot f) ++ Bytes.ofString ".o") := by
    simp only [CompilerArgs.getOutputFile, ho, hf]
  rw [hfile, ← behindSlash_beforeDot_iff]
  constructor
  · rintro ⟨name, hname, hstem, -⟩
    exact List.append_cancel_right ((Except.ok.inj hname).trans hstem)
  · intro h
    refine ⟨_, rfl, by rw [h], ?_⟩
    rw [h, List.mem_append, not_or]
    exact ⟨not_mem_stem_baseName f, by decide⟩

/-- `g++ -c` of one source. -/
def compileOnly (f : Bytes) : CompilerArgs where
  compiler := Bytes.ofString "/usr/bin/g++"
  args := [(Bytes.ofString "-c", [])]
  filenames := [f]
  rebuiltArg := Bytes.ofString "-c " ++ Common.escapeCommandArgument f

/-- `src/t.cc` is compiled to `t.o`. -/
theorem getOutputFile_directory :
    ∃ name, (compileOnly (Bytes.ofString "src/t.cc")).getOutputFile = .ok name ∧
      name = stem (baseName (Bytes.ofString "src/t.cc")) ++ Bytes.ofString ".o" ∧
      (47 : UInt8) ∉ name :=
  (getOutputFile_iff (by decide) rfl).2
    (Or.inr ⟨Bytes.ofString "src", Bytes.ofString "t.cc", by decide, by decide,
      Or.inl ⟨Or.inl (by decide), by decide⟩⟩)

/-- **A source for which the client chooses another name**: `/t.cc` is compiled to `/t.o`. -/
theorem getOutputFile_root :
    ¬∀ (compiler : Bytes) (argv : List Bytes) (a : CompilerArgs) (f : Bytes),
    CompilerArgs.ofArgv compiler argv = .ok a → a.tryGet (Bytes.ofString "-o") = none →
    a.filenames = [f] →
    ∃ name, a.getOutputFile = .ok name ∧ name = stem (baseName f) ++ Bytes.ofString ".o" ∧
      (47 : UInt8) ∉ name := by
  intro hall
  have hargs : CompilerArgs.ofArgv (Bytes.ofString "/usr/bin/g++")
      [Bytes.ofString "-c", Bytes.ofString "/t.cc"] =
        .ok (compileOnly (Bytes.ofString "/t.cc")) := by
    decide +kernel
  obtain ⟨name, hname, -, hslash⟩ := hall _ _ _ _ hargs (by decide) rfl
  have hroot : (compileOnly (Bytes.ofString "/t.cc")).getOutputFile =
      .ok (Bytes.ofString "/t.o") := by
    decide
  rw [← Except.ok.inj (hroot.symm.trans hname)] at hslash
  exact hslash (by decide)

end Client
