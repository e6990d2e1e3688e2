/-
**What becomes of a command line that is read and written again.**

The client reads the command line of the compiler and writes the command lines of the preprocessor
and of the remote compile from what it has read.  What a compiler makes of a command line depends on
which argument belongs to which option, so this module states it by *groups*: an option of the table
with the argument behind it, another option alone, a file name alone.  Read from the left, every
command line falls apart into groups in one way, unless an option of the table stands at its end.

Rewriting then keeps groups or drops them, as a whole, and puts the file names at the end.  And an
option of the table at the end is where the client reads the null pointer that ends `argv`.

Main definitions:

* `Client.TokenGroup`, `Client.Grouped` — the groups, and the command lines that fall apart into
  them;
* `Client.TokenGroup.kept` — the groups that are to be kept;
* `Client.StaysInside` — no pointer but those to arguments is read as an argument.

Main results:

* `Client.parse_of_grouped` — what is read of a command line that falls apart into groups;
* `Client.rewrite_grouped` — **rewriting loses nothing**: it keeps exactly the groups that are to be
  kept, and without any to be dropped only the order of the groups is changed;
* `Client.exists_grouped_iff` — a command line falls apart into groups if and only if no value is
  null;
* `Client.staysInside_iff` — **reading stays inside `argv` if and only if** there is an argument and
  the command line falls apart into groups.
-/

import Distribuild.ClientOutput
import Distribuild.ClientSubmit

set_option relaxedAutoImplicit false
set_option autoImplicit false

namespace Client

open CompilerArgs (parse ofArgv keeps KeepsNull)

/-! ### Groups -/

/-- Arguments that belong together. -/
inductive TokenGroup
  /-- An option of the table and its value. -/
  | valued (opt value : Bytes)
  /-- Another option. -/
  | single (opt : Bytes)
  /-- A file name. -/
  | file (name : Bytes)
deriving DecidableEq, Repr

namespace TokenGroup

def tokens : TokenGroup → List Bytes
  | valued opt value => [opt, value]
  | single opt => [opt]
  | file name => [name]

/-- The option, unless it is a file name. -/
def option? : TokenGroup → Option Bytes
  | valued opt _ => some opt
  | single opt => some opt
  | file _ => none

/-- **The groups that are to be kept**: the option is not one of those to be removed, and does not
start with one of the prefixes. -/
def kept (remove removePrefix : List Bytes) (group : TokenGroup) : Bool :=
  match group.option? with
  | none => false
  | some opt => decide (opt ∉ remove ∧ ∀ e ∈ removePrefix, ¬e <+: opt)

end TokenGroup

/-- The arguments, grouped from left to right. -/
inductive Grouped : List Bytes → List TokenGroup → Prop
  | nil : Grouped [] []
  | valued {opt value : Bytes} {rest : List Bytes} {groups : List TokenGroup} :
      opt ∈ kOneValueArguments → Grouped rest groups →
        Grouped (opt :: value :: rest) (.valued opt value :: groups)
  | single {opt : Bytes} {rest : List Bytes} {groups : List TokenGroup} :
      opt ∉ kOneValueArguments → opt.head? = some 45 → Grouped rest groups →
        Grouped (opt :: rest) (.single opt :: groups)
  | file {name : Bytes} {rest : List Bytes} {groups : List TokenGroup} :
      name ∉ kOneValueArguments → name.head? ≠ some 45 → Grouped rest groups →
        Grouped (name :: rest) (.file name :: groups)

/-- The groups make up the command line. -/
theorem Grouped.flatMap_tokens {argv : List Bytes} {groups : List TokenGroup}
    (h : Grouped argv groups) : groups.flatMap TokenGroup.tokens = argv := by
  induction h with
  | nil => rfl
  | valued _ _ ih => rw [List.flatMap_cons, ih]; rfl
  | single _ _ _ ih => rw [List.flatMap_cons, ih]; rfl
  | file _ _ _ ih => rw [List.flatMap_cons, ih]; rfl

/-- What is stored of a group among the options. -/
def TokenGroup.entry? : TokenGroup → Option (Bytes × OptionArgs)
  | valued opt value => some (opt, [some value])
  | single opt => some (opt, [])
  | file _ => none

/-- What is stored of it among the file names. -/
def TokenGroup.name? : TokenGroup → Option Bytes
  | valued _ _ => none
  | single _ => none
  | file name => some name

/-- **What is read** of a command line that falls apart into groups. -/
theorem parse_of_grouped {argv : List Bytes} {groups : List TokenGroup} (h : Grouped argv groups) :
    parse argv = (groups.filterMap TokenGroup.entry?, groups.filterMap TokenGroup.name?) := by
  induction h with
  | nil => rfl
  | valued hmem _ ih =>
      rw [CompilerArgs.parse.eq_def]
      simp only [if_pos hmem, ih, List.filterMap_cons]
      rfl
  | single hmem hdash _ ih =>
      rw [CompilerArgs.parse.eq_def]
      simp only [if_neg hmem, if_pos hdash, ih, List.filterMap_cons]
      rfl
  | file hmem hdash _ ih =>
      rw [CompilerArgs.parse.eq_def]
      simp only [if_neg hmem, if_neg hdash, ih, List.filterMap_cons]
      rfl

/-! ### Rewriting -/

/-- The options that `Rewrite` keeps are those that are to be kept. -/
theorem keeps_eq (remove removePrefix : List Bytes) (opt : Bytes) :
    keeps remove removePrefix opt =
      decide (opt ∉ remove ∧ ∀ e ∈ removePrefix, ¬e <+: opt) := by
  rw [keeps, Bool.eq_iff_iff]
  simp [startWith]

/-- What is written of an option that is kept is its group. -/
theorem kept_of_entry {group : TokenGroup} {e : Bytes × OptionArgs} (h : group.entry? = some e)
    (remove removePrefix : List Bytes) :
    group.kept remove removePrefix = keeps remove removePrefix e.1 ∧
      group.tokens = e.1 :: e.2.filterMap id := by
  rw [keeps_eq]
  cases group with
  | valued opt value =>
      cases h
      exact ⟨rfl, rfl⟩
  | single opt =>
      cases h
      exact ⟨rfl, rfl⟩
  | file name => cases h

/-- What is written of the options is made up of the groups that are kept. -/
theorem flatMap_entries (remove removePrefix : List Bytes) (groups : List TokenGroup) :
    ((groups.filterMap TokenGroup.entry?).filter fun e => keeps remove removePrefix e.1).flatMap
        (fun e => e.1 :: e.2.filterMap id) =
      (groups.filter (TokenGroup.kept remove removePrefix)).flatMap TokenGroup.tokens := by
  induction groups with
  | nil => rfl
  | cons group groups ih =>
      cases hentry : group.entry? with
      | none =>
          have hkept : group.kept remove removePrefix = false := by
            cases group with
            | valued opt value => cases hentry
            | single opt => cases hentry
            | file name => rfl
          rw [List.filterMap_cons_none hentry, List.filter_cons_of_neg (by rw [hkept]; simp), ih]
      | some e =>
          obtain ⟨hkept, htokens⟩ := kept_of_entry hentry remove removePrefix
          rw [List.filterMap_cons_some hentry]
          by_cases hkeeps : keeps remove removePrefix e.1 = true
          · rw [List.filter_cons, if_pos hkeeps, List.filter_cons_of_pos (hkept.trans hkeeps),
              List.flatMap_cons, List.flatMap_cons, ih, htokens]
          · rw [List.filter_cons, if_neg hkeeps, List.filter_cons_of_neg (by rwa [hkept]), ih]

/-- No value of a group is null. -/
theorem TokenGroup.none_not_mem_entry {group : TokenGroup} {e : Bytes × OptionArgs}
    (h : group.entry? = some e) : none ∉ e.2 := by
  cases group with
  | valued opt value =>
      cases h
      simp
  | single opt =>
      cases h
      simp
  | file name => cases h

theorem not_keepsNull (remove removePrefix : List Bytes) (groups : List TokenGroup) :
    ¬KeepsNull remove removePrefix (groups.filterMap TokenGroup.entry?) := by
  rintro ⟨e, he, -, hnull⟩
  obtain ⟨group, -, hgroup⟩ := List.mem_filterMap.1 he
  exact group.none_not_mem_entry hgroup hnull

/-- The file names are the groups that are no options. -/
theorem filterMap_name (groups : List TokenGroup) :
    groups.filterMap TokenGroup.name? =
      (groups.filter fun group => !group.option?.isSome).flatMap TokenGroup.tokens := by
  induction groups with
  | nil => rfl
  | cons group groups ih =>
      cases group with
      | valued opt value => exact ih
      | single opt => exact ih
      | file name => exact congrArg (name :: ·) ih

/-- With nothing to be removed, every option is kept. -/
theorem filter_kept_nil (groups : List TokenGroup) :
    groups.filter (TokenGroup.kept [] []) = groups.filter fun group => group.option?.isSome := by
  refine List.filter_congr fun group _ => ?_
  cases group with
  | valued opt value => simp [TokenGroup.kept, TokenGroup.option?]
  | single opt => simp [TokenGroup.kept, TokenGroup.option?]
  | file name => rfl

/-- The options and the file names of `a` are those that the constructor stores for `argv`. -/
def ReadFrom (a : CompilerArgs) (argv : List Bytes) : Prop := (a.args, a.filenames) = parse argv

theorem readFrom_of_ofArgv {compiler : Bytes} {argv : List Bytes} {a : CompilerArgs}
    (h : ofArgv compiler argv = .ok a) : ReadFrom a argv := by
  rw [ofArgv] at h
  split_ifs at h with hempty
  rw [← Except.ok.inj h]
  rfl

/-- What is rewritten of a command line that falls apart into groups. -/
theorem rewrite_of_grouped {argv : List Bytes} {groups : List TokenGroup} (h : Grouped argv groups)
    {a : CompilerArgs} (ha : ReadFrom a argv) (remove removePrefix add : List Bytes)
    (keepFilenames : Bool) :
    a.rewrite remove removePrefix add keepFilenames =
      .ok
        { program_ := a.compiler
          args_ :=
            (groups.filter (TokenGroup.kept remove removePrefix)).flatMap TokenGroup.tokens ++ add ++
              if keepFilenames then
                (groups.filter fun group => !group.option?.isSome).flatMap TokenGroup.tokens
              else [] } := by
  rw [ReadFrom, parse_of_grouped h, Prod.mk.injEq] at ha
  rw [CompilerArgs.rewrite_spec, ha.1, ha.2, if_neg (not_keepsNull _ _ _), flatMap_entries,
    filterMap_name]

/-- **Rewriting loses nothing.**  Of a command line that falls apart into groups it keeps exactly
those that are to be kept, each as a whole and in their order, then what is added and, if asked, the
file names in their order.  With nothing to be removed or added and the file names, what comes out
is the command line with the groups in another order. -/
theorem rewrite_grouped {argv : List Bytes} {groups : List TokenGroup} (h : Grouped argv groups)
    {a : CompilerArgs} (ha : ReadFrom a argv) :
    (∀ (remove removePrefix add : List Bytes) (keepFilenames : Bool),
      ∃ result, a.rewrite remove removePrefix add keepFilenames = .ok result ∧
        result.args_ =
          (groups.filter (TokenGroup.kept remove removePrefix)).flatMap TokenGroup.tokens ++ add ++
            if keepFilenames then
              (groups.filter fun group => !group.option?.isSome).flatMap TokenGroup.tokens
            else []) ∧
      ∃ result, a.rewrite [] [] [] true = .ok result ∧ result.args_.Perm argv ∧
        ∃ groups' : List TokenGroup, groups'.Perm groups ∧
          result.args_ = groups'.flatMap TokenGroup.tokens := by
  refine ⟨fun remove removePrefix add keepFilenames =>
    ⟨_, rewrite_of_grouped h ha remove removePrefix add keepFilenames, rfl⟩, ?_⟩
  -- the options come first, and then the file names
  have hperm : ((groups.filter fun group => group.option?.isSome) ++
      groups.filter fun group => !group.option?.isSome).Perm groups :=
    List.filter_append_perm _ groups
  have hargs := rewrite_of_grouped h ha [] [] [] true
  rw [filter_kept_nil, List.append_nil, if_pos rfl, ← List.flatMap_append] at hargs
  refine ⟨_, hargs, ?_, _, hperm, rfl⟩
  have htokens := hperm.flatMap_right TokenGroup.tokens
  rwa [h.flatMap_tokens] at htokens

/-- `g++ -c t.cc -D -c`: the second `-c` is a macro, and goes with `-D`. -/
def sampleGroups : List TokenGroup :=
  [.single (Bytes.ofString "-c"), .file (Bytes.ofString "t.cc"),
    .valued (Bytes.ofString "-D") (Bytes.ofString "-c")]

theorem grouped_sample :
    Grouped (List.map Bytes.ofString ["-c", "t.cc", "-D", "-c"]) sampleGroups :=
  .single (by decide +kernel) (by decide)
    (.file (by decide +kernel) (by decide) (.valued (by decide +kernel) .nil))

/-- What was read of it. -/
def sampleGroupedArgs : CompilerArgs where
  compiler := Bytes.ofString "/usr/bin/g++"
  args := [(Bytes.ofString "-c", []), (Bytes.ofString "-D", [some (Bytes.ofString "-c")])]
  filenames := [Bytes.ofString "t.cc"]
  rebuiltArg := Bytes.ofString "-c t.cc -D -c"

/-- With `-c` removed, the macro of that name stays. -/
theorem rewrite_sample : ∃ result,
    sampleGroupedArgs.rewrite [Bytes.ofString "-c"] [] [] true = .ok result ∧
      result.args_ = List.map Bytes.ofString ["-D", "-c", "t.cc"] :=
  (rewrite_grouped grouped_sample (by rw [ReadFrom]; decide +kernel)).1
    [Bytes.ofString "-c"] [] [] true

/-! ### Staying inside `argv` -/

/-- **A command line falls apart into groups if and only if no value is null.** -/
theorem exists_grouped_iff (argv : List Bytes) :
    (∃ groups, Grouped argv groups) ↔ ∀ e ∈ (parse argv).1, none ∉ e.2 := by
  constructor
  · rintro ⟨groups, h⟩ e he hnull
    rw [parse_of_grouped h] at he
    obtain ⟨group, -, hgroup⟩ := List.mem_filterMap.1 he
    exact TokenGroup.none_not_mem_entry hgroup hnull
  · intro h
    fun_induction parse argv with
    | case1 => exact ⟨[], .nil⟩
    | case2 arg hmem => exact absurd (List.mem_singleton_self none) (h _ List.mem_cons_self)
    | case3 arg hmem value rest ih =>
        obtain ⟨groups, hgroups⟩ := ih fun e he => h e (List.mem_cons_of_mem _ he)
        exact ⟨_, .valued hmem hgroups⟩
    | case4 arg rest hmem hdash ih =>
        obtain ⟨groups, hgroups⟩ := ih fun e he => h e (List.mem_cons_of_mem _ he)
        exact ⟨_, .single hmem hdash hgroups⟩
    | case5 arg rest hmem hdash ih =>
        obtain ⟨groups, hgroups⟩ := ih h
        exact ⟨_, .file hmem hdash hgroups⟩

/-- **No pointer but those to arguments is read as an argument**: the values of the options are
arguments; and `GetOutputFile`, `DetermineLanguage` and `Rewrite` find a string wherever they make
one of a value.  (The first two take a file name if their option is not there.) -/
structure StaysInside (argv : List Bytes) (a : CompilerArgs) : Prop where
  values : ∀ e ∈ a.args, ∀ value ∈ e.2, ∃ token ∈ argv, value = some token
  outputFile : (a.tryGet (Bytes.ofString "-o")).isSome = true ∨ a.filenames ≠ [] →
    ∃ name, a.getOutputFile = .ok name
  language : (a.tryGet (Bytes.ofString "-x")).isSome = true ∨ a.filenames ≠ [] →
    ∃ language, determineLanguage a = .ok language
  rewrite : ∀ remove removePrefix add keepFilenames,
    ∃ result, a.rewrite remove removePrefix add keepFilenames = .ok result

/-- The first value of an option of the table that is there. -/
theorem tryGet_of_grouped {argv : List Bytes} {groups : List TokenGroup} (h : Grouped argv groups)
    {a : CompilerArgs} (ha : ReadFrom a argv) {key : Bytes} (hkey : key ∈ kOneValueArguments)
    {v : OptionArgs} (hv : a.tryGet key = some v) : ∃ value, v = [some value] := by
  obtain ⟨e, he, rfl⟩ := Option.map_eq_some_iff.1 hv
  have hmem : e ∈ (parse argv).1 := by
    rw [← ha]
    exact List.mem_of_find?_eq_some he
  have hname : e.1 = key := by simpa using List.find?_some he
  rcases CompilerArgs.isEntry_of_mem_parse hmem with ⟨-, value, hvalue, -⟩ | ⟨hno, -⟩
  · cases value with
    | none =>
        have hnull := (exists_grouped_iff argv).1 ⟨groups, h⟩ e hmem
        rw [hvalue] at hnull
        exact absurd (List.mem_singleton_self none) hnull
    | some value => exact ⟨value, hvalue⟩
  · exact absurd (hname ▸ hkey) hno

/-- Groups keep everything inside. -/
theorem staysInside_of_grouped {argv : List Bytes} {groups : List TokenGroup}
    (h : Grouped argv groups) {a : CompilerArgs} (ha : ReadFrom a argv) : StaysInside argv a := by
  have hargs : a.args = (parse argv).1 := congrArg Prod.fst ha
  refine ⟨?_, ?_, ?_, fun remove removePrefix add keepFilenames =>
    ⟨_, rewrite_of_grouped h ha remove removePrefix add keepFilenames⟩⟩
  · intro e he value hvalue
    rw [hargs] at he
    cases value with
    | none => exact absurd hvalue ((exists_grouped_iff argv).1 ⟨groups, h⟩ e he)
    | some token =>
        rcases CompilerArgs.isEntry_of_mem_parse he with ⟨-, value, hv, htoken⟩ | ⟨-, hv⟩
        · rw [hv, List.mem_singleton] at hvalue
          exact ⟨token, htoken token hvalue.symm, rfl⟩
        · rw [hv] at hvalue
          cases hvalue
  · intro hthere
    rw [CompilerArgs.getOutputFile]
    cases hopt : a.tryGet (Bytes.ofString "-o") with
    | some v =>
        obtain ⟨value, rfl⟩ := tryGet_of_grouped h ha (by decide +kernel) hopt
        exact ⟨value, rfl⟩
    | none =>
        rw [hopt] at hthere
        obtain ⟨filename, rest, hfiles⟩ :=
          List.exists_cons_of_ne_nil (hthere.resolve_left (by simp))
        rw [hfiles]
        exact ⟨_, rfl⟩
  · intro hthere
    rw [determineLanguage]
    cases hopt : a.tryGet (Bytes.ofString "-x") with
    | some v =>
        obtain ⟨value, rfl⟩ := tryGet_of_grouped h ha (by decide +kernel) hopt
        exact ⟨some value, rfl⟩
    | none =>
        rw [hopt] at hthere
        obtain ⟨filename, rest, hfiles⟩ :=
          List.exists_cons_of_ne_nil (hthere.resolve_left (by simp))
        rw [hfiles]
        dsimp only
        split_ifs
        · exact ⟨_, rfl⟩
        · exact ⟨_, rfl⟩
        · exact ⟨_, rfl⟩

/-- **Reading stays inside `argv` if and only if** there is an argument and the command line falls
apart into groups: without an argument a character is taken from an empty string, and an option of
the table at the end is given the null pointer that ends `argv`. -/
theorem staysInside_iff (compiler : Bytes) (argv : List Bytes) :
    (∃ a, ofArgv compiler argv = .ok a ∧ StaysInside argv a) ↔
      argv ≠ [] ∧ ∃ groups, Grouped argv groups := by
  constructor
  · rintro ⟨a, ha, hinside⟩
    refine ⟨?_, (exists_grouped_iff argv).2 fun e he hnull => ?_⟩
    · rintro rfl
      cases ha
    · have hargs : a.args = (parse argv).1 := congrArg Prod.fst (readFrom_of_ofArgv ha)
      obtain ⟨token, -, hnone⟩ := hinside.values e (hargs ▸ he) none hnull
      cases hnone
  · rintro ⟨hne, groups, h⟩
    have hargv : ∃ a, ofArgv compiler argv = .ok a := ⟨_, if_neg hne⟩
    obtain ⟨a, ha⟩ := hargv
    exact ⟨a, ha, staysInside_of_grouped h (readFrom_of_ofArgv ha)⟩

/-- **A command line that is not read inside `argv`**: `distribuild g++ -c t.cc -o`. -/
theorem staysInside_lastOption :
    ¬∀ (compiler : Bytes) (argv : List Bytes),
      ∃ a, ofArgv compiler argv = .ok a ∧ StaysInside argv a := by
  intro hall
  obtain ⟨a, ha, hinside⟩ := hall (Bytes.ofString "/usr/bin/g++")
    (List.map Bytes.ofString ["-c", "t.cc", "-o"])
  have hparse : (parse (List.map Bytes.ofString ["-c", "t.cc", "-o"])).1 =
      [(Bytes.ofString "-c", []), (Bytes.ofString "-o", [none])] := by
    decide +kernel
  have hargs : a.args = _ := congrArg Prod.fst (readFrom_of_ofArgv ha)
  rw [hparse] at hargs
  obtain ⟨token, -, hnone⟩ := hinside.values (Bytes.ofString "-o", [none]) (by simp [hargs]) none
    List.mem_cons_self
  cases hnone

end Client
