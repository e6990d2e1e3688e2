/-
**The arguments of a compiler, as the client reads them.**

The client stands in for the compiler and gets its command line.  `CompilerArgs` of
`client/cxx/compiler_args.cpp` sorts the arguments into options and file names: an option of a fixed
table takes the argument behind it as its value, any other argument with a dash is an option without
a value, and what is left is a file name.  From this the client makes the command lines of the
preprocessor and of the remote compile: `Rewrite` leaves out some options with their values, and
adds others.

The value of an option is the pointer behind it in `argv`.  For an option at the end of the command
line that is the null pointer that ends `argv`, and whoever makes a string of it does something
undefined.

Main definitions:

* `Client.CompilerArgs`, `Client.CompilerArgs.ofArgv` — the arguments, and how they are read;
* `Client.CompilerArgs.tryGet`, `Client.CompilerArgs.rewrite` — looking for an option, and
  rewriting;
* `Client.CompilerArgs.keeps` — the options that `Rewrite` keeps.

Main results:

* `Client.CompilerArgs.rewrite_spec` — **what is rewritten**, and when it is defined;
* `Client.CompilerArgs.isEntry_of_mem_parse` — **what is stored of an option**;
* `Client.CompilerArgs.mem_kOneValueArguments_of_null` — only an option of the table is without a
  value.
-/

import Distribuild.CommandLine

set_option relaxedAutoImplicit false
set_option autoImplicit false

namespace Client

/-- `StartWith`. -/
def startWith (s pattern : Bytes) : Bool := pattern.isPrefixOf s

/-- `EndWith`. -/
def endWith (s pattern : Bytes) : Bool := pattern.isSuffixOf s

/-- The options that the next argument is the value of. -/
def kOneValueArguments : List Bytes :=
  List.map Bytes.ofString [
    "-o", "-x", "-dyld-prefix", "-gcc-toolchain", "--param", "--sysroot",
    "--system-header-prefix", "-target", "--assert", "--allowable_client", "-arch",
    "-arch_only", "-arcmt-migrate-report-output", "--prefix", "-bundle_loader",
    "-dependency-dot", "-dependency-file", "-dylib_file", "-exported_symbols_list",
    "--bootclasspath", "--CLASSPATH", "--classpath", "--resource", "--encoding", "--extdirs",
    "-filelist", "-fmodule-implementation-of", "-fmodule-name", "-fmodules-user-build-path",
    "-fnew-alignment", "-force_load", "--output-class-directory", "-framework",
    "-frewrite-map-file", "-ftrapv-handler", "-image_base", "-init", "-install_name",
    "-lazy_framework", "-lazy_library", "-meabi", "-mhwdiv", "-mllvm",
    "-module-dependency-dir", "-mthread-model", "-multiply_defined",
    "-multiply_defined_unused", "-rpath", "--rtlib", "-seg_addr_table",
    "-seg_addr_table_filename", "-segs_read_only_addr", "-segs_read_write_addr",
    "-serialize-diagnostics", "--serialize-diagnostics", "-std", "--stdlib", "--force-link",
    "-umbrella", "-unexported_symbols_list", "-weak_library", "-weak_reference_mismatches",
    "-B", "-D", "-U", "-I", "-i", "--include-directory", "-L", "-l", "--library-directory",
    "-MF", "-MT", "-MQ", "-cxx-isystem", "-c-isystem", "-idirafter",
    "--include-directory-after", "-iframework", "-iframeworkwithsysroot", "-imacros",
    "-imultilib", "-iprefix", "--include-prefix", "-iquote", "-include", "-include-pch",
    "-isysroot", "-isystem", "-isystem-after", "-ivfsoverlay", "-iwithprefix",
    "--include-with-prefix", "--include-with-prefix-after", "-iwithprefixbefore",
    "--include-with-prefix-before", "-iwithsysroot"]

/-- The values of an option: none, or the pointer behind it, which may be the null pointer. -/
abbrev OptionArgs := List (Option Bytes)

structure CompilerArgs where
  compiler : Bytes
  args : List (Bytes × OptionArgs)
  filenames : List Bytes
  rebuiltArg : Bytes
deriving DecidableEq, Repr

namespace CompilerArgs

/-! ### Reading the arguments -/

/-- The options of a command line, in the order in which they stand, and the file names. -/
def parse : List Bytes → List (Bytes × OptionArgs) × List Bytes
  | [] => ([], [])
  | arg :: rest =>
      if arg ∈ kOneValueArguments then
        match rest with
        | [] => ([(arg, [none])], [])
        | value :: rest => ((arg, [some value]) :: (parse rest).1, (parse rest).2)
      else if arg.head? = some 45 then ((arg, []) :: (parse rest).1, (parse rest).2)
      else ((parse rest).1, arg :: (parse rest).2)

/-- The constructor, with the compiler that `SetCompiler` sets.  Without arguments it takes a blank
from the end of an empty string. -/
def ofArgv (compiler : Bytes) (argv : List Bytes) : Except Fault CompilerArgs :=
  if argv = [] then .error .undefined
  else
    .ok
      { compiler := compiler
        args := (parse argv).1
        filenames := (parse argv).2
        rebuiltArg := (argv.flatMap fun arg => Common.escapeCommandArgument arg ++ [32]).dropLast }

def tryGet (a : CompilerArgs) (key : Bytes) : Option OptionArgs :=
  (a.args.find? fun e => e.1 == key).map Prod.snd

/-- A `std::string` is made of every pointer. -/
def strings : OptionArgs → Except Fault (List Bytes)
  | [] => .ok []
  | none :: _ => .error .undefined
  | some value :: values => (strings values).map fun rest => value :: rest

/-! ### Rewriting -/

section Rewriting

variable (remove removePrefix : List Bytes)

/-- The option is kept: it is not to be removed, and it has no prefix that is to be removed. -/
def keeps (k : Bytes) : Bool :=
  !remove.contains k && !removePrefix.any fun e => startWith k e

/-- The loop of `Rewrite` over the options. -/
def rewriteOptions : List (Bytes × OptionArgs) → Except Fault (List Bytes)
  | [] => .ok []
  | (k, v) :: rest =>
      if keeps remove removePrefix k then do
        let values ← strings v
        let result ← rewriteOptions rest
        return k :: values ++ result
      else rewriteOptions rest

def rewrite (a : CompilerArgs) (add : List Bytes) (keepFilenames : Bool) :
    Except Fault RewrittenArgs := do
  let result ← rewriteOptions remove removePrefix a.args
  return { program_ := a.compiler
           args_ := result ++ add ++ if keepFilenames then a.filenames else [] }

end Rewriting

/-- Strings are made of pointers that are not null. -/
theorem strings_eq (v : OptionArgs) :
    strings v = if none ∈ v then .error .undefined else .ok (v.filterMap id) := by
  induction v with
  | nil => rfl
  | cons value v ih =>
      cases value with
      | none => rw [strings, if_pos List.mem_cons_self]
      | some value =>
          rw [strings, ih]
          by_cases hnull : none ∈ v
          · rw [if_pos hnull, if_pos (List.mem_cons_of_mem _ hnull)]
            rfl
          · rw [if_neg hnull, if_neg (by simpa using hnull)]
            rfl

/-- An option that is kept has a null pointer as its value. -/
def KeepsNull (remove removePrefix : List Bytes) (args : List (Bytes × OptionArgs)) : Prop :=
  ∃ e ∈ args, keeps remove removePrefix e.1 = true ∧ none ∈ e.2

instance (remove removePrefix : List Bytes) (args : List (Bytes × OptionArgs)) :
    Decidable (KeepsNull remove removePrefix args) :=
  inferInstanceAs (Decidable (∃ e ∈ args, _))

theorem rewriteOptions_eq (remove removePrefix : List Bytes) (args : List (Bytes × OptionArgs)) :
    rewriteOptions remove removePrefix args =
      if KeepsNull remove removePrefix args then .error .undefined
      else .ok ((args.filter fun e => keeps remove removePrefix e.1).flatMap fun e =>
        e.1 :: e.2.filterMap id) := by
  induction args with
  | nil => rfl
  | cons e rest ih =>
      obtain ⟨k, v⟩ := e
      have hcons : KeepsNull remove removePrefix ((k, v) :: rest) ↔
          (keeps remove removePrefix k = true ∧ none ∈ v) ∨ KeepsNull remove removePrefix rest := by
        simp only [KeepsNull, List.mem_cons, exists_eq_or_imp]
      rw [rewriteOptions, ih, strings_eq]
      by_cases hkeep : keeps remove removePrefix k = true
      · have hfilter : ((k, v) :: rest).filter (fun e => keeps remove removePrefix e.1) =
            (k, v) :: rest.filter fun e => keeps remove removePrefix e.1 :=
          List.filter_cons_of_pos hkeep
        rw [if_pos hkeep, hfilter, List.flatMap_cons]
        by_cases hnull : none ∈ v
        · rw [if_pos hnull, if_pos (hcons.2 (Or.inl ⟨hkeep, hnull⟩))]
          rfl
        · rw [if_neg hnull]
          by_cases hrest : KeepsNull remove removePrefix rest
          · rw [if_pos hrest, if_pos (hcons.2 (Or.inr hrest))]
            rfl
          · rw [if_neg hrest, if_neg (by rw [hcons]; simp [hnull, hrest])]
            rfl
      · have hfilter : ((k, v) :: rest).filter (fun e => keeps remove removePrefix e.1) =
            rest.filter fun e => keeps remove removePrefix e.1 := List.filter_cons_of_neg hkeep
        rw [if_neg hkeep, hfilter]
        by_cases hrest : KeepsNull remove removePrefix rest
        · rw [if_pos hrest, if_pos (hcons.2 (Or.inr hrest))]
        · rw [if_neg hrest, if_neg (by rw [hcons]; simp [hkeep, hrest])]

/-- **What is rewritten**: the options that are kept with their values, what is added, and the file
names.  It is undefined if the value of an option that is kept is the null pointer. -/
theorem rewrite_spec (a : CompilerArgs) (remove removePrefix add : List Bytes) (keepFilenames : Bool) :
    a.rewrite remove removePrefix add keepFilenames =
      if KeepsNull remove removePrefix a.args then .error .undefined
      else .ok
        { program_ := a.compiler
          args_ := ((a.args.filter fun e => keeps remove removePrefix e.1).flatMap fun e =>
              e.1 :: e.2.filterMap id) ++ add ++ if keepFilenames then a.filenames else [] } := by
  rw [rewrite, rewriteOptions_eq]
  split
  · rfl
  · rfl

/-- What may be stored of an option `k`: one of the table has one value, which is an argument or null,
and any other has none. -/
def IsEntry (argv : List Bytes) (k : Bytes) (v : OptionArgs) : Prop :=
  (k ∈ kOneValueArguments ∧ ∃ value, v = [value] ∧ ∀ token, value = some token → token ∈ argv) ∨
    (k ∉ kOneValueArguments ∧ v = [])

theorem IsEntry.mono {argv rest : List Bytes} {k : Bytes} {v : OptionArgs} (h : IsEntry rest k v)
    (hsub : rest ⊆ argv) : IsEntry argv k v := by
  rcases h with ⟨hk, value, hv, htoken⟩ | hnone
  · exact Or.inl ⟨hk, value, hv, fun token heq => hsub (htoken token heq)⟩
  · exact Or.inr hnone

/-- **What is stored of an option.** -/
theorem isEntry_of_mem_parse {argv : List Bytes} {k : Bytes} {v : OptionArgs}
    (h : (k, v) ∈ (parse argv).1) : IsEntry argv k v := by
  fun_induction parse argv with
  | case1 => cases h
  | case2 arg hmem =>
      cases List.mem_singleton.1 h
      exact Or.inl ⟨hmem, none, rfl, fun token heq => by cases heq⟩
  | case3 arg hmem value rest ih =>
      rcases List.mem_cons.1 h with heq | hrest
      · cases heq
        refine Or.inl ⟨hmem, some value, rfl, fun token heq => ?_⟩
        rw [← Option.some.inj heq]
        exact List.mem_cons_of_mem _ List.mem_cons_self
      · refine (ih hrest).mono fun token htoken => ?_
        exact List.mem_cons_of_mem _ (List.mem_cons_of_mem _ htoken)
  | case4 arg rest hmem hdash ih =>
      rcases List.mem_cons.1 h with heq | hrest
      · cases heq
        exact Or.inr ⟨hmem, rfl⟩
      · exact (ih hrest).mono (List.subset_cons_self _ _)
  | case5 arg rest hmem hdash ih => exact (ih h).mono (List.subset_cons_self _ _)

/-- Only an option of the table is without a value. -/
theorem mem_kOneValueArguments_of_null {argv : List Bytes} {k : Bytes} {v : OptionArgs}
    (h : (k, v) ∈ (parse argv).1) (hnull : none ∈ v) : k ∈ kOneValueArguments := by
  rcases isEntry_of_mem_parse h with ⟨hk, -⟩ | ⟨-, rfl⟩
  · exact hk
  · cases hnull

end CompilerArgs

end Client
