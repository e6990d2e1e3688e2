/-
**The command line of a remote compile.**

The client turns the arguments of a compile into one text: `EscapeCommandArgument` writes a
backslash before what a shell would not take literally, and `RewrittenArgs::ToCommandLine` puts
blanks between the arguments.  The build server puts that text behind the path of the compiler and
hands it to `sh -c`.  What the compiler gets is therefore what `Shell.reader` makes of it.

The escaper is a table of bytes, and three things are wrong with it.  The bar and the single quote
are not in it.  The seven control characters that C has a letter for are written as a backslash and
that letter, which a shell reads as the letter.  And a `~` at the beginning of an argument is not in
it either, which matters to a shell that expands it.

Main definitions:

* `Common.escapeByte`, `Common.escapeCommandArgument` — the escaper;
* `Client.RewrittenArgs.toCommandLine` — the command line;
* `Client.Argument` — a string that can be an argument: not empty, and without a NUL;
* `Client.Survives` — the arguments that the escaper gets right.

Main results:

* `Common.read_escapeByte_inWord`, `Common.read_escapeByte_between` — what the reader makes of one
  byte of an argument;
* `Common.read_argument` — and of one argument;
* `Client.reads_toCommandLine_iff` — **the shell reads the arguments that were written if and only
  if every one of them is of this kind**.
-/

import Distribuild.Shell

set_option relaxedAutoImplicit false
set_option autoImplicit false

namespace Common

/-! ### The escaper -/

/-- The letter that C has for a control character. -/
def controlLetter : UInt8 → Option UInt8
  | 7 => some 97    -- \a
  | 8 => some 98    -- \b
  | 12 => some 102  -- \f
  | 10 => some 110  -- \n
  | 13 => some 114  -- \r
  | 9 => some 116   -- \t
  | 11 => some 118  -- \v
  | _ => none

/-- The bytes that get a backslash. -/
def escapedBytes : Bytes := Bytes.ofString " ><!\"#$&()*,:;?@[\\]`\x7b\x7d"

/-- What is written for one byte. -/
def escapeByte (b : UInt8) : Bytes :=
  match controlLetter b with
  | some letter => [92, letter]
  | none => if b ∈ escapedBytes then [92, b] else [b]

/-- `EscapeCommandArgument`. -/
def escapeCommandArgument (str : Bytes) : Bytes := str.flatMap escapeByte

/-- The byte is not written as it is. -/
def escapes (b : UInt8) : Bool := (controlLetter b).isSome || decide (b ∈ escapedBytes)

/-- The byte that a shell takes out of what is written for a byte. -/
def carried (b : UInt8) : UInt8 := (controlLetter b).getD b

/-- The two bytes that have an effect and are written as they are. -/
def missed (b : UInt8) : Bool := b == 124 || b == 39

theorem escapeByte_of_escapes {b : UInt8} (h : escapes b = true) : escapeByte b = [92, carried b] := by
  cases hc : controlLetter b with
  | some letter => simp only [escapeByte, carried, hc, Option.getD_some]
  | none =>
      have hb : b ∈ escapedBytes := by simpa [escapes, hc] using h
      simp only [escapeByte, carried, hc, hb, if_true, Option.getD_none]

theorem escapeByte_of_not_escapes {b : UInt8} (h : escapes b = false) :
    escapeByte b = [b] ∧ carried b = b := by
  simp only [escapes, Bool.or_eq_false_iff, Option.isSome_eq_false_iff, Option.isNone_iff_eq_none,
    decide_eq_false_iff_not] at h
  simp only [escapeByte, carried, h.1, h.2, if_false, Option.getD_none, and_self]

/-- Only the control characters are changed, and none is changed into a line end. -/
theorem carried_eq_self_iff (b : UInt8) : carried b = b ↔ controlLetter b = none := by
  unfold carried controlLetter
  split
  all_goals simp

theorem carried_ne_newline (b : UInt8) : carried b ≠ 10 := by
  unfold carried controlLetter
  split
  all_goals simp_all

/-- What is written as it is is not special, the two missed bytes apart. -/
theorem notMem_special {b : UInt8} (h : escapes b = false) (hm : missed b = false) :
    b ∉ Shell.special := by
  intro hb
  have hall : (Shell.special.all fun c => escapes c || missed c) = true := rfl
  rcases Bool.or_eq_true_iff.1 (List.all_eq_true.1 hall b hb) with he | he
  · exact absurd (h.symm.trans he) Bool.false_ne_true
  · exact absurd (hm.symm.trans he) Bool.false_ne_true

/-! ### What the reader makes of it -/

section Reading

variable (tildes : Bool) (words : List Bytes)

/-- The reader on what is written for a byte that is escaped. -/
theorem read_escaped {b : UInt8} (current : Option Bytes) (tilde : Bool) (h : escapes b = true) :
    (Shell.reader tildes).run ⟨words, current, .plain, tilde⟩ (escapeByte b) =
        ⟨words, some (current.getD [] ++ [carried b]), .plain, false⟩ ∧
      Shell.Quiet ((Shell.reader tildes).trace ⟨words, current, .plain, tilde⟩ (escapeByte b)) := by
  rw [escapeByte_of_escapes h]
  simp only [Machine.run_cons, Machine.run_nil, Machine.trace_cons, Machine.trace_nil, Machine.next,
    Machine.out, Shell.step_backslash, Shell.step_escaped _ _ _ _ (carried_ne_newline b),
    Shell.quiet_cons, Shell.quiet_nil, and_self]

/-- The reader on what is written for a byte inside a word. -/
theorem read_escapeByte_inWord {b : UInt8} (word : Bytes) (tilde : Bool) (h : missed b = false) :
    (Shell.reader tildes).run ⟨words, some word, .plain, tilde⟩ (escapeByte b) =
        ⟨words, some (word ++ [carried b]), .plain, tilde && decide (b ≠ 47) && !escapes b⟩ ∧
      (Shell.Quiet ((Shell.reader tildes).trace ⟨words, some word, .plain, tilde⟩ (escapeByte b)) ↔
        ¬ (tilde = true ∧ b = 47)) := by
  cases he : escapes b with
  | true =>
      obtain ⟨hrun, hquiet⟩ := read_escaped tildes words (some word) tilde he
      have hslash : b ≠ 47 := by
        rintro rfl
        exact absurd he (by decide)
      refine ⟨?_, iff_of_true hquiet fun hb => hslash hb.2⟩
      rw [hrun]
      simp
  | false =>
      obtain ⟨hescape, hcarried⟩ := escapeByte_of_not_escapes he
      rw [hescape, hcarried]
      simp only [Machine.run_cons, Machine.run_nil, Machine.trace_cons, Machine.trace_nil, Machine.next,
        Machine.out, Shell.step_inWord tildes words tilde word (notMem_special he h), Shell.quiet_cons,
        Shell.quiet_nil]
      simp

/-- The reader on what is written for the first byte of a word. -/
theorem read_escapeByte_between {b : UInt8} (h : missed b = false) :
    (Shell.reader tildes).run (.between words) (escapeByte b) =
        ⟨words, some [carried b], .plain, tildes && decide (b = 126)⟩ ∧
      Shell.Quiet ((Shell.reader tildes).trace (.between words) (escapeByte b)) := by
  cases he : escapes b with
  | true =>
      have htilde : b ≠ 126 := by
        rintro rfl
        exact absurd he (by decide)
      obtain ⟨hrun, hquiet⟩ := read_escaped tildes words none false he
      refine ⟨hrun.trans ?_, hquiet⟩
      simp [htilde]
  | false =>
      obtain ⟨hescape, hcarried⟩ := escapeByte_of_not_escapes he
      rw [hescape, hcarried]
      simp only [Machine.run_cons, Machine.run_nil, Machine.trace_cons, Machine.trace_nil, Machine.next,
        Machine.out, Shell.step_between tildes words (notMem_special he h), Shell.quiet_cons,
        Shell.quiet_nil, and_self]

/-- A missed byte has an effect, wherever it stands. -/
theorem not_quiet_of_missed {b : UInt8} (s : Shell.State) (hs : s.mode = .plain)
    (h : missed b = true) : ¬ Shell.Quiet ((Shell.reader tildes).trace s (escapeByte b)) := by
  have hstep : ∃ e, escapeByte b = [b] ∧ (Shell.readPlain tildes s b).2 = some e := by
    simp only [missed, Bool.or_eq_true, beq_iff_eq] at h
    rcases h with rfl | rfl
    · exact ⟨.operator, rfl, rfl⟩
    · exact ⟨.quoteRemoval, rfl, rfl⟩
  obtain ⟨e, hescape, hout⟩ := hstep
  intro hquiet
  simp only [hescape, Machine.trace_cons, Machine.trace_nil, Machine.out, Shell.reader, hs, hout,
    Shell.quiet_cons, reduceCtorEq, false_and] at hquiet

/-- The bytes after the first of an argument, and the blank behind it.  The tilde prefix that the
word may have begun with takes effect at the first slash or at the blank, unless a byte before that
is escaped. -/
theorem read_rest (rest : Bytes) (h : ∀ b ∈ rest, missed b = false) :
    ∀ (word : Bytes) (tilde : Bool),
      (Shell.reader tildes).run ⟨words, some word, .plain, tilde⟩
          (escapeCommandArgument rest ++ [32]) = .between (words ++ [word ++ rest.map carried]) ∧
        (Shell.Quiet ((Shell.reader tildes).trace ⟨words, some word, .plain, tilde⟩
            (escapeCommandArgument rest ++ [32])) ↔
          ¬ (tilde = true ∧ ∀ b ∈ rest.takeWhile (· ≠ 47), escapes b = false)) := by
  induction rest with
  | nil =>
      intro word tilde
      simp only [escapeCommandArgument, List.flatMap_nil, List.nil_append, Machine.run_cons,
        Machine.run_nil, Machine.trace_cons, Machine.trace_nil, Machine.next, Machine.out,
        Shell.step_blank, Shell.quiet_cons, Shell.quiet_nil]
      simp
  | cons b rest ih =>
      intro word tilde
      rw [List.forall_mem_cons] at h
      obtain ⟨hrun, hquiet⟩ := read_escapeByte_inWord tildes words word tilde h.1
      obtain ⟨hrun', hquiet'⟩ := ih h.2 (word ++ [carried b]) (tilde && decide (b ≠ 47) && !escapes b)
      have htext : escapeCommandArgument (b :: rest) ++ [32] =
          escapeByte b ++ (escapeCommandArgument rest ++ [32]) := by
        rw [escapeCommandArgument, List.flatMap_cons, List.append_assoc]
        rfl
      rw [htext, Machine.run_append, Machine.trace_append, Shell.quiet_append, hrun, hrun', hquiet,
        hquiet']
      refine ⟨by simp, ?_⟩
      by_cases hslash : b = 47
      · simp [hslash]
      · have htake : (b :: rest).takeWhile (· ≠ 47) = b :: rest.takeWhile (· ≠ 47) :=
          List.takeWhile_cons_of_pos (decide_eq_true hslash)
        rw [htake, List.forall_mem_cons]
        clear hrun hquiet hrun' hquiet' ih htext
        cases escapes b
        all_goals simp [hslash]

theorem not_quiet_rest (rest : Bytes) (h : ∃ b ∈ rest, missed b = true) :
    ∀ (word : Bytes) (tilde : Bool),
      ¬ Shell.Quiet ((Shell.reader tildes).trace ⟨words, some word, .plain, tilde⟩
          (escapeCommandArgument rest)) := by
  induction rest with
  | nil => simp at h
  | cons b rest ih =>
      intro word tilde hquiet
      rw [escapeCommandArgument, List.flatMap_cons, Machine.trace_append, Shell.quiet_append] at hquiet
      cases hb : missed b with
      | true => exact not_quiet_of_missed tildes _ rfl hb hquiet.1
      | false =>
          rw [(read_escapeByte_inWord tildes words word tilde hb).1] at hquiet
          have hrest : ∃ c ∈ rest, missed c = true := by simpa [hb] using h
          exact ih hrest _ _ hquiet.2

/-- The argument has a tilde prefix of which nothing is escaped. -/
def HasTildePrefix (arg : Bytes) : Prop :=
  arg.head? = some 126 ∧ ∀ b ∈ arg.takeWhile (· ≠ 47), escapes b = false

instance (arg : Bytes) : Decidable (HasTildePrefix arg) := inferInstanceAs (Decidable (_ ∧ _))

/-- Something takes effect in what is written for the argument. -/
def Stirs (arg : Bytes) : Prop :=
  (∃ b ∈ arg, missed b = true) ∨ (tildes = true ∧ HasTildePrefix arg)

/-- **The reader on one argument**: it is quiet unless the argument stirs something, and then it has
read one word, the argument with its control characters replaced. -/
theorem read_argument {arg : Bytes} (h : arg ≠ []) :
    (Shell.Quiet ((Shell.reader tildes).trace (.between words) (escapeCommandArgument arg ++ [32])) ↔
        ¬ Stirs tildes arg) ∧
      (¬ Stirs tildes arg →
        (Shell.reader tildes).run (.between words) (escapeCommandArgument arg ++ [32]) =
          .between (words ++ [arg.map carried])) := by
  obtain ⟨b, rest, rfl⟩ := List.exists_cons_of_ne_nil h
  have htext : escapeCommandArgument (b :: rest) ++ [32] =
      escapeByte b ++ (escapeCommandArgument rest ++ [32]) := by
    rw [escapeCommandArgument, List.flatMap_cons, List.append_assoc]
    rfl
  rw [htext, Machine.run_append, Machine.trace_append, Shell.quiet_append]
  cases hb : missed b with
  | true =>
      have hstirs : Stirs tildes (b :: rest) := Or.inl ⟨b, List.mem_cons_self .., hb⟩
      exact ⟨iff_of_false (fun hq => not_quiet_of_missed tildes _ rfl hb hq.1) (not_not_intro hstirs),
        fun hno => absurd hstirs hno⟩
  | false =>
      obtain ⟨hrun, hquiet⟩ := read_escapeByte_between tildes words hb
      rw [hrun]
      by_cases hrest : ∃ c ∈ rest, missed c = true
      · have hstirs : Stirs tildes (b :: rest) := by
          obtain ⟨c, hc, hm⟩ := hrest
          exact Or.inl ⟨c, List.mem_cons_of_mem _ hc, hm⟩
        refine ⟨iff_of_false ?_ (not_not_intro hstirs), fun hno => absurd hstirs hno⟩
        rintro ⟨-, hq⟩
        rw [Machine.trace_append, Shell.quiet_append] at hq
        exact not_quiet_rest tildes words rest hrest _ _ hq.1
      · have hclean : ∀ c ∈ rest, missed c = false := by simpa using hrest
        obtain ⟨hrun', hquiet'⟩ := read_rest tildes words rest hclean [carried b]
          (tildes && decide (b = 126))
        have hstirs : Stirs tildes (b :: rest) ↔ (tildes && decide (b = 126)) = true ∧
            ∀ c ∈ rest.takeWhile (· ≠ 47), escapes c = false := by
          have hnone : ¬ ∃ c ∈ b :: rest, missed c = true := by simpa [hb] using hclean
          rw [Stirs, or_iff_right hnone, HasTildePrefix, Bool.and_eq_true, decide_eq_true_eq,
            List.head?_cons, Option.some_inj, and_assoc]
          refine and_congr_right fun _ => and_congr_right fun htilde => ?_
          rw [htilde, List.takeWhile_cons_of_pos (by decide), List.forall_mem_cons]
          exact and_iff_right (by decide)
        rw [hrun', hquiet', hstirs]
        exact ⟨and_iff_right hquiet, fun _ => rfl⟩

/-- The reader on all the arguments, each with a blank behind it. -/
theorem read_arguments (args : List Bytes) (h : ∀ arg ∈ args, arg ≠ []) :
    ∀ words, (Shell.Quiet ((Shell.reader tildes).trace (.between words)
          (args.flatMap fun e => escapeCommandArgument e ++ [32])) ↔ ∀ arg ∈ args, ¬ Stirs tildes arg) ∧
      ((∀ arg ∈ args, ¬ Stirs tildes arg) →
        (Shell.reader tildes).run (.between words)
            (args.flatMap fun e => escapeCommandArgument e ++ [32]) =
          .between (words ++ args.map (List.map carried))) := by
  induction args with
  | nil => intro words; simp
  | cons arg args ih =>
      intro words
      rw [List.forall_mem_cons] at h
      obtain ⟨hquiet, hrun⟩ := read_argument tildes words h.1
      rw [List.flatMap_cons, Machine.run_append, Machine.trace_append, Shell.quiet_append,
        List.forall_mem_cons, hquiet]
      refine ⟨and_congr_right fun hno => ?_, ?_⟩
      · rw [hrun hno]
        exact (ih h.2 _).1
      · rintro ⟨hno, hrest⟩
        rw [hrun hno, (ih h.2 _).2 hrest, List.append_assoc, List.map_cons, List.singleton_append]

end Reading

end Common

namespace Client

/-- `RewrittenArgs`. -/
structure RewrittenArgs where
  program_ : Bytes
  args_ : List Bytes
deriving DecidableEq, Repr

/-- `RewrittenArgs::ToCommandLine`. -/
def RewrittenArgs.toCommandLine (args : RewrittenArgs) (withProgram : Bool) : Bytes :=
  let result := if withProgram then args.program_ ++ [32] else []
  let result := result ++ args.args_.flatMap fun e => Common.escapeCommandArgument e ++ [32]
  -- `pop_back` of the last blank.
  if result = [] then [] else result.dropLast

/-- `ToCommandLine(false)` with the blank that follows it on the build server. -/
theorem RewrittenArgs.toCommandLine_blank (args : RewrittenArgs) (h : args.args_ ≠ []) :
    args.toCommandLine false ++ [32] =
      args.args_.flatMap fun e => Common.escapeCommandArgument e ++ [32] := by
  obtain ⟨init, last, hargs⟩ := List.eq_nil_or_concat args.args_ |>.resolve_left h
  have htext : (args.args_.flatMap fun e => Common.escapeCommandArgument e ++ [32]) =
      ((init.flatMap fun e => Common.escapeCommandArgument e ++ [32]) ++
        Common.escapeCommandArgument last) ++ [32] := by
    rw [hargs, List.concat_eq_append, List.flatMap_append, List.flatMap_singleton, List.append_assoc]
  simp only [toCommandLine, Bool.false_eq_true, if_false, List.nil_append, htext]
  rw [if_neg (by simp), List.dropLast_concat]

/-! ### What survives -/

/-- A string that can be an argument: it is not empty and holds no NUL. -/
abbrev Argument := { arg : Bytes // arg ≠ [] ∧ 0 ∉ arg }

/-- The arguments that the escaper gets right: they hold no bar, no single quote and none of the
seven control characters, and if a `~` is expanded, then they do not begin with one, or something is
escaped before the first slash. -/
def Survives (tildes : Bool) (arg : Bytes) : Prop :=
  124 ∉ arg ∧ 39 ∉ arg ∧ (∀ b ∈ [7, 8, 9, 10, 11, 12, 13], b ∉ arg) ∧
    (tildes = true → arg.head? = some 126 → ∃ b ∈ arg.takeWhile (· ≠ 47), b ∈ Common.escapedBytes)

instance (tildes : Bool) (arg : Bytes) : Decidable (Survives tildes arg) :=
  inferInstanceAs (Decidable (_ ∧ _))

theorem controlLetter_eq_none_iff (b : UInt8) :
    Common.controlLetter b = none ↔ b ∉ ([7, 8, 9, 10, 11, 12, 13] : Bytes) := by
  unfold Common.controlLetter
  split
  all_goals simp_all

/-- The control characters are those that the reader gets changed. -/
theorem map_carried_eq_self_iff (arg : Bytes) :
    arg.map Common.carried = arg ↔ ∀ b ∈ arg, Common.controlLetter b = none := by
  conv_lhs => rhs; rw [← List.map_id arg]
  rw [List.map_inj_left]
  exact forall₂_congr fun b _ => Common.carried_eq_self_iff b

/-- What survives is what stirs nothing and holds no control character. -/
theorem survives_iff (tildes : Bool) (arg : Bytes) :
    Survives tildes arg ↔ ¬ Common.Stirs tildes arg ∧ arg.map Common.carried = arg := by
  have hmissed : (¬ ∃ b ∈ arg, Common.missed b = true) ↔ 124 ∉ arg ∧ 39 ∉ arg := by
    simp only [Common.missed, Bool.or_eq_true, beq_iff_eq]
    grind
  have hcontrol : (∀ b ∈ ([7, 8, 9, 10, 11, 12, 13] : Bytes), b ∉ arg) ↔
      ∀ b ∈ arg, Common.controlLetter b = none := by
    simp only [controlLetter_eq_none_iff]
    exact ⟨fun h b hb hc => h b hc hb, fun h b hc hb => h b hb hc⟩
  rw [Survives, Common.Stirs, not_or, hmissed, map_carried_eq_self_iff, hcontrol, and_assoc, and_assoc]
  refine and_congr_right fun _ => and_congr_right fun _ => ?_
  rw [and_comm]
  refine and_congr_left fun hletter => ?_
  -- Without control characters, what is escaped is what gets a backslash.
  have hescapes : ∀ b ∈ arg.takeWhile (· ≠ 47), Common.escapes b = decide (b ∈ Common.escapedBytes) := by
    intro b hb
    rw [Common.escapes, hletter b ((List.takeWhile_sublist _).subset hb)]
    rfl
  rw [not_and, Common.HasTildePrefix, not_and]
  refine imp_congr_right fun _ => imp_congr_right fun _ => ?_
  simp only [not_forall, Bool.not_eq_false]
  refine exists_congr fun b => ?_
  constructor
  · rintro ⟨hb, he⟩
    exact ⟨hb, (hescapes b hb).trans (decide_eq_true he)⟩
  · rintro ⟨hb, he⟩
    exact ⟨hb, of_decide_eq_true ((hescapes b hb).symm.trans he)⟩

/-- **The command line carries the arguments that survive, and no others.**  Whatever stands before
it, the shell reads the text of `ToCommandLine(false)` as exactly the arguments and nothing takes
effect, if and only if each of them survives. -/
theorem reads_toCommandLine_iff (tildes : Bool) (before : List Bytes) (program : Bytes)
    (args : List Argument) :
    Shell.Reads tildes before
        (RewrittenArgs.toCommandLine ⟨program, args.map Subtype.val⟩ false) (args.map Subtype.val) ↔
      ∀ arg ∈ args, Survives tildes arg.val := by
  rcases List.eq_nil_or_concat args with rfl | ⟨init, last, hargs⟩
  · -- No argument: the text is empty, and the blank behind it is read between two words.
    refine iff_of_true ⟨?_, ?_⟩ (by simp)
    · rw [List.map_nil, List.append_nil]
      rfl
    · exact Shell.quiet_cons.2 ⟨rfl, Shell.quiet_nil⟩
  · have hne : args.map Subtype.val ≠ [] := by simp [hargs]
    have hnil : ∀ arg ∈ args.map Subtype.val, arg ≠ [] := by
      intro arg harg
      obtain ⟨a, -, rfl⟩ := List.mem_map.1 harg
      exact a.property.1
    obtain ⟨hquiet, hrun⟩ := Common.read_arguments tildes (args.map Subtype.val) hnil before
    rw [Shell.Reads, RewrittenArgs.toCommandLine_blank ⟨program, args.map Subtype.val⟩ hne, hquiet]
    have hwords : (∀ arg ∈ args, Survives tildes arg.val) ↔
        (∀ arg ∈ args.map Subtype.val, ¬ Common.Stirs tildes arg) ∧
          (args.map Subtype.val).map (List.map Common.carried) = args.map Subtype.val := by
      simp only [survives_iff, List.forall_mem_map, List.map_map, List.map_inj_left,
        Function.comp_apply, ← forall₂_and]
    rw [hwords, and_comm]
    refine and_congr_right fun hno => ?_
    rw [hrun hno]
    constructor
    · intro h
      exact List.append_cancel_left (congrArg Shell.State.words h)
    · intro h
      rw [h]

/-- An argument with a bar in it: behind the bar stands a command of its own. -/
theorem reads_toCommandLine_bar :
    ¬ ∀ (before : List Bytes) (program : Bytes) (args : List Argument),
      Shell.Reads false before
        (RewrittenArgs.toCommandLine ⟨program, args.map Subtype.val⟩ false)
        (args.map Subtype.val) := by
  intro h
  have hread := h [] [] [⟨Bytes.ofString "-DX=a|b", by decide⟩]
  revert hread
  decide

end Client
