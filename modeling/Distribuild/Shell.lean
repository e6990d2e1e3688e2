/-
**How a POSIX shell reads a command line.**

The text after `sh -c` is read byte by byte.  Blanks separate words, a backslash makes the next byte
literal, quotes group, and a number of bytes do something unless they are quoted: operators end a
command, `$` and the backquote start an expansion, `*`, `?` and `[` make a pattern of the word, `#`
starts a comment, and a `~` at the beginning of a word is expanded if nothing is quoted between it
and the first slash.

The reader splits a text into words and says at each byte what takes effect there.  What an operator
or an expansion then does to the command is not computed: the question asked here is whether a text
is read as a list of words and nothing else.

Main definitions:

* `Shell.Class`, `Shell.classOf` — what a byte is to the reader;
* `Shell.State`, `Shell.reader` — the reader, as a machine over bytes that outputs effects;
* `Shell.Reads` — a text is read as these words, and nothing takes effect.

Main results:

* `Shell.step_backslash`, `Shell.step_escaped`, `Shell.step_blank` — the reader on an escaped byte
  and at the end of a word;
* `Shell.step_between`, `Shell.step_inWord` — the reader on a byte that is not special, where a word
  begins and inside a word.
-/

import Distribuild.Bytes
import Distribuild.Machine

set_option relaxedAutoImplicit false
set_option autoImplicit false

namespace Shell

/-! ### The bytes -/

/-- What a byte is to the reader when it is not quoted. -/
inductive Class
  /-- Separates words. -/
  | blank
  /-- Makes the next byte literal. -/
  | backslash
  | singleQuote
  | doubleQuote
  /-- Ends a command or redirects it. -/
  | operator
  /-- Starts a parameter, command or arithmetic expansion. -/
  | expansion
  /-- Makes a pattern of the word. -/
  | glob
  /-- Starts a comment at the beginning of a word. -/
  | hash
  /-- Is expanded at the beginning of a word. -/
  | tilde
  /-- Ends what a `~` is expanded with. -/
  | slash
  | ordinary
deriving DecidableEq, Repr

/-- The class of a byte. -/
def classOf (b : UInt8) : Class :=
  if b ∈ Bytes.ofString " \t" then .blank
  else if b ∈ Bytes.ofString "\\" then .backslash
  else if b ∈ Bytes.ofString "'" then .singleQuote
  else if b ∈ Bytes.ofString "\"" then .doubleQuote
  else if b ∈ Bytes.ofString "|&;<>()\n" then .operator
  else if b ∈ Bytes.ofString "$`" then .expansion
  else if b ∈ Bytes.ofString "*?[" then .glob
  else if b ∈ Bytes.ofString "#" then .hash
  else if b ∈ Bytes.ofString "~" then .tilde
  else if b ∈ Bytes.ofString "/" then .slash
  else .ordinary

/-- The bytes that do something wherever they stand unquoted, or at the beginning of a word. -/
def special : Bytes := Bytes.ofString " \t\\'\"|&;<>()\n$`*?[#"

/-- A byte that is not special, and neither a tilde nor a slash, has no meaning of its own. -/
theorem classOf_of_notMem_special {b : UInt8} (h : b ∉ special) :
    classOf b = if b = 126 then .tilde else if b = 47 then .slash else .ordinary := by
  have hsub : ∀ t ∈ [" \t", "\\", "'", "\"", "|&;<>()\n", "$`", "*?[", "#"],
      b ∉ Bytes.ofString t := by
    intro t ht hb
    have hall : ([" \t", "\\", "'", "\"", "|&;<>()\n", "$`", "*?[", "#"].all fun t =>
        (Bytes.ofString t).all fun c => special.contains c) = true := rfl
    exact h (List.contains_iff_mem.1 (List.all_eq_true.1 (List.all_eq_true.1 hall t ht) b hb))
  have htilde : b ∈ Bytes.ofString "~" ↔ b = 126 := List.mem_singleton
  have hslash : b ∈ Bytes.ofString "/" ↔ b = 47 := List.mem_singleton
  simp only [List.forall_mem_cons, List.not_mem_nil, false_implies, implies_true, and_true] at hsub
  obtain ⟨h1, h2, h3, h4, h5, h6, h7, h8⟩ := hsub
  simp only [classOf, h1, h2, h3, h4, h5, h6, h7, h8, htilde, hslash, if_false]

/-! ### The reader -/

/-- What takes effect at a byte. -/
inductive Effect
  | operator
  | expansion
  | quoteRemoval
  | glob
  | comment
deriving DecidableEq, Repr

/-- What the reader is in the middle of. -/
inductive Mode
  | plain
  /-- After an unquoted backslash. -/
  | escaped
  /-- Between single quotes. -/
  | single
  /-- Between double quotes. -/
  | double
  /-- After a backslash between double quotes. -/
  | doubleEscaped
  /-- In a comment. -/
  | comment
deriving DecidableEq, Repr

/-- The state of the reader. -/
structure State where
  /-- The words read so far. -/
  words : List Bytes
  /-- The word being read, if the reader is in one. -/
  current : Option Bytes
  mode : Mode
  /-- The word began with an unquoted `~`, and neither a quoted byte nor a slash came since. -/
  tilde : Bool
deriving DecidableEq, Repr

namespace State

/-- The reader between two words. -/
def between (words : List Bytes) : State := ⟨words, none, .plain, false⟩

/-- A byte is added to the word being read, which begins here if there is none. -/
def push (s : State) (b : UInt8) : State := { s with current := some (s.current.getD [] ++ [b]) }

/-- The word being read ends, if there is one. -/
def delimit (s : State) : State :=
  match s.current with
  | none => s
  | some word => { s with words := s.words ++ [word], current := none, tilde := false }

end State

/-- What an expansion at the end of a tilde prefix amounts to. -/
def State.tildeEffect (s : State) : Option Effect := if s.tilde then some .expansion else none

/-- A byte outside of quotes.  The flag says whether a `~` is expanded. -/
def readPlain (tildes : Bool) (s : State) (b : UInt8) : State × Option Effect :=
  match classOf b with
  | .blank => (s.delimit, s.tildeEffect)
  | .backslash => ({ s with mode := .escaped, tilde := false }, none)
  | .singleQuote =>
      ({ s with current := some (s.current.getD []), mode := .single, tilde := false },
        some .quoteRemoval)
  | .doubleQuote =>
      ({ s with current := some (s.current.getD []), mode := .double, tilde := false },
        some .quoteRemoval)
  | .operator => (s.delimit, some .operator)
  | .expansion => (s.push b, some .expansion)
  | .glob => (s.push b, some .glob)
  | .hash =>
      match s.current with
      | none => ({ s with mode := .comment }, some .comment)
      | some _ => (s.push b, none)
  | .tilde =>
      match s.current with
      | none => ({ s.push b with tilde := tildes }, none)
      | some _ => (s.push b, none)
  | .slash => ({ s.push b with tilde := false }, s.tildeEffect)
  | .ordinary => (s.push b, none)

/-- A byte between double quotes, where only the expansions and a few escapes are left. -/
def readDouble (s : State) (b : UInt8) : State × Option Effect :=
  match classOf b with
  | .doubleQuote => ({ s with mode := .plain }, none)
  | .backslash => ({ s with mode := .doubleEscaped }, none)
  | .expansion => (s.push b, some .expansion)
  | _ => (s.push b, none)

/-- The byte after a backslash between double quotes: the backslash stays unless it escapes
something that has a meaning there. -/
def readDoubleEscaped (s : State) (b : UInt8) : State :=
  if b = 10 then { s with mode := .double }
  else if b ∈ Bytes.ofString "$`\"\\" then { s.push b with mode := .double }
  else { (s.push 92).push b with mode := .double }

/-- **The reader.** -/
def reader (tildes : Bool) : Machine State UInt8 (Option Effect) where
  step s b :=
    match s.mode with
    | .plain => readPlain tildes s b
    | .escaped =>
        -- An escaped line end is a continuation of the line and leaves nothing behind.
        if b = 10 then ({ s with mode := .plain }, none) else ({ s.push b with mode := .plain }, none)
    | .single => if b = 39 then ({ s with mode := .plain }, none) else (s.push b, none)
    | .double => readDouble s b
    | .doubleEscaped => (readDoubleEscaped s b, none)
    | .comment =>
        if b = 10 then ({ s with mode := .plain }, some .operator) else (s, none)

/-! ### One byte -/

variable (tildes : Bool) (words : List Bytes) (current : Option Bytes) (tilde : Bool)

/-- A backslash waits for the byte it makes literal, and ends what may be a tilde prefix. -/
theorem step_backslash :
    (reader tildes).step ⟨words, current, .plain, tilde⟩ 92 =
      (⟨words, current, .escaped, false⟩, none) := rfl

/-- The byte after a backslash is literal. -/
theorem step_escaped {b : UInt8} (h : b ≠ 10) :
    (reader tildes).step ⟨words, current, .escaped, tilde⟩ b =
      (⟨words, some (current.getD [] ++ [b]), .plain, tilde⟩, none) := by
  simp only [reader, h, if_false]
  rfl

/-- A blank ends a word, and with it a tilde prefix that reaches to its end. -/
theorem step_blank (word : Bytes) :
    (reader tildes).step ⟨words, some word, .plain, tilde⟩ 32 =
      (.between (words ++ [word]), if tilde then some .expansion else none) := rfl

/-- A byte that is not special begins a word. -/
theorem step_between {b : UInt8} (h : b ∉ special) :
    (reader tildes).step (.between words) b =
      (⟨words, some [b], .plain, tildes && decide (b = 126)⟩, none) := by
  simp only [reader, State.between, readPlain, classOf_of_notMem_special h]
  split_ifs with htilde hslash
  · simp [State.push, htilde]
  · simp [State.push, State.tildeEffect, htilde]
  · simp [State.push, htilde]

/-- A byte that is not special continues a word; a slash ends a tilde prefix. -/
theorem step_inWord {b : UInt8} (word : Bytes) (h : b ∉ special) :
    (reader tildes).step ⟨words, some word, .plain, tilde⟩ b =
      (⟨words, some (word ++ [b]), .plain, tilde && decide (b ≠ 47)⟩,
        if tilde && decide (b = 47) then some .expansion else none) := by
  simp only [reader, readPlain, classOf_of_notMem_special h]
  split_ifs with htilde hslash
  all_goals simp_all [State.push, State.tildeEffect]

/-! ### Reading a text -/

/-- Nothing took effect. -/
def Quiet (history : List (UInt8 × Option Effect)) : Prop := ∀ e ∈ history, e.2 = none

instance (history : List (UInt8 × Option Effect)) : Decidable (Quiet history) :=
  inferInstanceAs (Decidable (∀ e ∈ history, e.2 = none))

@[simp] theorem quiet_nil : Quiet [] := by
  intro e he
  cases he

@[simp] theorem quiet_cons {e : UInt8 × Option Effect} {history : List (UInt8 × Option Effect)} :
    Quiet (e :: history) ↔ e.2 = none ∧ Quiet history := List.forall_mem_cons

@[simp] theorem quiet_append {earlier later : List (UInt8 × Option Effect)} :
    Quiet (earlier ++ later) ↔ Quiet earlier ∧ Quiet later := List.forall_mem_append

/-- **A text is read as these words**: read between two words and followed by a blank, it adds them
to the words read before, and nothing takes effect. -/
def Reads (tildes : Bool) (before : List Bytes) (text : Bytes) (words : List Bytes) : Prop :=
  (reader tildes).run (.between before) (text ++ [32]) = .between (before ++ words) ∧
    Quiet ((reader tildes).trace (.between before) (text ++ [32]))

instance (tildes : Bool) (before : List Bytes) (text : Bytes) (words : List Bytes) :
    Decidable (Reads tildes before text words) :=
  inferInstanceAs (Decidable (_ ∧ _))

end Shell
