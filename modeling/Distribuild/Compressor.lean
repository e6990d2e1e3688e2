/-
**Compressors, by their functions and what is documented of them.**

A compression library offers a function that compresses a byte string at once, and for streams two
functions that are called again and again: each call is offered some input and some room for output,
takes a part of the one and fills a part of the other.  A `Compressor` is such a library, with
contexts of any type.

What a program may rely on is a `Compressor.Lawful` library.  A *session* is what has become of a
context by the calls made on it.  A call that is offered input takes some of it or gives out some of
what it holds back; a frame that is being closed is closed after finitely many calls; and
**decompression inverts compression**: a context that is fed a whole frame gives out the content of
the frame, call after call, and reports the end when nothing is left.  None of this says how many
bytes a call takes or gives out.

Main definitions:

* `Compressor` — the functions;
* `Compressor.Session`, `Compressor.Closing`, `Compressor.Frame` — the calls made on a context, and
  the frames that come of them;
* `Compressor.Decodes` — what a context gives out when it is fed;
* `Compressor.Lawful` — what is documented;
* `Compressor.GoesForward` — what is documented of data that need not be a frame;
* `Compressor.recording` — a library that keeps a record of its calls;
* `Compressor.framed` — a compressor by the frames that it writes;
* `Compressor.rawBlocks`, `Compressor.storedBlock` — compressors that write one uncompressed block.

Main results:

* `Compressor.framed_lawful` — **the laws hold of a compressor whose frames can be read back**, and
  so `Compressor.rawBlocks_lawful` and `Compressor.storedBlock_lawful`.
-/

import Distribuild.Bytes
import Mathlib.Order.Basic

set_option relaxedAutoImplicit false
set_option autoImplicit false

/-- What one call of a streaming function does: how much of the input it takes, what it gives out,
and its return value. -/
structure StreamCall (σ : Type) where
  ctx : σ
  consumed : ℕ
  produced : Bytes
  result : ℕ

/-- A compression library.  A function returns nothing if it fails. -/
structure Compressor where
  CCtx : Type
  DCtx : Type
  /-- Compresses a byte string at once, with as much room as it can need. -/
  compress : Bytes → Option Bytes
  initCStream : CCtx
  /-- One call with some input and some room; `true` is the directive to close the frame. -/
  compressStream : CCtx → Bool → Bytes → ℕ → Option (StreamCall CCtx)
  createDCtx : DCtx
  /-- One call with some input and some room. -/
  decompressStream : DCtx → Bytes → ℕ → Option (StreamCall DCtx)
  /-- The room that is recommended for a call. -/
  dStreamOutSize : ℕ

namespace Compressor

variable (z : Compressor)

/-! ### Frames -/

/-- The context has taken the bytes `taken` and given out the bytes `given`. -/
inductive Session : z.CCtx → Bytes → Bytes → Prop
  | init : Session z.initCStream [] []
  | call {ctx : z.CCtx} {taken given : Bytes} (input : Bytes) (space : ℕ) (r : StreamCall z.CCtx) :
      Session ctx taken given → z.compressStream ctx false input space = some r →
        Session r.ctx (taken ++ input.take r.consumed) (given ++ r.produced)

/-- The frame of a context is being closed. -/
inductive Closing : z.CCtx → Bytes → Bytes → Prop
  | session {ctx : z.CCtx} {taken given : Bytes} : Session z ctx taken given → Closing ctx taken given
  | call {ctx : z.CCtx} {taken given : Bytes} (space : ℕ) (r : StreamCall z.CCtx) :
      Closing ctx taken given → z.compressStream ctx true [] space = some r → r.result ≠ 0 →
        Closing r.ctx taken (given ++ r.produced)

/-- `frame` is a whole frame with the content `content`. -/
def Frame (frame content : Bytes) : Prop :=
  z.compress content = some frame ∨
    ∃ ctx given space r, Closing z ctx content given ∧
      z.compressStream ctx true [] space = some r ∧ r.result = 0 ∧ frame = given ++ r.produced

/-- The context, fed with `input`, gives out `output`: by finitely many calls, however much room
they are given.  A call returns `0` exactly when nothing is left to take and to give out. -/
inductive Decodes : z.DCtx → Bytes → Bytes → Prop
  | finished (ctx : z.DCtx) : Decodes ctx [] []
  | call {ctx : z.DCtx} {input output : Bytes} (next : ℕ → StreamCall z.DCtx) (rest : ℕ → Bytes) :
      (∀ space, 0 < space → z.decompressStream ctx input space = some (next space)) →
      (∀ space, 0 < space → output = (next space).produced ++ rest space) →
      (∀ space, 0 < space → ((next space).result = 0 ↔
        input.drop (next space).consumed = [] ∧ rest space = [])) →
      (∀ space, 0 < space →
        Decodes (next space).ctx (input.drop (next space).consumed) (rest space)) →
      Decodes ctx input output

/-- **What is documented** of a compression library. -/
structure Lawful : Prop where
  /-- There is enough room to compress at once. -/
  compress_some : ∀ content, ∃ frame, z.compress content = some frame
  /-- A call that is offered input takes some of it, or gives out some of what is held back. -/
  goes_on : ∃ heldBack : z.CCtx → ℕ, ∀ ctx taken given input space, z.Session ctx taken given →
    input ≠ [] → 0 < space → ∃ r, z.compressStream ctx false input space = some r ∧
      r.consumed ≤ input.length ∧ r.produced.length ≤ space ∧
      (r.consumed = 0 → heldBack r.ctx < heldBack ctx)
  /-- A frame is closed after finitely many calls. -/
  closes : ∃ left : z.CCtx → ℕ, ∀ ctx taken given space, z.Closing ctx taken given → 0 < space →
    ∃ r, z.compressStream ctx true [] space = some r ∧ r.produced.length ≤ space ∧
      (r.result ≠ 0 → left r.ctx < left ctx)
  dStreamOutSize_pos : 0 < z.dStreamOutSize
  /-- Compressed data is not empty. -/
  frame_ne_nil : ∀ frame content, z.Frame frame content → frame ≠ []
  /-- Decompression inverts compression. -/
  decodes : ∀ frame content, z.Frame frame content → z.Decodes z.createDCtx frame content

/-- **Decompression goes forward**, whatever it is fed: a call fails, or brings a context that is
offered input, or that has not yet reached the end, nearer to the end. -/
def GoesForward : Prop :=
  ∃ left : z.DCtx → Bytes → ℕ, ∀ ctx input r,
    z.decompressStream ctx input z.dStreamOutSize = some r → input ≠ [] ∨ r.result ≠ 0 →
      left r.ctx (input.drop r.consumed) < left ctx input

/-! ### Keeping a record of the calls -/

/-- A call of the compressing function: how much room it was offered, and what it gave out. -/
structure Emission where
  space : ℕ
  produced : Bytes
deriving DecidableEq, Repr

/-- No call gives out more than there is room for. -/
def FitsSpace : Prop :=
  ∀ ctx finish input space r, z.compressStream ctx finish input space = some r →
    r.produced.length ≤ space

/-- The same library, with contexts that keep a record of the calls made on them. -/
def recording : Compressor where
  CCtx := z.CCtx × List Emission
  DCtx := z.DCtx
  compress := z.compress
  initCStream := (z.initCStream, [])
  compressStream ctx finish input space :=
    (z.compressStream ctx.1 finish input space).map fun r =>
      { ctx := (r.ctx, ctx.2 ++ [{ space := space, produced := r.produced }])
        consumed := r.consumed
        produced := r.produced
        result := r.result }
  createDCtx := z.createDCtx
  decompressStream := z.decompressStream
  dStreamOutSize := z.dStreamOutSize

/-! ### Compressors that write a frame at once -/

section Framed

/-- The part of `left` for which there is room, and how much stays behind. -/
def giveOut {σ : Type} (ctx : Bytes → σ) (consumed : ℕ) (left : Bytes) (space : ℕ) :
    StreamCall σ where
  ctx := ctx (left.drop space)
  consumed := consumed
  produced := left.take space
  result := (left.drop space).length

/-- A compressor, by the frame that it makes of a content at once, the frame that a stream makes of
it, and the content of a frame.  A stream takes all input and gives out the frame when it is closed.
A context holds the input and, once the frame is being closed, what is left of it. -/
def framed (compressed streamed contentOf : Bytes → Bytes) : Compressor where
  CCtx := Bytes × Option Bytes
  DCtx := Option Bytes
  compress content := some (compressed content)
  initCStream := ([], none)
  compressStream ctx finish input space :=
    if finish then
      some (giveOut (fun left => (ctx.1, some left)) 0 (ctx.2.getD (streamed ctx.1)) space)
    else if ctx.2.isSome then none
    else some { ctx := (ctx.1 ++ input, none), consumed := input.length, produced := [], result := 0 }
  createDCtx := none
  decompressStream ctx input space :=
    some (giveOut some input.length (ctx.getD (contentOf input)) space)
  dStreamOutSize := 131072

variable {compressed streamed contentOf : Bytes → Bytes}

theorem framed_fitsSpace : (framed compressed streamed contentOf).FitsSpace := by
  intro ctx finish input space r hcall
  cases finish with
  | true =>
      rw [← Option.some_inj.1 hcall]
      exact List.length_take_le _ _
  | false =>
      cases hctx : ctx.2 with
      | none =>
          simp only [framed, hctx] at hcall
          rw [← Option.some_inj.1 hcall]
          exact Nat.zero_le _
      | some left => simp [framed, hctx] at hcall

theorem framed_session {ctx : (framed compressed streamed contentOf).CCtx} {taken given : Bytes}
    (h : (framed compressed streamed contentOf).Session ctx taken given) :
    ctx = (taken, none) ∧ given = [] := by
  induction h with
  | init => exact ⟨rfl, rfl⟩
  | call input space r _ hcall ih =>
      obtain ⟨rfl, rfl⟩ := ih
      have hr : r = { ctx := (_ ++ input, none), consumed := input.length, produced := [],
                      result := 0 } := (Option.some_inj.1 hcall).symm
      subst hr
      refine ⟨?_, rfl⟩
      rw [List.take_length]

/-- While a frame is being closed, what is given out and what is left make up the frame. -/
theorem framed_closing {ctx : (framed compressed streamed contentOf).CCtx} {taken given : Bytes}
    (h : (framed compressed streamed contentOf).Closing ctx taken given) :
    ctx.1 = taken ∧ given ++ ctx.2.getD (streamed taken) = streamed taken := by
  induction h with
  | session hsession =>
      obtain ⟨rfl, rfl⟩ := framed_session hsession
      simp
  | call space r _ hcall hresult ih =>
      obtain ⟨rfl, hframe⟩ := ih
      have hr := (Option.some_inj.1 hcall).symm
      subst hr
      refine ⟨rfl, ?_⟩
      simpa [giveOut] using hframe

/-- The frames are those of the two functions. -/
theorem framed_frame {frame content : Bytes}
    (h : (framed compressed streamed contentOf).Frame frame content) :
    frame = compressed content ∨ frame = streamed content := by
  rcases h with h | ⟨ctx, given, space, r, hclosing, hcall, hresult, rfl⟩
  · exact Or.inl (Option.some_inj.1 h).symm
  · obtain ⟨rfl, hframe⟩ := framed_closing hclosing
    have hr := (Option.some_inj.1 hcall).symm
    subst hr
    right
    have hall : (ctx.2.getD (streamed ctx.1)).length ≤ space := by
      simpa [giveOut, Nat.sub_eq_zero_iff_le] using hresult
    simp only [giveOut, List.take_of_length_le hall]
    exact hframe

theorem framed_decodes (left : Bytes) :
    (framed compressed streamed contentOf).Decodes (some left) [] left := by
  induction hn : left.length using Nat.strong_induction_on generalizing left with
  | h n ih =>
      by_cases hnil : left = []
      · subst hnil
        exact .finished _
      · have hpos : 0 < left.length := List.length_pos_iff.2 hnil
        refine .call (fun space => giveOut some 0 left space) (fun space => left.drop space)
          (fun space _ => rfl) (fun space _ => ?_) (fun space _ => ?_) (fun space hspace => ?_)
        · exact (List.take_append_drop space left).symm
        · simp [giveOut, Nat.sub_eq_zero_iff_le]
        · refine ih (left.drop space).length ?_ (left.drop space) rfl
          rw [List.length_drop]
          omega

/-- **The laws hold of it**, if the frames are not empty and their contents are what they were made
of. -/
theorem framed_lawful
    (hcompressed : ∀ content, compressed content ≠ [] ∧ contentOf (compressed content) = content)
    (hstreamed : ∀ content, streamed content ≠ [] ∧ contentOf (streamed content) = content) :
    (framed compressed streamed contentOf).Lawful where
  compress_some content := ⟨_, rfl⟩
  goes_on := by
    refine ⟨fun _ => 0, fun ctx taken given input space hsession hinput _ => ?_⟩
    obtain ⟨rfl, rfl⟩ := framed_session hsession
    refine ⟨_, rfl, Nat.le_refl _, Nat.zero_le _, fun hzero => ?_⟩
    exact absurd (List.length_eq_zero_iff.1 hzero) hinput
  closes := by
    refine ⟨fun ctx => (ctx.2.getD (streamed ctx.1)).length,
      fun ctx taken given space hclosing hspace => ?_⟩
    refine ⟨_, rfl, List.length_take_le _ _, fun hresult => ?_⟩
    simp only [giveOut, Option.getD_some, List.length_drop] at hresult ⊢
    omega
  dStreamOutSize_pos := by
    show 0 < 131072
    decide
  frame_ne_nil frame content h := by
    rcases framed_frame h with rfl | rfl
    · exact (hcompressed content).1
    · exact (hstreamed content).1
  decodes frame content h := by
    have hcontent : contentOf frame = content := by
      rcases framed_frame h with rfl | rfl
      · exact (hcompressed content).2
      · exact (hstreamed content).2
    refine .call (fun space => giveOut some frame.length content space)
      (fun space => content.drop space) (fun space _ => ?_) (fun space _ => ?_)
      (fun space _ => ?_) (fun space _ => ?_)
    · show some (giveOut some _ (contentOf frame) space) = _
      rw [hcontent]
      rfl
    · exact (List.take_append_drop space content).symm
    · simp [giveOut, Nat.sub_eq_zero_iff_le]
    · simpa [giveOut] using framed_decodes (content.drop space)

theorem framed_goesForward : (framed compressed streamed contentOf).GoesForward := by
  refine ⟨fun ctx input => (if input = [] then 0 else 1) + (ctx.getD (contentOf input)).length,
    fun ctx input r hcall hmore => ?_⟩
  have hr := (Option.some_inj.1 hcall).symm
  subst hr
  have hspace : 0 < (framed compressed streamed contentOf).dStreamOutSize := by
    show 0 < 131072
    decide
  simp only [giveOut, List.drop_length, if_pos, Option.getD_some, List.length_drop] at hmore ⊢
  split_ifs with hinput
  · rcases hmore with hmore | hmore
    · exact absurd hinput hmore
    · omega
  · omega

end Framed

/-! ### Compressors of uncompressed blocks -/

section RawBlocks

/-- A small content as a frame of one uncompressed block: the magic number, two bytes of header, the
header of the last block with its size, the content.  A longer content is only marked. -/
def rawFrame (descriptor second : UInt8) (content : Bytes) : Bytes :=
  if content.length < 256 then
    [0x28, 0xB5, 0x2F, 0xFD, descriptor, second, UInt8.ofNat (8 * content.length + 1),
      UInt8.ofNat ((8 * content.length + 1) / 256), 0] ++ content
  else 0 :: content

/-- The content of such a frame. -/
def rawContent (frame : Bytes) : Bytes :=
  if frame.head? = some 0x28 then frame.drop 9 else frame.drop 1

theorem rawContent_rawFrame (descriptor second : UInt8) (content : Bytes) :
    rawContent (rawFrame descriptor second content) = content := by
  rw [rawFrame]
  split
  · rfl
  · rfl

theorem rawFrame_ne_nil (descriptor second : UInt8) (content : Bytes) :
    rawFrame descriptor second content ≠ [] := by
  rw [rawFrame]
  split <;> simp

/-- **A compressor that writes small contents as one uncompressed block.**  A stream takes all input
and gives out the frame when it is closed; its header has no size, but a window.  A context holds
the input and, once the frame is being closed, what is left of it. -/
def rawBlocks : Compressor where
  CCtx := Bytes × Option Bytes
  DCtx := Option Bytes
  compress content := some (rawFrame 0x20 (UInt8.ofNat content.length) content)
  initCStream := ([], none)
  compressStream ctx finish input space :=
    if finish then
      some (giveOut (fun left => (ctx.1, some left)) 0 (ctx.2.getD (rawFrame 0x00 0x48 ctx.1)) space)
    else if ctx.2.isSome then none
    else some { ctx := (ctx.1 ++ input, none), consumed := input.length, produced := [], result := 0 }
  createDCtx := none
  decompressStream ctx input space :=
    some (giveOut some input.length (ctx.getD (rawContent input)) space)
  dStreamOutSize := 131072

/-- **The laws hold of it.** -/
theorem rawBlocks_lawful : rawBlocks.Lawful :=
  framed_lawful (fun content => ⟨rawFrame_ne_nil _ _ content, rawContent_rawFrame _ _ content⟩)
    fun content => ⟨rawFrame_ne_nil _ _ content, rawContent_rawFrame _ _ content⟩

theorem rawBlocks_goesForward : rawBlocks.GoesForward := framed_goesForward

/-- A content that fits into one block as a frame of that block, uncompressed: the magic number, a
header without a size, a window, the header of the last block with its size, the content.  A longer
content is only marked. -/
def storedFrame (content : Bytes) : Bytes :=
  if content.length ≤ 131072 then
    [0x28, 0xB5, 0x2F, 0xFD, 0x00, 0x48, UInt8.ofNat (8 * content.length + 1),
      UInt8.ofNat ((8 * content.length + 1) / 256),
      UInt8.ofNat ((8 * content.length + 1) / 65536)] ++ content
  else 0 :: content

theorem rawContent_storedFrame (content : Bytes) : rawContent (storedFrame content) = content := by
  rw [storedFrame]
  split
  · rfl
  · rfl

theorem length_lt_length_storedFrame (content : Bytes) :
    content.length < (storedFrame content).length := by
  rw [storedFrame]
  split
  · rw [List.length_append]
    exact Nat.lt_add_of_pos_left (Nat.succ_pos _)
  · exact Nat.lt_succ_self _

/-- A compressor for contents that cannot be made smaller and fit into one block. -/
def storedBlock : Compressor := framed storedFrame storedFrame rawContent

theorem storedBlock_lawful : storedBlock.Lawful := by
  have hstored : ∀ content, storedFrame content ≠ [] ∧ rawContent (storedFrame content) = content := by
    intro content
    refine ⟨List.ne_nil_of_length_pos ?_, rawContent_storedFrame content⟩
    exact (Nat.zero_le _).trans_lt (length_lt_length_storedFrame content)
  exact framed_lawful hstored hstored

/-- A frame is longer than its content. -/
theorem storedBlock_length_lt {frame content : Bytes} (h : storedBlock.Frame frame content) :
    content.length < frame.length := by
  rcases framed_frame h with rfl | rfl
  · exact length_lt_length_storedFrame content
  · exact length_lt_length_storedFrame content

end RawBlocks

end Compressor
