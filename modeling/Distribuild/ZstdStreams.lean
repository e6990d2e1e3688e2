/-
**Compressing and decompressing with zstd.**

The daemons compress the files of a compile at once and decompress by calling the library until the
input is used up and then until it has nothing more to give (`common/crypto/zstd.h`).  The client
compresses the preprocessed source while it is written: `ZstdOutStream` of
`client/common/out_stream.cpp` collects the output of the library in chunks of `128` KiB, takes a
new one whenever the last is full, and closes the frame at the end.

The library is a `Compressor`.  All loops of this module end, and what comes out of them is right,
for every library of which the documented laws hold.

Main definitions:

* `Common.zstdCompress`, `Common.zstdDecompress` — the functions of the daemons;
* `Client.ZstdOutStream`, with `write`, `writeAll`, `getResult` — the stream of the client.

Main results:

* `Common.zstdDecompress_frame` — **a frame is decompressed** to its content;
* `Common.zstdDecompress_returns` — decompression returns, whatever it is fed;
* `Client.ZstdOutStream.returns_writeAll` — **the stream takes everything that is written**, for any
  way in which the source is cut into writes;
* `Client.ZstdOutStream.returns_getResult` — **the frame is closed**, and its content is what was
  taken.
-/

import Distribuild.Compressor
import Distribuild.Loop

set_option relaxedAutoImplicit false
set_option autoImplicit false

namespace Common

variable (z : Compressor)

/-! ### Compressing and decompressing at once -/

/-- `ZSTDCompress`. -/
def zstdCompress (content : Bytes) : Option Bytes := z.compress content

/-- The variables of `ZSTDDecompress`. -/
structure Decompression where
  ctx : z.DCtx
  /-- The input from `in_ref.pos` on. -/
  input : Bytes
  decompressed : Bytes
  result : ℕ

variable {z} in
/-- One call of `ZSTD_decompressStream`. -/
def Decompression.call (s : Decompression z) : Option (Decompression z) :=
  (z.decompressStream s.ctx s.input z.dStreamOutSize).map fun r =>
    { ctx := r.ctx
      input := s.input.drop r.consumed
      decompressed := s.decompressed ++ r.produced
      result := r.result }

variable {z} in
/-- A round of the first loop: until the input is used up. -/
def Decompression.readRound (s : Decompression z) :
    Decompression z ⊕ Option (Decompression z) :=
  if s.input = [] then .inr (some s)
  else
    match s.call with
    | none => .inr none
    | some s' => .inl s'

variable {z} in
/-- A round of the second loop: until everything is flushed. -/
def Decompression.drainRound (s : Decompression z) : Decompression z ⊕ Option Bytes :=
  if s.result = 0 then .inr (some s.decompressed)
  else
    match s.call with
    | none => .inr none
    | some s' => .inl s'

/-- `ZSTDDecompress`; nothing at all as long as its loops have not ended. -/
def zstdDecompress (data : Bytes) (fuel : ℕ) : Option (Option Bytes) :=
  (Loop.run Decompression.readRound fuel
    ({ ctx := z.createDCtx, input := data, decompressed := [], result := 0 } :
      Decompression z)).bind fun read =>
        match read with
        | none => some none
        | some s => Loop.run Decompression.drainRound fuel s

variable {z}

/-- What is left of the decompression is `rest`, and the last return value tells whether anything
is. -/
structure Decompression.Left (s : Decompression z) (rest : Bytes) : Prop where
  decodes : z.Decodes s.ctx s.input rest
  result : s.input = [] → (s.result = 0 ↔ rest = [])

/-- One call gives out a part of what is left. -/
theorem Decompression.call_eq (hz : z.Lawful) {s : Decompression z} {next : ℕ → StreamCall z.DCtx}
    (hcall : ∀ space, 0 < space → z.decompressStream s.ctx s.input space = some (next space)) :
    s.call = some
      { ctx := (next z.dStreamOutSize).ctx
        input := s.input.drop (next z.dStreamOutSize).consumed
        decompressed := s.decompressed ++ (next z.dStreamOutSize).produced
        result := (next z.dStreamOutSize).result } := by
  rw [call, hcall _ hz.dStreamOutSize_pos, Option.map_some]

/-- The first loop ends with the input used up, and what it has given out and what is left make up
the content. -/
theorem Decompression.returns_read (hz : z.Lawful) {ctx : z.DCtx} {input rest : Bytes}
    (h : z.Decodes ctx input rest) (decompressed : Bytes) (result : ℕ)
    (hresult : input = [] → (result = 0 ↔ rest = [])) :
    ∃ (s : Decompression z) (rest' : Bytes), s.input = [] ∧ s.Left rest' ∧
      s.decompressed ++ rest' = decompressed ++ rest ∧
      Loop.Returns (fun fuel => Loop.run readRound fuel
        { ctx := ctx, input := input, decompressed := decompressed, result := result }) (some s) := by
  induction h generalizing decompressed result with
  | finished ctx =>
      exact ⟨_, [], rfl, ⟨.finished ctx, hresult⟩, rfl, Loop.returns_of_inr rfl⟩
  | @call ctx input output next rest hcall hout hres hrest ih =>
      by_cases hinput : input = []
      · subst hinput
        exact ⟨_, output, rfl, ⟨.call next rest hcall hout hres hrest, hresult⟩, rfl,
          Loop.returns_of_inr rfl⟩
      · have hpos := hz.dStreamOutSize_pos
        obtain ⟨s, rest', hs, hleft, heq, hreturns⟩ := ih _ hpos
          (decompressed ++ (next z.dStreamOutSize).produced) (next z.dStreamOutSize).result
          (fun hnil => by rw [hres _ hpos]; simp [hnil])
        refine ⟨s, rest', hs, hleft, ?_, Loop.returns_of_inl ?_ hreturns⟩
        · rw [heq, hout _ hpos, List.append_assoc]
        · rw [readRound, if_neg hinput, call_eq hz hcall]

/-- The second loop ends with the content. -/
theorem Decompression.returns_drain (hz : z.Lawful) {ctx : z.DCtx} {input rest : Bytes}
    (h : z.Decodes ctx input rest) (hinput : input = []) (decompressed : Bytes) (result : ℕ)
    (hresult : result = 0 ↔ rest = []) :
    Loop.Returns (fun fuel => Loop.run drainRound fuel
      ({ ctx := ctx, input := input, decompressed := decompressed, result := result } :
        Decompression z)) (some (decompressed ++ rest)) := by
  induction h generalizing decompressed result with
  | finished ctx =>
      have hzero : result = 0 := hresult.2 rfl
      refine Loop.returns_of_inr ?_
      rw [drainRound, if_pos hzero, List.append_nil]
  | @call ctx input output next rest hcall hout hres hrest ih =>
      by_cases hzero : result = 0
      · refine Loop.returns_of_inr ?_
        rw [drainRound, if_pos hzero, hresult.1 hzero, List.append_nil]
      · have hpos := hz.dStreamOutSize_pos
        have hnil : input.drop (next z.dStreamOutSize).consumed = [] := by
          rw [hinput, List.drop_nil]
        have hreturns := ih _ hpos hnil (decompressed ++ (next z.dStreamOutSize).produced)
          (next z.dStreamOutSize).result (by rw [hres _ hpos]; simp [hnil])
        rw [List.append_assoc, ← hout _ hpos] at hreturns
        refine Loop.returns_of_inl ?_ hreturns
        rw [drainRound, if_neg hzero, call_eq hz hcall]

/-- **A frame is decompressed** to its content. -/
theorem zstdDecompress_frame (hz : z.Lawful) {frame content : Bytes} (h : z.Frame frame content) :
    Loop.Returns (zstdDecompress z frame) (some content) := by
  obtain ⟨s, rest, hinput, hleft, heq, hread⟩ := Decompression.returns_read hz
    (hz.decodes frame content h) [] 0 fun hnil => absurd hnil (hz.frame_ne_nil frame content h)
  have hdrain := Decompression.returns_drain hz hleft.decodes hinput s.decompressed s.result
    (hleft.result hinput)
  rw [heq, List.nil_append] at hdrain
  exact hread.bind hdrain

/-- A call brings the decompression nearer to the end. -/
theorem Decompression.call_lt {left : z.DCtx → Bytes → ℕ}
    (hleft : ∀ ctx input r, z.decompressStream ctx input z.dStreamOutSize = some r →
      input ≠ [] ∨ r.result ≠ 0 → left r.ctx (input.drop r.consumed) < left ctx input)
    {s s' : Decompression z} (hs : s.call = some s') (hmore : s.input ≠ [] ∨ s'.result ≠ 0) :
    left s'.ctx s'.input < left s.ctx s.input := by
  obtain ⟨r, hr, rfl⟩ := Option.map_eq_some_iff.1 hs
  exact hleft s.ctx s.input r hr hmore

/-- The first loop ends: every call is offered input. -/
theorem Decompression.exists_returns_read (hz : z.GoesForward) (s : Decompression z) :
    ∃ read, Loop.Returns (fun fuel => Loop.run readRound fuel s) read := by
  obtain ⟨left, hleft⟩ := hz
  have hspec := Loop.run_measure readRound (fun _ => True)
    (fun s : Decompression z => left s.ctx s.input) (fun _ => True) (fun s _ => ?_) (s := s) trivial
  · obtain ⟨read, -, hread⟩ := hspec
    exact ⟨read, hread⟩
  · rw [readRound]
    split_ifs with hinput
    · trivial
    · cases hs : s.call with
      | none => trivial
      | some s' => exact ⟨trivial, call_lt hleft hs (Or.inl hinput)⟩

/-- The second loop ends: every call but the last has not reached the end. -/
theorem Decompression.exists_returns_drain (hz : z.GoesForward) (s : Decompression z) :
    ∃ decompressed, Loop.Returns (fun fuel => Loop.run drainRound fuel s) decompressed := by
  obtain ⟨left, hleft⟩ := hz
  have hspec := Loop.run_measure drainRound (fun _ => True)
    (fun s : Decompression z => if s.result = 0 then 0 else left s.ctx s.input + 1)
    (fun _ => True) (fun s _ => ?_) (s := s) trivial
  · obtain ⟨decompressed, -, hdrain⟩ := hspec
    exact ⟨decompressed, hdrain⟩
  · rw [drainRound]
    split_ifs with hresult
    · trivial
    · cases hs : s.call with
      | none => trivial
      | some s' =>
          refine ⟨trivial, ?_⟩
          show (if s'.result = 0 then 0 else left s'.ctx s'.input + 1) <
            if s.result = 0 then 0 else left s.ctx s.input + 1
          rw [if_neg hresult]
          split_ifs with hresult'
          · exact Nat.succ_pos _
          · exact Nat.succ_lt_succ (call_lt hleft hs (Or.inr hresult'))

/-- **Decompression returns, whatever it is fed**, if the library goes forward. -/
theorem zstdDecompress_returns (hz : z.GoesForward) (data : Bytes) :
    ∃ decompressed, Loop.Returns (zstdDecompress z data) decompressed := by
  obtain ⟨read, hread⟩ := Decompression.exists_returns_read hz
    { ctx := z.createDCtx, input := data, decompressed := [], result := 0 }
  cases read with
  | none => exact ⟨none, hread.bind (Loop.Returns.of_forall fun _ => rfl)⟩
  | some s =>
      obtain ⟨decompressed, hdrain⟩ := Decompression.exists_returns_drain hz s
      exact ⟨decompressed, hread.bind hdrain⟩

end Common

namespace Client

/-! ### Compressing what is written -/

/-- `ZstdOutStream`.  Of a chunk only the part that is used is kept; `back` is the last chunk and
`front` are those before it. -/
structure ZstdOutStream (z : Compressor) where
  ctx : z.CCtx := z.initCStream
  front : List Bytes := []
  back : Bytes := []

variable {z : Compressor}

namespace ZstdOutStream

/-- `kChunkSize`. -/
def kChunkSize : ℕ := 128 * 1024

/-- The bytes in all chunks. -/
def collected (os : ZstdOutStream z) : Bytes := os.front.flatten ++ os.back

/-- A new chunk is taken if the last one is full. -/
def withRoom (os : ZstdOutStream z) : ZstdOutStream z :=
  if os.back.length = kChunkSize then { os with front := os.front ++ [os.back], back := [] } else os

/-- One call of `ZSTD_compressStream2` and what is done with its output. -/
def call (os : ZstdOutStream z) (finish : Bool) (input : Bytes) :
    Option (ZstdOutStream z × StreamCall z.CCtx) :=
  (z.compressStream os.ctx finish input (kChunkSize - os.withRoom.back.length)).map fun r =>
    ({ os.withRoom with ctx := r.ctx, back := os.withRoom.back ++ r.produced }, r)

/-- A round of `Write`, with the input from `in_buf.pos` on.  (A call that fails is logged and the
loop goes on; that is not followed here.) -/
def writeRound (s : ZstdOutStream z × Bytes) :
    (ZstdOutStream z × Bytes) ⊕ Option (ZstdOutStream z) :=
  if s.2 = [] then .inr (some s.1)
  else
    match s.1.call false s.2 with
    | none => .inr none
    | some (os, r) => .inl (os, s.2.drop r.consumed)

/-- A round of `Flush`. -/
def flushRound (os : ZstdOutStream z) : ZstdOutStream z ⊕ Option (ZstdOutStream z) :=
  match os.call true [] with
  | none => .inr none
  | some (os, r) => if r.result = 0 then .inr (some os) else .inl os

/-- `Write`; nothing at all as long as its loop has not ended. -/
def write (fuel : ℕ) (os : ZstdOutStream z) (data : Bytes) : Option (Option (ZstdOutStream z)) :=
  Loop.run writeRound fuel (os, data)

/-- One `Write` after the other. -/
def writeAll (fuel : ℕ) (os : ZstdOutStream z) : List Bytes → Option (Option (ZstdOutStream z))
  | [] => some (some os)
  | data :: writes =>
      (write fuel os data).bind fun written =>
        match written with
        | none => some none
        | some os => writeAll fuel os writes

/-- `GetResult`. -/
def getResult (fuel : ℕ) (os : ZstdOutStream z) : Option (Option Bytes) :=
  (Loop.run flushRound fuel os).map fun flushed => flushed.map collected

@[simp] theorem withRoom_ctx (os : ZstdOutStream z) : os.withRoom.ctx = os.ctx := by
  rw [withRoom]
  split <;> rfl

@[simp] theorem withRoom_collected (os : ZstdOutStream z) :
    os.withRoom.collected = os.collected := by
  rw [withRoom]
  split
  · simp [collected]
  · rfl

/-- There is room in the last chunk. -/
theorem withRoom_lt {os : ZstdOutStream z} (h : os.back.length ≤ kChunkSize) :
    os.withRoom.back.length < kChunkSize := by
  rw [withRoom]
  split
  · exact Nat.zero_lt_of_lt (show 0 < kChunkSize by decide)
  next hne => exact Nat.lt_of_le_of_ne h hne

/-- What one call does to the chunks: its output is collected, and no chunk overflows. -/
theorem call_eq {os : ZstdOutStream z} (h : os.back.length ≤ kChunkSize) {finish : Bool}
    {input : Bytes} {r : StreamCall z.CCtx}
    (hcall : z.compressStream os.ctx finish input (kChunkSize - os.withRoom.back.length) = some r)
    (hroom : r.produced.length ≤ kChunkSize - os.withRoom.back.length) :
    ∃ os' : ZstdOutStream z, os.call finish input = some (os', r) ∧ os'.ctx = r.ctx ∧
      os'.collected = os.collected ++ r.produced ∧ os'.back.length ≤ kChunkSize := by
  have hlt := withRoom_lt h
  refine ⟨_, by rw [call, hcall, Option.map_some], rfl, ?_, ?_⟩
  · rw [← withRoom_collected os]
    simp [collected]
  · rw [List.length_append]
    omega

/-- The stream has taken the bytes `taken`. -/
structure Holds (os : ZstdOutStream z) (taken : Bytes) : Prop where
  session : z.Session os.ctx taken os.collected
  back_le : os.back.length ≤ kChunkSize

theorem holds_init : Holds ({} : ZstdOutStream z) [] where
  session := .init
  back_le := Nat.zero_le _

/-- A round of `Write` takes some of the input, or else gives out some of what is held back. -/
theorem writeRound_eq {heldBack : z.CCtx → ℕ}
    (hgoes : ∀ ctx taken given input space, z.Session ctx taken given → input ≠ [] → 0 < space →
      ∃ r, z.compressStream ctx false input space = some r ∧ r.consumed ≤ input.length ∧
        r.produced.length ≤ space ∧ (r.consumed = 0 → heldBack r.ctx < heldBack ctx))
    {os : ZstdOutStream z} {taken : Bytes} (h : os.Holds taken) {input : Bytes} (hinput : input ≠ []) :
    ∃ (os' : ZstdOutStream z) (n : ℕ), writeRound (os, input) = .inl (os', input.drop n) ∧
      os'.Holds (taken ++ input.take n) ∧
      ((input.drop n).length < input.length ∨
        (input.drop n).length = input.length ∧ heldBack os'.ctx < heldBack os.ctx) := by
  have hroom : 0 < kChunkSize - os.withRoom.back.length := Nat.sub_pos_of_lt (withRoom_lt h.back_le)
  obtain ⟨r, hcall, hin, hout, hheld⟩ := hgoes _ _ _ input _ h.session hinput hroom
  obtain ⟨os', hos', hctx, hcollected, hback⟩ := call_eq h.back_le hcall hout
  refine ⟨os', r.consumed, ?_, ⟨?_, hback⟩, ?_⟩
  · rw [writeRound, if_neg hinput, hos']
  · rw [hctx, hcollected]
    exact .call input _ r h.session hcall
  · rw [List.length_drop, hctx]
    by_cases hzero : r.consumed = 0
    · exact Or.inr ⟨by omega, hheld hzero⟩
    · exact Or.inl (by omega)

/-- **What is written is taken**, all of it. -/
theorem returns_write (hz : z.Lawful) {os : ZstdOutStream z} {taken : Bytes} (h : os.Holds taken)
    (data : Bytes) : ∃ os' : ZstdOutStream z, os'.Holds (taken ++ data) ∧
      Loop.Returns (fun fuel => write fuel os data) (some os') := by
  obtain ⟨heldBack, hgoes⟩ := hz.goes_on
  have hwf := (invImage (fun s : ZstdOutStream z × Bytes => (s.2.length, heldBack s.1.ctx))
    (Prod.lex Nat.lt_wfRel Nat.lt_wfRel)).wf
  have hspec := Loop.run_spec writeRound
    (fun s : ZstdOutStream z × Bytes => ∃ sofar, s.1.Holds sofar ∧ sofar ++ s.2 = taken ++ data) hwf
    (fun result => ∃ os' : ZstdOutStream z, result = some os' ∧ os'.Holds (taken ++ data))
    (fun s hs => ?_) (s := (os, data)) ⟨taken, h, rfl⟩
  · obtain ⟨result, ⟨os', rfl, hholds⟩, hreturns⟩ := hspec
    exact ⟨os', hholds, hreturns⟩
  · obtain ⟨sofar, hholds, hall⟩ := hs
    by_cases hinput : s.2 = []
    · rw [writeRound, if_pos hinput]
      rw [hinput, List.append_nil] at hall
      exact ⟨s.1, rfl, hall ▸ hholds⟩
    · obtain ⟨os', n, hround, hholds', hless⟩ := writeRound_eq hgoes hholds hinput
      rw [hround]
      refine ⟨⟨_, hholds', ?_⟩, ?_⟩
      · rw [← hall, List.append_assoc, List.take_append_drop]
      · rcases hless with hless | ⟨heq, hless⟩
        · exact Prod.Lex.left _ _ hless
        · show Prod.Lex _ _ ((s.2.drop n).length, heldBack os'.ctx) (s.2.length, heldBack s.1.ctx)
          rw [heq]
          exact Prod.Lex.right _ hless

/-- **The stream takes everything that is written.** -/
theorem returns_writeAll (hz : z.Lawful) {os : ZstdOutStream z} {taken : Bytes} (h : os.Holds taken)
    (writes : List Bytes) : ∃ os' : ZstdOutStream z, os'.Holds (taken ++ writes.flatten) ∧
      Loop.Returns (fun fuel => writeAll fuel os writes) (some os') := by
  induction writes generalizing os taken with
  | nil =>
      refine ⟨os, ?_, Loop.Returns.of_forall fun _ => rfl⟩
      rwa [List.flatten_nil, List.append_nil]
  | cons data writes ih =>
      obtain ⟨os₁, hholds₁, hwrite⟩ := returns_write hz h data
      obtain ⟨os₂, hholds₂, hrest⟩ := ih hholds₁
      refine ⟨os₂, ?_, hwrite.bind hrest⟩
      rwa [List.flatten_cons, ← List.append_assoc]

/-- **The frame is closed**, and everything that was given out is collected. -/
theorem returns_getResult (hz : z.Lawful) {os : ZstdOutStream z} {content : Bytes}
    (h : os.Holds content) : ∃ frame, z.Frame frame content ∧
      Loop.Returns (fun fuel => getResult fuel os) (some frame) := by
  obtain ⟨left, hcloses⟩ := hz.closes
  have hspec := Loop.run_spec flushRound
    (fun os : ZstdOutStream z => z.Closing os.ctx content os.collected ∧ os.back.length ≤ kChunkSize)
    (measure fun os : ZstdOutStream z => left os.ctx).wf
    (fun result => ∃ os' : ZstdOutStream z, result = some os' ∧ z.Frame os'.collected content)
    (fun os hos => ?_) (s := os) ⟨.session h.session, h.back_le⟩
  · obtain ⟨result, ⟨os', rfl, hframe⟩, hreturns⟩ := hspec
    exact ⟨os'.collected, hframe, hreturns.map _⟩
  · obtain ⟨hclosing, hback⟩ := hos
    have hroom : 0 < kChunkSize - os.withRoom.back.length := Nat.sub_pos_of_lt (withRoom_lt hback)
    obtain ⟨r, hcall, hout, hless⟩ := hcloses _ _ _ _ hclosing hroom
    obtain ⟨os', hos', hctx, hcollected, hback'⟩ := call_eq hback hcall hout
    rw [flushRound, hos']
    by_cases hzero : r.result = 0
    · simp only [if_pos hzero]
      exact ⟨os', rfl, Or.inr ⟨os.ctx, os.collected, _, r, hclosing, hcall, hzero, hcollected⟩⟩
    · simp only [if_neg hzero]
      refine ⟨⟨?_, hback'⟩, ?_⟩
      · rw [hctx, hcollected]
        exact .call _ r hclosing hcall hzero
      · show left os'.ctx < left os.ctx
        rw [hctx]
        exact hless hzero

end ZstdOutStream

end Client
