/-
**What a compressing stream collects.**

`ZstdOutStream` collects what the library gives out in chunks of a fixed size.  `Write` and `Flush`
go about it in the same way: if the last chunk is full a new one is taken, the library is offered
the rest of it, and what it gave out counts as used.  `Distribuild/ZstdStreams.lean` proves what
comes of that for a library of which the documented laws hold.  This module asks less of the library
and looks at the chunks alone: whatever the library gives out, as long as it keeps within the room
that it is offered, is collected.

What a library has given out is not to be seen from the stream.  So the stream is run on the same
library with a record of all calls, and the record is then forgotten: the two runs differ in the
record only.

Main definitions:

* `Client.ZstdOutStream.chunks`, `Client.ZstdOutStream.flush` — `chunks_` and `Flush`;
* `Client.ZstdOutStream.forget` — the stream without the record;
* `Client.ZstdOutStream.Collects` — the chunks hold what is on the record.

Main results:

* `Client.ZstdOutStream.forget_writeAll`, `Client.ZstdOutStream.forget_flush` — **the record changes
  nothing**;
* `Client.ZstdOutStream.collects_call` — what a call does to the chunks;
* `Client.ZstdOutStream.getResult_collects` — **nothing is lost**.
-/

import Distribuild.ZstdStreams

set_option relaxedAutoImplicit false
set_option autoImplicit false

namespace Client

variable {z : Compressor}

namespace ZstdOutStream

/-- `chunks_`, the used part of each. -/
def chunks (os : ZstdOutStream z) : List Bytes := os.front ++ [os.back]

/-- `Flush`. -/
def flush (fuel : ℕ) (os : ZstdOutStream z) : Option (Option (ZstdOutStream z)) :=
  Loop.run flushRound fuel os

theorem getResult_eq (fuel : ℕ) (os : ZstdOutStream z) :
    getResult fuel os = (flush fuel os).map fun flushed => flushed.map collected := rfl

/-! ### Forgetting the record -/

/-- The stream without the record. -/
def forget (os : ZstdOutStream z.recording) : ZstdOutStream z where
  ctx := os.ctx.1
  front := os.front
  back := os.back

@[simp] theorem forget_init : forget ({} : ZstdOutStream z.recording) = {} := rfl

@[simp] theorem forget_collected (os : ZstdOutStream z.recording) :
    os.forget.collected = os.collected := rfl

theorem forget_withRoom (os : ZstdOutStream z.recording) :
    os.forget.withRoom = os.withRoom.forget := by
  rw [withRoom, withRoom]
  split_ifs with hfull hfull' hfull'
  · rfl
  · exact absurd hfull hfull'
  · exact absurd hfull' hfull
  · rfl

/-- A call that is recorded. -/
theorem call_recording (os : ZstdOutStream z.recording) (finish : Bool) (input : Bytes) :
    os.forget.call finish input = (os.call finish input).map fun called =>
      (called.1.forget,
        { ctx := called.2.ctx.1
          consumed := called.2.consumed
          produced := called.2.produced
          result := called.2.result }) := by
  have hroom : os.forget.withRoom = os.withRoom.forget := forget_withRoom os
  have hback : os.withRoom.forget.back = os.withRoom.back := rfl
  have hrecord : z.recording.compressStream os.ctx finish input
      (kChunkSize - os.withRoom.back.length) =
        (z.compressStream os.forget.ctx finish input
          (kChunkSize - os.withRoom.back.length)).map _ :=
    rfl
  rw [call, call, hroom, hback, hrecord]
  cases z.compressStream os.forget.ctx finish input (kChunkSize - os.withRoom.back.length) with
  | none => rfl
  | some r => rfl

theorem forget_writeRound (s : ZstdOutStream z.recording × Bytes) :
    writeRound (s.1.forget, s.2) =
      (writeRound s).map (fun s => (s.1.forget, s.2)) (Option.map forget) := by
  rw [writeRound, writeRound]
  by_cases hinput : s.2 = []
  · rw [if_pos hinput, if_pos hinput]
    rfl
  · rw [if_neg hinput, if_neg hinput, call_recording]
    cases s.1.call false s.2 with
    | none => rfl
    | some called => rfl

theorem forget_flushRound (os : ZstdOutStream z.recording) :
    flushRound os.forget = (flushRound os).map forget (Option.map forget) := by
  rw [flushRound, flushRound, call_recording]
  cases os.call true [] with
  | none => rfl
  | some called =>
      simp only [Option.map_some]
      split_ifs
      · rfl
      · rfl

/-- **The record changes nothing** about what is written, -/
theorem forget_writeAll (fuel : ℕ) (os : ZstdOutStream z.recording) (writes : List Bytes) :
    writeAll fuel os.forget writes = (writeAll fuel os writes).map (Option.map forget) := by
  induction writes generalizing os with
  | nil => rfl
  | cons data writes ih =>
      have hwrite : write fuel os.forget data = (write fuel os data).map (Option.map forget) :=
        Loop.run_map (fun s : ZstdOutStream z.recording × Bytes => (s.1.forget, s.2)) _
          forget_writeRound fuel (os, data)
      rw [writeAll, writeAll, hwrite]
      rcases write fuel os data with _ | _ | os'
      · rfl
      · rfl
      · exact ih os'

/-- or about what is flushed. -/
theorem forget_flush (fuel : ℕ) (os : ZstdOutStream z.recording) :
    flush fuel os.forget = (flush fuel os).map (Option.map forget) :=
  Loop.run_map forget _ forget_flushRound fuel os

/-! ### Collecting -/

/-- The calls made so far. -/
def emissions (os : ZstdOutStream z.recording) : List Compressor.Emission := os.ctx.2

/-- The chunks hold what is on the record, none of them holds more than there is room for, and no
call was made without room. -/
structure Collects (os : ZstdOutStream z.recording) : Prop where
  collected : os.collected = (os.emissions.map fun e => e.produced).flatten
  chunks_le : ∀ chunk ∈ os.chunks, chunk.length ≤ kChunkSize
  offered : ∀ e ∈ os.emissions, 0 < e.space ∧ e.space ≤ kChunkSize ∧ e.produced.length ≤ e.space

theorem collects_init : Collects ({} : ZstdOutStream z.recording) where
  collected := rfl
  chunks_le := by
    intro chunk hchunk
    rw [List.mem_singleton.1 hchunk]
    exact Nat.zero_le _
  offered := by
    intro e he
    cases he

theorem collects_withRoom {os : ZstdOutStream z.recording} (h : os.Collects) :
    os.withRoom.Collects := by
  have hemissions : os.withRoom.emissions = os.emissions := congrArg Prod.snd (withRoom_ctx os)
  refine ⟨?_, ?_, ?_⟩
  · rw [withRoom_collected, hemissions]
    exact h.collected
  · rw [withRoom]
    split
    · intro chunk hchunk
      rcases List.mem_append.1 hchunk with hold | hnew
      · exact h.chunks_le chunk hold
      · rw [List.mem_singleton.1 hnew]
        exact Nat.zero_le _
    · exact h.chunks_le
  · rw [hemissions]
    exact h.offered

/-- **What a call gives out is collected**, and there was room for it. -/
theorem collects_call (hz : z.FitsSpace) {os os' : ZstdOutStream z.recording} (h : os.Collects)
    {finish : Bool} {input : Bytes} {r : StreamCall z.recording.CCtx}
    (hcall : os.call finish input = some (os', r)) : os'.Collects := by
  have hroom := collects_withRoom h
  have hlt : os.withRoom.back.length < kChunkSize :=
    withRoom_lt (h.chunks_le os.back (List.mem_append_right _ List.mem_cons_self))
  rw [call, Option.map_eq_some_iff] at hcall
  obtain ⟨r', hrecorded, heq⟩ := hcall
  cases heq
  obtain ⟨r₀, hstream, rfl⟩ := Option.map_eq_some_iff.1 hrecorded
  have hfits := hz _ _ _ _ _ hstream
  have hemissions : os.withRoom.emissions = os.emissions := congrArg Prod.snd (withRoom_ctx os)
  refine ⟨?_, ?_, ?_⟩
  · have hcollected := hroom.collected
    rw [hemissions, collected] at hcollected
    show os.withRoom.front.flatten ++ (os.withRoom.back ++ r₀.produced) =
      ((os.emissions ++ [Compressor.Emission.mk _ r₀.produced]).map
        fun e : Compressor.Emission => e.produced).flatten
    rw [← List.append_assoc, hcollected]
    simp
  · intro chunk hchunk
    rcases List.mem_append.1 hchunk with hold | hlast
    · exact hroom.chunks_le chunk (List.mem_append_left _ hold)
    · rw [List.mem_singleton.1 hlast]
      show (os.withRoom.back ++ r₀.produced).length ≤ kChunkSize
      rw [List.length_append]
      omega
  · intro e he
    rcases List.mem_append.1 he with hold | hnew
    · exact h.offered e hold
    · rw [List.mem_singleton.1 hnew]
      exact ⟨Nat.sub_pos_of_lt hlt, Nat.sub_le _ _, hfits⟩

theorem collects_write (hz : z.FitsSpace) {os os' : ZstdOutStream z.recording} (h : os.Collects)
    {fuel : ℕ} {data : Bytes} (hwrite : write fuel os data = some (some os')) : os'.Collects := by
  refine @Loop.run_sound _ _ _ (fun s => s.1.Collects)
    (fun result => ∀ os', result = some os' → os'.Collects) ?_ ?_ _ h _ _ hwrite os' rfl
  · intro s s' hs hbody
    rw [writeRound] at hbody
    split at hbody
    · cases hbody
    · split at hbody
      · cases hbody
      next os₁ r hcall =>
        cases hbody
        exact collects_call hz hs hcall
  · intro s result hs hbody os' hresult
    rw [writeRound] at hbody
    split at hbody
    · cases hbody
      cases hresult
      exact hs
    · split at hbody
      · cases hbody
        cases hresult
      · cases hbody

theorem collects_writeAll (hz : z.FitsSpace) {os os' : ZstdOutStream z.recording} (h : os.Collects)
    {fuel : ℕ} {writes : List Bytes} (hwrites : writeAll fuel os writes = some (some os')) :
    os'.Collects := by
  induction writes generalizing os with
  | nil =>
      cases hwrites
      exact h
  | cons data writes ih =>
      rw [writeAll, Option.bind_eq_some_iff] at hwrites
      obtain ⟨written, hwrite, hrest⟩ := hwrites
      cases written with
      | none => cases hrest
      | some os₁ => exact ih (collects_write hz h hwrite) hrest

theorem collects_flush (hz : z.FitsSpace) {os os' : ZstdOutStream z.recording} (h : os.Collects)
    {fuel : ℕ} (hflush : flush fuel os = some (some os')) : os'.Collects := by
  refine @Loop.run_sound _ _ _ Collects (fun result => ∀ os', result = some os' → os'.Collects)
    ?_ ?_ _ h _ _ hflush os' rfl
  · intro os os₁ hos hbody
    rw [flushRound] at hbody
    split at hbody
    · cases hbody
    next os₂ r hcall =>
      split at hbody
      · cases hbody
      · cases hbody
        exact collects_call hz hos hcall
  · intro os result hos hbody os' hresult
    rw [flushRound] at hbody
    split at hbody
    · cases hbody
      cases hresult
    next os₂ r hcall =>
      split at hbody
      · cases hbody
        cases hresult
        exact collects_call hz hos hcall
      · cases hbody

/-- **Nothing is lost.**  If the loops of all `Write`s and of `GetResult` end, then they end on the
recording library as well, and `GetResult` returns what is on the record, in order.  No chunk holds
more than `kChunkSize` bytes, and no call was made without room. -/
theorem getResult_collects (z : Compressor) (hz : z.FitsSpace) (writes : List Bytes)
    (fuel fuel' : ℕ) (os : ZstdOutStream z) (result : Bytes)
    (hwrites : writeAll fuel {} writes = some (some os))
    (hresult : getResult fuel' os = some (some result)) :
    ∃ written flushed : ZstdOutStream z.recording,
      writeAll fuel {} writes = some (some written) ∧ written.forget = os ∧
      flush fuel' written = some (some flushed) ∧
      result = (flushed.emissions.map fun e => e.produced).flatten ∧
      (∀ chunk ∈ flushed.chunks, chunk.length ≤ kChunkSize) ∧
      ∀ e ∈ flushed.emissions,
        0 < e.space ∧ e.space ≤ kChunkSize ∧ e.produced.length ≤ e.space := by
  rw [← forget_init, forget_writeAll, Option.map_eq_some_iff] at hwrites
  obtain ⟨written, hwritten, hforget⟩ := hwrites
  obtain ⟨written, rfl, rfl⟩ := Option.map_eq_some_iff.1 hforget
  rw [getResult_eq, forget_flush, Option.map_map, Option.map_eq_some_iff] at hresult
  obtain ⟨flushed, hflushed, hcollected⟩ := hresult
  cases flushed with
  | none => cases hcollected
  | some flushed =>
      have hcollects := collects_flush hz (collects_writeAll hz collects_init hwritten) hflushed
      refine ⟨written, flushed, hwritten, rfl, hflushed, ?_, hcollects.chunks_le, hcollects.offered⟩
      rw [← hcollects.collected]
      exact (Option.some_inj.1 hcollected).symm

/-- Two writes to a library that gives out one uncompressed block. -/
theorem getResult_collects_storedBlock :
    ∃ written flushed : ZstdOutStream Compressor.storedBlock.recording,
      writeAll 3 {} [[97, 98], [99]] = some (some written) ∧
      written.forget = { ctx := ([97, 98, 99], none) } ∧
      flush 1 written = some (some flushed) ∧
      Compressor.storedFrame [97, 98, 99] = (flushed.emissions.map fun e => e.produced).flatten ∧
      (∀ chunk ∈ flushed.chunks, chunk.length ≤ kChunkSize) ∧
      ∀ e ∈ flushed.emissions, 0 < e.space ∧ e.space ≤ kChunkSize ∧ e.produced.length ≤ e.space :=
  getResult_collects Compressor.storedBlock Compressor.framed_fitsSpace [[97, 98], [99]] 3 1
    { ctx := ([97, 98, 99], none) } (Compressor.storedFrame [97, 98, 99]) rfl rfl

end ZstdOutStream

end Client
