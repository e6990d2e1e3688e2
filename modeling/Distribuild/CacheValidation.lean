/-
**What the reader of the cache makes of any data.**

A daemon that finds an entry in the cache gets its bytes from another machine.  `TryParseCacheEntry`
of `daemon/cache.h` means to accept only what it can vouch for: it compares the sizes of the header
with a length, and the hash of the files with the one in the metadata.  But the length is that of
the data before it was decompressed, and the sum of the sizes is one of `size_t`.  So a header that
does not describe the decompressed data may pass; then the files are not as long as the header says,
or the metadata end behind the end of the data, and `substr` raises.

Main definitions:

* `Daemon.packedSize`, `Daemon.metaSize`, `Daemon.metaBytes` — the header of decompressed data, and
  the metadata behind it;
* `Daemon.Vouched` — the entry is one that the data describe;
* `Daemon.Misdescribed` — the header passes, though it does not describe the data.

Main results:

* `Daemon.parsePlain_of_sizes` — what is read once the sizes are accepted;
* `Daemon.parsePlain_vouched_iff` — **decompressed data are read as they should be if and only if**
  they are not misdescribed;
* `Daemon.cacheEntry_vouched_iff` — the same of the data that come from the cache.
-/

import Distribuild.CacheEntry

set_option relaxedAutoImplicit false
set_option autoImplicit false

namespace Daemon

/-! ### The header -/

/-- `header.packed_size`. -/
def packedSize (plain : Bytes) : ℕ := Bytes.ofLittleEndian (plain.take 8)

/-- `header.meta_size`. -/
def metaSize (plain : Bytes) : ℕ := Bytes.ofLittleEndian ((plain.drop 8).take 4)

/-- What is parsed as the metadata. -/
def metaBytes (plain : Bytes) : Bytes := (plain.drop headerSize).take (metaSize plain)

/-- What stands behind the metadata. -/
def packedBytes (plain : Bytes) : Bytes := plain.drop (headerSize + metaSize plain)

section Validation

variable (hasher : Hasher) (codec : MetaCodec)

/-- **The entry is one that the data describe**: the two sizes and that of the header are, without
wrapping around, the length of the data, and the files are the last bytes of it and have the hash
that is stored in the metadata. -/
structure Vouched (plain : Bytes) (entry : CacheEntry) : Prop where
  sizes : headerSize + metaSize plain + packedSize plain = plain.length
  packed : entry.packed = plain.drop (plain.length - packedSize plain)
  hash : ∃ cacheMeta, codec.parseFromString (metaBytes plain) = some cacheMeta ∧
    cacheMeta.filesCheckHash = Common.blake3 hasher [entry.packed]

/-- **The header passes, though it does not describe the data**: modulo `2 ^ 64` the sizes are those
of the data before they were decompressed; they are not those of the decompressed data; the metadata
can be parsed; and what stands behind them, if they do not end behind the end, has the hash that is
stored in them. -/
structure Misdescribed (dataSize : ℕ) (plain : Bytes) : Prop where
  header : headerSize ≤ plain.length
  passes : (metaSize plain + packedSize plain + headerSize) % Bytes.sizeValues = dataSize
  sizes : headerSize + metaSize plain + packedSize plain ≠ plain.length
  hash : ∃ cacheMeta, codec.parseFromString (metaBytes plain) = some cacheMeta ∧
    (headerSize + metaSize plain ≤ plain.length →
      cacheMeta.filesCheckHash = Common.blake3 hasher [packedBytes plain])

variable {hasher codec}

/-- What is read once the sizes are accepted. -/
theorem parsePlain_of_sizes {dataSize : ℕ} {plain : Bytes} (hheader : headerSize ≤ plain.length)
    (hpasses : (metaSize plain + packedSize plain + headerSize) % Bytes.sizeValues = dataSize) :
    parsePlain hasher codec dataSize plain =
      match codec.parseFromString (metaBytes plain) with
      | none => .ok none
      | some cacheMeta =>
          if plain.length < headerSize + metaSize plain then .error .outOfRange
          else .ok (ofParts hasher cacheMeta (packedBytes plain)) := by
  have hmeta : Bytes.substr plain headerSize (metaSize plain) = .ok (metaBytes plain) := by
    rw [Bytes.substr, if_neg (not_lt.2 hheader)]
    rfl
  have hpacked : Bytes.substr plain (headerSize + metaSize plain) plain.length =
      if plain.length < headerSize + metaSize plain then .error .outOfRange
      else .ok (packedBytes plain) := by
    rw [Bytes.substr, packedBytes, List.take_of_length_le (by rw [List.length_drop]; omega)]
  have hsizes : parsePlain hasher codec dataSize plain = (do
      let metaStr ← Bytes.substr plain headerSize (metaSize plain)
      match codec.parseFromString metaStr with
      | none => return none
      | some cacheMeta =>
          let packed ← Bytes.substr plain (headerSize + metaSize plain) plain.length
          return ofParts hasher cacheMeta packed) := by
    rw [parsePlain, if_neg (not_lt.2 hheader)]
    exact if_neg (not_not.2 hpasses)
  rw [hsizes, hmeta]
  cases hparse : codec.parseFromString (metaBytes plain) with
  | none => simp only [bind, Except.bind, hparse]; rfl
  | some cacheMeta =>
      simp only [bind, Except.bind, hparse, hpacked]
      split_ifs with hshort
      · rfl
      · rfl

/-- What is refused for its sizes. -/
theorem parsePlain_refused {dataSize : ℕ} {plain : Bytes}
    (h : plain.length < headerSize ∨
      (metaSize plain + packedSize plain + headerSize) % Bytes.sizeValues ≠ dataSize) :
    parsePlain hasher codec dataSize plain = .ok none := by
  rw [parsePlain]
  split_ifs with hheader
  · rfl
  · exact if_pos (h.resolve_left hheader)

theorem ofParts_eq_some {cacheMeta : CacheMeta} {packed : Bytes} {entry : CacheEntry} :
    ofParts hasher cacheMeta packed = some entry ↔
      cacheMeta.filesCheckHash = Common.blake3 hasher [packed] ∧
        entry =
          { exitCode := cacheMeta.exitCode
            stdOut := cacheMeta.stdOut
            stdErr := cacheMeta.stdErr
            extraInfo := cacheMeta.extraInfo
            packed := packed } := by
  rw [ofParts]
  split_ifs with hhash
  · exact iff_of_false (fun h => by cases h) fun h => hhash h.1
  · rw [Option.some.injEq, eq_comm]
    exact (and_iff_right (not_not.1 hhash)).symm

/-- What stands behind the metadata is as long as the header says, if the sizes add up. -/
theorem packedBytes_eq {plain : Bytes}
    (h : headerSize + metaSize plain + packedSize plain = plain.length) :
    packedBytes plain = plain.drop (plain.length - packedSize plain) := by
  rw [packedBytes]
  congr 1
  omega

/-- **Decompressed data are read as they should be if and only if they are not misdescribed.** -/
theorem parsePlain_vouched_iff (dataSize : ℕ) (plain : Bytes) :
    (∃ result, parsePlain hasher codec dataSize plain = .ok result ∧
        ∀ entry, result = some entry → Vouched hasher codec plain entry) ↔
      ¬Misdescribed hasher codec dataSize plain := by
  by_cases hrefused : plain.length < headerSize ∨
      (metaSize plain + packedSize plain + headerSize) % Bytes.sizeValues ≠ dataSize
  · refine iff_of_true ⟨none, parsePlain_refused hrefused, fun entry h => by cases h⟩ fun h => ?_
    rcases hrefused with hshort | hpasses
    · exact absurd h.header (not_le.2 hshort)
    · exact hpasses h.passes
  rw [not_or, not_lt, ne_eq, not_not] at hrefused
  obtain ⟨hheader, hpasses⟩ := hrefused
  rw [parsePlain_of_sizes hheader hpasses]
  cases hparse : codec.parseFromString (metaBytes plain) with
  | none =>
      refine iff_of_true ⟨none, rfl, fun entry h => by cases h⟩ fun h => ?_
      obtain ⟨cacheMeta, hsome, -⟩ := h.hash
      rw [hparse] at hsome
      cases hsome
  | some cacheMeta =>
      dsimp only
      split_ifs with hshort
      · -- the metadata end behind the end of the data
        refine iff_of_false (fun h => by cases h.choose_spec.1) (not_not_intro ?_)
        exact ⟨hheader, hpasses, by omega, cacheMeta, hparse, fun hle => absurd hle (by omega)⟩
      · constructor
        · rintro ⟨result, hresult, hvouched⟩ hmis
          obtain ⟨cacheMeta', hparse', hhash⟩ := hmis.hash
          obtain rfl : cacheMeta = cacheMeta' := Option.some.inj (hparse.symm.trans hparse')
          have hentry := ofParts_eq_some.2 ⟨hhash (not_lt.1 hshort), rfl⟩
          rw [hentry] at hresult
          exact hmis.sizes (hvouched _ (Except.ok.inj hresult).symm).sizes
        · intro hmis
          refine ⟨_, rfl, fun entry hentry => ?_⟩
          obtain ⟨hhash, rfl⟩ := ofParts_eq_some.1 hentry
          have hsizes : headerSize + metaSize plain + packedSize plain = plain.length := by
            by_contra hsizes
            exact hmis ⟨hheader, hpasses, hsizes, cacheMeta, hparse, fun _ => hhash⟩
          exact ⟨hsizes, packedBytes_eq hsizes, cacheMeta, hparse, hhash⟩

end Validation

/-- **Data from the cache are read as they should be if and only if they are not misdescribed**: for
every library that goes forward and all data, the decompression returns, and `TryParseCacheEntry`
returns without an exception and with an entry only if the decompressed data describe it, exactly if
the header does not pass without describing them. -/
theorem cacheEntry_vouched_iff (hasher : Hasher) (codec : MetaCodec) {z : Compressor}
    (hz : z.GoesForward) (data : Bytes) :
    ∃ decompressed, Loop.Returns (Common.zstdDecompress z data) decompressed ∧
      ((∃ result, Loop.Returns (tryParseCacheEntry hasher codec z data) (.ok result) ∧
          ∀ entry, result = some entry →
            ∃ plain, decompressed = some plain ∧ Vouched hasher codec plain entry) ↔
        ∀ plain, decompressed = some plain → ¬Misdescribed hasher codec data.length plain) := by
  obtain ⟨decompressed, hreturns⟩ := Common.zstdDecompress_returns hz data
  refine ⟨decompressed, hreturns, ?_⟩
  cases decompressed with
  | none =>
      have hnone : Loop.Returns (tryParseCacheEntry hasher codec z data) (.ok none) :=
        hreturns.map _
      exact iff_of_true ⟨none, hnone, fun entry h => by cases h⟩ fun plain h => by cases h
  | some plain =>
      have hparse : Loop.Returns (tryParseCacheEntry hasher codec z data)
          (parsePlain hasher codec data.length plain) := hreturns.map _
      constructor
      · rintro ⟨result, hresult, hvouched⟩ plain' hplain
        obtain rfl := Option.some.inj hplain
        refine (parsePlain_vouched_iff _ _).1
          ⟨result, hparse.unique hresult, fun entry hentry => ?_⟩
        obtain ⟨plain', hplain', hentry'⟩ := hvouched entry hentry
        obtain rfl := Option.some.inj hplain'
        exact hentry'
      · intro hmis
        obtain ⟨result, hresult, hvouched⟩ := (parsePlain_vouched_iff _ _).2 (hmis plain rfl)
        exact ⟨result, hresult ▸ hparse, fun entry hentry => ⟨plain, rfl, hvouched entry hentry⟩⟩

/-! ### Data that are not read as they should be -/

/-- A header alone, with the size of the metadata. -/
def loneHeader (size : ℕ) : Bytes :=
  Bytes.littleEndian 8 0 ++ Bytes.littleEndian 4 size ++ Bytes.littleEndian 4 0

/-- It in a frame of one uncompressed block. -/
def loneFrame (size : ℕ) : Bytes := Compressor.rawFrame 0x20 16 (loneHeader size)

theorem returns_loneFrame (size : ℕ) :
    Loop.Returns (Common.zstdDecompress Compressor.rawBlocks (loneFrame size))
      (some (loneHeader size)) :=
  Common.zstdDecompress_frame Compressor.rawBlocks_lawful (Or.inl rfl)

/-- A header of an entry without metadata and files: it is refused. -/
theorem cacheEntry_vouched_lone : ∃ result,
    Loop.Returns (tryParseCacheEntry emptyHasher shortCodec Compressor.rawBlocks (loneFrame 0))
      (.ok result) ∧
    ∀ entry, result = some entry →
      ∃ plain, some (loneHeader 0) = some plain ∧ Vouched emptyHasher shortCodec plain entry := by
  obtain ⟨decompressed, hreturns, hiff⟩ := cacheEntry_vouched_iff emptyHasher shortCodec
    Compressor.rawBlocks_goesForward (loneFrame 0)
  obtain rfl := (returns_loneFrame 0).unique hreturns
  refine hiff.2 fun plain hplain hmis => ?_
  obtain rfl := Option.some.inj hplain
  exact absurd hmis.passes (by decide)

/-- **Data that raise an exception**: the frame is nine bytes longer than the header in it, and the
header says that there are nine bytes of metadata. -/
theorem cacheEntry_raises :
    ¬∀ (z : Compressor) (hasher : Hasher) (codec : MetaCodec) (data : Bytes), z.GoesForward →
      ∃ decompressed, Loop.Returns (Common.zstdDecompress z data) decompressed ∧
      ∃ result, Loop.Returns (tryParseCacheEntry hasher codec z data) (.ok result) ∧
        ∀ entry, result = some entry →
          ∃ plain, decompressed = some plain ∧ Vouched hasher codec plain entry := by
  intro hall
  obtain ⟨decompressed, -, result, hresult, -⟩ := hall Compressor.rawBlocks emptyHasher shortCodec
    (loneFrame 9) Compressor.rawBlocks_goesForward
  have hraises : Loop.Returns
      (tryParseCacheEntry emptyHasher shortCodec Compressor.rawBlocks (loneFrame 9))
      (parsePlain emptyHasher shortCodec (loneFrame 9).length (loneHeader 9)) :=
    (returns_loneFrame 9).map _
  have hrange : parsePlain emptyHasher shortCodec (loneFrame 9).length (loneHeader 9) =
      .error .outOfRange := by decide
  rw [hrange] at hraises
  cases hraises.unique hresult

end Daemon
