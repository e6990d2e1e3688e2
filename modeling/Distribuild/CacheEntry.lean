/-
**The entries of the compile cache.**

A servant that has compiled a file puts the result into the cache, and a daemon that finds it there
does not compile again.  `TryMakeCacheData` of `daemon/cache.h` writes an entry as a binary header
with two sizes, the metadata in the format of protobuf and the packed files, and compresses the
whole; `TryParseCacheEntry` decompresses it and reads it back.

The reader compares the sizes of the header, which are those of the plain data, with the size of the
data that it was given, which is compressed.

Main definitions:

* `Daemon.CacheMeta`, `Daemon.MetaCodec` — the metadata, and protobuf's functions for it;
* `Daemon.CacheEntry`, `Daemon.plainCacheData`, `Daemon.tryMakeCacheData` — writing an entry;
* `Daemon.tryParseCacheEntry` — reading it.

Main results:

* `Daemon.parsePlain_plainCacheData` — what the reader makes of the plain data, for each size it is
  told;
* `Daemon.tryParseCacheEntry_iff` — **an entry is read back if and only if compression does not
  change its size**.
-/

import Distribuild.Digest
import Distribuild.ZstdStreams

set_option relaxedAutoImplicit false
set_option autoImplicit false

namespace Daemon

/-! ### Writing an entry -/

/-- `CacheMeta`. -/
structure CacheMeta where
  exitCode : Int32
  stdOut : Bytes
  stdErr : Bytes
  extraInfo : Bytes
  filesCheckHash : Bytes
deriving DecidableEq, Repr

/-- `SerializeAsString` and `ParseFromString` of the metadata. -/
structure MetaCodec where
  serializeAsString : CacheMeta → Bytes
  parseFromString : Bytes → Option CacheMeta

/-- `CacheEntry`. -/
structure CacheEntry where
  exitCode : Int32
  stdOut : Bytes
  stdErr : Bytes
  extraInfo : Bytes
  packed : Bytes
deriving DecidableEq, Repr

/-- `sizeof(CacheHeader)`. -/
def headerSize : ℕ := 16

section Codec

variable (hasher : Hasher) (codec : MetaCodec)

/-- The metadata of an entry. -/
def CacheEntry.toMeta (entry : CacheEntry) : CacheMeta where
  exitCode := entry.exitCode
  stdOut := entry.stdOut
  stdErr := entry.stdErr
  extraInfo := entry.extraInfo
  filesCheckHash := Common.blake3 hasher [entry.packed]

/-- The metadata of an entry as it is written. -/
def CacheEntry.metaStr (entry : CacheEntry) : Bytes := codec.serializeAsString (entry.toMeta hasher)

/-- The `CacheHeader` of an entry in memory: `packed_size`, `meta_size` and `compression_algorithm`,
which is not set and therefore zero. -/
def CacheEntry.header (entry : CacheEntry) : Bytes :=
  Bytes.littleEndian 8 entry.packed.length ++
    Bytes.littleEndian 4 (entry.metaStr hasher codec).length ++ Bytes.littleEndian 4 0

/-- What is compressed. -/
def plainCacheData (entry : CacheEntry) : Bytes :=
  entry.header hasher codec ++ entry.metaStr hasher codec ++ entry.packed

/-- `TryMakeCacheData`. -/
def tryMakeCacheData (z : Compressor) (entry : CacheEntry) : Option Bytes :=
  Common.zstdCompress z (plainCacheData hasher codec entry)

/-! ### Reading an entry -/

/-- The end of `TryParseCacheEntry`, for the metadata and the files. -/
def ofParts (cacheMeta : CacheMeta) (packed : Bytes) : Option CacheEntry :=
  if cacheMeta.filesCheckHash ≠ Common.blake3 hasher [packed] then none
  else some
    { exitCode := cacheMeta.exitCode
      stdOut := cacheMeta.stdOut
      stdErr := cacheMeta.stdErr
      extraInfo := cacheMeta.extraInfo
      packed := packed }

/-- `TryParseCacheEntry` once the data is decompressed; `dataSize` is the size of the data. -/
def parsePlain (dataSize : ℕ) (decompressed : Bytes) : Except Fault (Option CacheEntry) :=
  if decompressed.length < headerSize then .ok none
  else
    let packedSize := Bytes.ofLittleEndian (decompressed.take 8)
    let metaSize := Bytes.ofLittleEndian ((decompressed.drop 8).take 4)
    -- The sum is one of `size_t`.
    if (metaSize + packedSize + headerSize) % Bytes.sizeValues ≠ dataSize then .ok none
    else do
      let metaStr ← Bytes.substr decompressed headerSize metaSize
      match codec.parseFromString metaStr with
      | none => return none
      | some cacheMeta =>
          let packed ← Bytes.substr decompressed (headerSize + metaSize) decompressed.length
          return ofParts hasher cacheMeta packed

/-- `TryParseCacheEntry`; nothing at all as long as the loops of the decompression have not ended.
-/
def tryParseCacheEntry (z : Compressor) (data : Bytes) (fuel : ℕ) :
    Option (Except Fault (Option CacheEntry)) :=
  (Common.zstdDecompress z data fuel).map fun
    | none => .ok none
    | some decompressed => parsePlain hasher codec data.length decompressed

/-! ### Reading what was written -/

theorem length_header (entry : CacheEntry) : (entry.header hasher codec).length = headerSize := by
  simp only [CacheEntry.header, List.length_append, Bytes.length_littleEndian]
  rfl

/-- The sizes of the entry are those that a `size_t` and the header can hold. -/
structure CacheEntry.Fits (entry : CacheEntry) : Prop where
  metaStr : (entry.metaStr hasher codec).length < 2 ^ 32
  total : (plainCacheData hasher codec entry).length < Bytes.sizeValues

theorem length_plainCacheData (entry : CacheEntry) :
    (plainCacheData hasher codec entry).length =
      headerSize + (entry.metaStr hasher codec).length + entry.packed.length := by
  simp only [plainCacheData, List.length_append, length_header]

/-- The metadata and the files are found where the header says. -/
theorem substr_plainCacheData (entry : CacheEntry) :
    Bytes.substr (plainCacheData hasher codec entry) headerSize
        (entry.metaStr hasher codec).length = .ok (entry.metaStr hasher codec) ∧
      Bytes.substr (plainCacheData hasher codec entry)
        (headerSize + (entry.metaStr hasher codec).length)
        (plainCacheData hasher codec entry).length = .ok entry.packed := by
  have hlength := length_plainCacheData hasher codec entry
  constructor
  · rw [Bytes.substr, if_neg (by omega), plainCacheData, List.append_assoc,
      List.drop_left' (length_header hasher codec entry), List.take_left' rfl]
  · rw [Bytes.substr, if_neg (by omega), List.take_of_length_le (by rw [List.length_drop]; omega),
      plainCacheData, List.drop_left' (by rw [List.length_append, length_header])]

variable {hasher codec}

/-- The two sizes are read back from the header. -/
theorem sizes_plainCacheData {entry : CacheEntry} (h : entry.Fits hasher codec) :
    Bytes.ofLittleEndian ((plainCacheData hasher codec entry).take 8) = entry.packed.length ∧
      Bytes.ofLittleEndian (((plainCacheData hasher codec entry).drop 8).take 4) =
        (entry.metaStr hasher codec).length := by
  have hmeta := h.metaStr
  have htotal := h.total
  rw [length_plainCacheData] at htotal
  have hpacked : entry.packed.length < 256 ^ 8 := by
    simp only [Bytes.sizeValues] at htotal
    omega
  simp only [plainCacheData, CacheEntry.header, List.append_assoc]
  rw [List.take_left' (Bytes.length_littleEndian ..), List.drop_left' (Bytes.length_littleEndian ..),
    List.take_left' (Bytes.length_littleEndian ..)]
  exact ⟨Bytes.ofLittleEndian_littleEndian hpacked, Bytes.ofLittleEndian_littleEndian (by omega)⟩

/-- **What the reader makes of the plain data**: the entry, if it is told the size of the plain
data, and nothing otherwise. -/
theorem parsePlain_plainCacheData {entry : CacheEntry} (h : entry.Fits hasher codec)
    (hcodec : codec.parseFromString (entry.metaStr hasher codec) = some (entry.toMeta hasher))
    (dataSize : ℕ) :
    parsePlain hasher codec dataSize (plainCacheData hasher codec entry) =
      .ok (if dataSize = (plainCacheData hasher codec entry).length then some entry else none) := by
  obtain ⟨hpacked, hmeta⟩ := sizes_plainCacheData h
  obtain ⟨hsubMeta, hsubPacked⟩ := substr_plainCacheData hasher codec entry
  have hlength := length_plainCacheData hasher codec entry
  have hsum : ((entry.metaStr hasher codec).length + entry.packed.length + headerSize) %
      Bytes.sizeValues = (plainCacheData hasher codec entry).length := by
    have htotal := h.total
    rw [Nat.mod_eq_of_lt (by omega)]
    omega
  have hparts : ofParts hasher (entry.toMeta hasher) entry.packed = some entry := by
    simp [ofParts, CacheEntry.toMeta]
  rw [parsePlain, if_neg (by omega)]
  simp only [hpacked, hmeta, hsum]
  by_cases hsize : dataSize = (plainCacheData hasher codec entry).length
  · rw [if_neg (not_not.2 hsize.symm), if_pos hsize, hsubMeta, hsubPacked]
    simp only [bind, Except.bind, pure, Except.pure, hcodec, hparts]
  · rw [if_pos (fun heq => hsize heq.symm), if_neg hsize]

/-- What comes back of the compressed data. -/
theorem returns_tryParseCacheEntry {z : Compressor} (hz : z.Lawful) {entry : CacheEntry}
    (h : entry.Fits hasher codec)
    (hcodec : codec.parseFromString (entry.metaStr hasher codec) = some (entry.toMeta hasher))
    {data : Bytes} (hdata : tryMakeCacheData hasher codec z entry = some data) :
    Loop.Returns (tryParseCacheEntry hasher codec z data)
      (.ok (if data.length = (plainCacheData hasher codec entry).length then some entry
        else none)) := by
  rw [← parsePlain_plainCacheData h hcodec data.length]
  exact (Common.zstdDecompress_frame hz (Or.inl hdata)).map _

/-- **An entry is read back if and only if compression does not change its size**: if the data that
`TryMakeCacheData` makes is as long as the plain data it is made of.  The two functions return, and
what does not come back is not found. -/
theorem tryParseCacheEntry_iff {z : Compressor} (hz : z.Lawful) {entry : CacheEntry}
    (h : entry.Fits hasher codec)
    (hcodec : codec.parseFromString (entry.metaStr hasher codec) = some (entry.toMeta hasher)) :
    (∃ data, tryMakeCacheData hasher codec z entry = some data ∧
        Loop.Returns (tryParseCacheEntry hasher codec z data) (.ok (some entry))) ↔
      (z.compress (plainCacheData hasher codec entry)).map List.length =
        some (plainCacheData hasher codec entry).length := by
  obtain ⟨data, hdata⟩ := hz.compress_some (plainCacheData hasher codec entry)
  have hreturns := returns_tryParseCacheEntry hz h hcodec hdata
  rw [hdata, Option.map_some, Option.some_inj]
  constructor
  · rintro ⟨data', hdata', hreturns'⟩
    obtain rfl : data = data' := Option.some_inj.1 (hdata.symm.trans hdata')
    have hsame := hreturns.unique hreturns'
    by_contra hne
    rw [if_neg hne] at hsame
    cases hsame
  · intro hlength
    rw [if_pos hlength] at hreturns
    exact ⟨data, hdata, hreturns⟩

end Codec

/-! ### An empty entry -/

/-- A field of bytes, shorter than 128, in the format of protobuf. -/
def shortField (tag : UInt8) (content : Bytes) : Bytes := tag :: UInt8.ofNat content.length :: content

/-- A field that is left out if it is empty. -/
def optionalField (tag : UInt8) (content : Bytes) : Bytes :=
  if content = [] then [] else shortField tag content

/-- Reading such a field: its content and what follows. -/
def takeField (tag : UInt8) : Bytes → Bytes × Bytes
  | [] => ([], [])
  | [b] => ([], [b])
  | b :: size :: rest =>
      if b = tag then (rest.take size.toNat, rest.drop size.toNat) else ([], b :: size :: rest)

/-- Protobuf on metadata with a zero exit code and short fields.  (The extra information is a
message and therefore written even if it is empty.) -/
def shortCodec : MetaCodec where
  serializeAsString m :=
    optionalField 0x12 m.stdOut ++ optionalField 0x1a m.stdErr ++ shortField 0x22 m.extraInfo ++
      optionalField 0x2a m.filesCheckHash
  parseFromString s :=
    let (stdOut, s) := takeField 0x12 s
    let (stdErr, s) := takeField 0x1a s
    let (extraInfo, s) := takeField 0x22 s
    let (filesCheckHash, s) := takeField 0x2a s
    if s = [] then
      some
        { exitCode := 0
          stdOut := stdOut
          stdErr := stdErr
          extraInfo := extraInfo
          filesCheckHash := filesCheckHash }
    else none

/-- The hash function at the empty input, where it has this value. -/
def emptyHasher : Hasher :=
  .collecting fun _ =>
    [0xaf, 0x13, 0x49, 0xb9, 0xf5, 0xf9, 0xa1, 0xa6, 0xa0, 0x40, 0x4d, 0xea, 0x36, 0xdc, 0xc9, 0x49,
      0x9b, 0xcb, 0x25, 0xc9, 0xad, 0xc1, 0x12, 0xb7, 0xcc, 0x9a, 0x93, 0xca, 0xe4, 0x1f, 0x32, 0x62]

/-- The entry of a compile that printed nothing and left no files. -/
def emptyEntry : CacheEntry :=
  { exitCode := 0, stdOut := [], stdErr := [], extraInfo := [], packed := [] }

theorem emptyEntry_fits : emptyEntry.Fits emptyHasher shortCodec :=
  ⟨by decide, by decide⟩

/-- An uncompressed block is longer than its content, and the entry in it is not found. -/
theorem tryParseCacheEntry_empty :
    ¬ ∃ data, tryMakeCacheData emptyHasher shortCodec Compressor.rawBlocks emptyEntry = some data ∧
      Loop.Returns (tryParseCacheEntry emptyHasher shortCodec Compressor.rawBlocks data)
        (.ok (some emptyEntry)) := by
  rw [tryParseCacheEntry_iff Compressor.rawBlocks_lawful emptyEntry_fits (by decide)]
  decide

/-- A compressor that is lawful and an entry of a few bytes are enough to lose the entry. -/
theorem tryParseCacheEntry_loses :
    ¬ ∀ (z : Compressor) (hasher : Hasher) (codec : MetaCodec) (entry : CacheEntry), z.Lawful →
      entry.Fits hasher codec →
      codec.parseFromString (entry.metaStr hasher codec) = some (entry.toMeta hasher) →
      ∃ data, tryMakeCacheData hasher codec z entry = some data ∧
        Loop.Returns (tryParseCacheEntry hasher codec z data) (.ok (some entry)) := by
  intro hall
  obtain ⟨data, hdata, hread⟩ := hall Compressor.rawBlocks emptyHasher shortCodec emptyEntry
    Compressor.rawBlocks_lawful emptyEntry_fits (by decide)
  have hlost := returns_tryParseCacheEntry Compressor.rawBlocks_lawful emptyEntry_fits (by decide) hdata
  have hlength : data.length ≠ (plainCacheData emptyHasher shortCodec emptyEntry).length := by
    obtain rfl : _ = data := Option.some_inj.1 hdata
    decide
  rw [if_neg hlength] at hlost
  cases hlost.unique hread

end Daemon
