/-
**Digests and their notation.**

A compile is known by digests: of the compiler, of the source, and of the two together with the
arguments.  All three programs compute them with Blake3 and write them in hexadecimal notation, but
not with the same code.  The daemons hash by `Blake3` of `common/crypto/blake3.h` and write by the
table of `common/encode.h`; the client hashes what the preprocessor writes, as it is written, and
formats one byte after the other (`client/common/out_stream.cpp`).

The hash function itself is third-party code.  It is a parameter here, given by its three functions,
and the only thing assumed of it is that it does not matter how the input is cut into updates.

Main definitions:

* `Hasher`, `Hasher.Incremental` — a hash function, and the assumption;
* `Common.blake3`, `Common.encodeHex` — hashing and notation of the daemons;
* `Client.Blake3OutStream` — those of the client.

Main results:

* `Client.printfHex_eq` — the two notations of a byte agree;
* `Client.Blake3OutStream.getResult_eq` — **the client's digest is that of the daemons**, for any
  way in which the source is cut into writes.
-/

import Distribuild.Bytes

set_option relaxedAutoImplicit false
set_option autoImplicit false

/-- A hash function by its three functions. -/
structure Hasher where
  State : Type
  init : State
  update : State → Bytes → State
  finalize : State → Bytes

/-- The hash of several pieces of data, one update for each. -/
def Hasher.hash (hasher : Hasher) (data : List Bytes) : Bytes :=
  hasher.finalize (data.foldl hasher.update hasher.init)

/-- It does not matter how the input is cut into updates. -/
def Hasher.Incremental (hasher : Hasher) : Prop :=
  ∀ data, hasher.hash data = hasher.hash [data.flatten]

/-- `blake3_hasher_finalize` writes `BLAKE3_OUT_LEN` bytes. -/
def Hasher.OutLen (hasher : Hasher) : Prop := ∀ state, (hasher.finalize state).length = 32

/-- A function of the whole input, as a hash function whose state collects the input. -/
def Hasher.collecting (f : Bytes → Bytes) : Hasher where
  State := Bytes
  init := []
  update state data := state ++ data
  finalize := f

theorem Hasher.collecting_incremental (f : Bytes → Bytes) : (collecting f).Incremental := by
  intro data
  have hcollect : data.foldl (fun state piece => state ++ piece) [] = data.flatten := by
    have happend : data.foldl (fun state piece => state ++ id piece) [] =
        [] ++ (data.map id).flatten := List.foldl_append_eq_append
    rwa [List.nil_append, List.map_id] at happend
  exact congrArg f hcollect

namespace Common

/-- `Blake3({…})`. -/
def blake3 (hasher : Hasher) (data : List Bytes) : Bytes := hasher.hash data

/-- The characters of `kHexCharsLowercase` and `kHexCharsUppercase`. -/
def hexChars (uppercase : Bool) : Bytes :=
  if uppercase then Bytes.ofString "0123456789ABCDEF" else Bytes.ofString "0123456789abcdef"

/-- The two characters that the table holds for a byte. -/
def hexPair (uppercase : Bool) (e : UInt8) : Bytes :=
  [(hexChars uppercase).getD ((e.toNat >>> 4) &&& 0xF) 0,
    (hexChars uppercase).getD (e.toNat &&& 0xF) 0]

/-- `EncodeHex`. -/
def encodeHex (text : Bytes) (uppercase : Bool := false) : Bytes := text.flatMap (hexPair uppercase)

end Common

namespace Client

/-- `snprintf(buf, …, "%02x", e)`. -/
def printfHex (e : UInt8) : Bytes :=
  let digits := (Nat.toDigits 16 e.toNat).map Char.toUInt8
  List.replicate (2 - digits.length) 48 ++ digits

/-- The digits of the table. -/
theorem hexChars_getD {d : ℕ} (h : d < 16) :
    (Common.hexChars false).getD d 0 = d.digitChar.toUInt8 := by
  revert h
  revert d
  decide

/-- **The two notations of a byte agree.** -/
theorem printfHex_eq (e : UInt8) : printfHex e = Common.hexPair false e := by
  have hlt : e.toNat < 256 := UInt8.toNat_lt e
  have hhigh : (e.toNat >>> 4) &&& 0xF = e.toNat / 16 := by
    rw [Nat.shiftRight_eq_div_pow, show 0xF = 2 ^ 4 - 1 from rfl, Nat.and_two_pow_sub_one_eq_mod]
    omega
  have hlow : e.toNat &&& 0xF = e.toNat % 16 := by
    rw [show 0xF = 2 ^ 4 - 1 from rfl, Nat.and_two_pow_sub_one_eq_mod]
  rw [Common.hexPair, hhigh, hlow, hexChars_getD (by omega), hexChars_getD (by omega), printfHex]
  rcases Nat.lt_or_ge e.toNat 16 with hone | htwo
  · -- one digit, and a zero before it
    rw [Nat.toDigits_of_lt_base hone, Nat.div_eq_of_lt hone, Nat.mod_eq_of_lt hone]
    rfl
  · rw [Nat.toDigits_of_base_le (by omega) htwo, Nat.toDigits_of_lt_base (by omega)]
    rfl

/-! ### The stream that hashes -/

/-- `Blake3OutStream`: the hash function at work, and the digest once `Finalize` has been called. -/
structure Blake3OutStream (hasher : Hasher) where
  state : hasher.State := hasher.init
  digest : Bytes := []

variable {hasher : Hasher}

namespace Blake3OutStream

def write (os : Blake3OutStream hasher) (data : Bytes) : Blake3OutStream hasher :=
  { os with state := hasher.update os.state data }

def finalize (os : Blake3OutStream hasher) : Blake3OutStream hasher :=
  { os with digest := hasher.finalize os.state }

def getResult (os : Blake3OutStream hasher) : Bytes := os.digest.flatMap printfHex

theorem state_foldl_write (os : Blake3OutStream hasher) (writes : List Bytes) :
    (writes.foldl write os).state = writes.foldl hasher.update os.state := by
  induction writes generalizing os with
  | nil => rfl
  | cons data writes ih =>
      rw [List.foldl_cons, ih, List.foldl_cons]
      rfl

/-- **The client's digest is that of the daemons**, for any way in which the source is cut into
writes. -/
theorem getResult_eq (h : hasher.Incremental) (writes : List Bytes) :
    (writes.foldl write ({} : Blake3OutStream hasher)).finalize.getResult =
      Common.encodeHex (Common.blake3 hasher [writes.flatten]) := by
  have hdigest : (writes.foldl write ({} : Blake3OutStream hasher)).finalize.digest =
      hasher.hash writes := by
    rw [finalize, state_foldl_write]
    rfl
  rw [getResult, hdigest, h writes, Common.encodeHex, Common.blake3, funext printfHex_eq]

end Blake3OutStream

end Client
