/-
This file fixes how a number stands in a run of bytes. A number is spelled with a given
count of bytes, least significant first; a big-endian file holds the same bytes in the
opposite order. Reading undoes spelling for every number that fits, and spelling undoes
reading for every run of bytes.
-/

import MatFormat.Power

namespace MatFormat

/-! ### Numbers as bytes, least significant first -/

/-- The number that `bytes` spells, least significant byte first. -/
def natOfBytes : List UInt8 → Nat
  | [] => 0
  | byte :: rest => byte.toNat + 256 * natOfBytes rest

/-- The lowest `count` bytes of a number, least significant byte first. -/
def bytesOfNat : (count : Nat) → Nat → List UInt8
  | 0, _ => []
  | count + 1, value => UInt8.ofNat value :: bytesOfNat count (value / 256)

theorem length_bytesOfNat (count value : Nat) : (bytesOfNat count value).length = count := by
  induction count generalizing value with
  | zero => rfl
  | succ count inductionHypothesis => simp [bytesOfNat, inductionHypothesis]

theorem natOfBytes_lt (bytes : List UInt8) : natOfBytes bytes < 256 ^ bytes.length := by
  induction bytes with
  | nil => simp [natOfBytes]
  | cons byte rest inductionHypothesis =>
    have small := byte.toNat_lt
    simp only [natOfBytes, List.length_cons, Nat.pow_succ]
    omega

/-- Reading a spelled number back keeps what fits into the bytes. -/
theorem natOfBytes_bytesOfNat (count value : Nat) :
    natOfBytes (bytesOfNat count value) = value % 256 ^ count := by
  induction count generalizing value with
  | zero => simp [bytesOfNat, natOfBytes, Nat.mod_one]
  | succ count inductionHypothesis =>
    have low : (UInt8.ofNat value).toNat = value % 256 := by simp
    rw [bytesOfNat, natOfBytes, inductionHypothesis, low, Nat.pow_succ,
      Nat.mul_comm (256 ^ count) 256, Nat.mod_mul]

/-- Spelling a number that was read from bytes gives those bytes. -/
theorem bytesOfNat_natOfBytes (bytes : List UInt8) :
    bytesOfNat bytes.length (natOfBytes bytes) = bytes := by
  induction bytes with
  | nil => rfl
  | cons byte rest inductionHypothesis =>
    have small := byte.toNat_lt
    have high : (byte.toNat + 256 * natOfBytes rest) / 256 = natOfBytes rest := by omega
    have low : UInt8.ofNat (byte.toNat + 256 * natOfBytes rest) = byte := by
      rw [← UInt8.toNat_inj, UInt8.toNat_ofNat']
      omega
    simp only [natOfBytes, List.length_cons, bytesOfNat, high, low, inductionHypothesis]

/-! ### The two byte orders -/

/-- The byte order of every number of a file. -/
inductive ByteOrder where
  | little
  | big
deriving DecidableEq, Repr

namespace ByteOrder

/-- The order used where none is asked for. -/
def native : ByteOrder := .little

/-- Bytes in the order of the file, from or to the order of significance. -/
def arrange : ByteOrder → List UInt8 → List UInt8
  | little, bytes => bytes
  | big, bytes => bytes.reverse

/-- The lowest `count` bytes of a number as the file holds them. -/
def encode (order : ByteOrder) (count value : Nat) : List UInt8 :=
  order.arrange (bytesOfNat count value)

/-- The number that a run of bytes of the file spells. -/
def decode (order : ByteOrder) (bytes : List UInt8) : Nat :=
  natOfBytes (order.arrange bytes)

/-- The two letters at the end of the file header that tell the order. -/
def marker : ByteOrder → List UInt8
  | little => [0x49, 0x4D]
  | big => [0x4D, 0x49]

/-- The order that a marker tells, if it is one of the two. -/
def ofMarker? (letters : List UInt8) : Option ByteOrder :=
  if letters = marker little then some little
  else if letters = marker big then some big
  else none

/-- The name of the order in a notice. -/
def name : ByteOrder → String
  | little => "Little"
  | big => "Big"

theorem arrange_arrange (order : ByteOrder) (bytes : List UInt8) :
    order.arrange (order.arrange bytes) = bytes := by
  cases order <;> simp [arrange]

theorem length_arrange (order : ByteOrder) (bytes : List UInt8) :
    (order.arrange bytes).length = bytes.length := by
  cases order <;> simp [arrange]

theorem length_encode (order : ByteOrder) (count value : Nat) :
    (order.encode count value).length = count := by
  rw [encode, length_arrange, length_bytesOfNat]

theorem decode_lt (order : ByteOrder) (bytes : List UInt8) :
    order.decode bytes < 256 ^ bytes.length := by
  have bound := natOfBytes_lt (order.arrange bytes)
  rwa [length_arrange] at bound

theorem decode_encode (order : ByteOrder) (count value : Nat) :
    order.decode (order.encode count value) = value % 256 ^ count := by
  rw [decode, encode, arrange_arrange, natOfBytes_bytesOfNat]

theorem encode_decode (order : ByteOrder) (bytes : List UInt8) :
    order.encode bytes.length (order.decode bytes) = bytes := by
  have spelled := bytesOfNat_natOfBytes (order.arrange bytes)
  rw [length_arrange] at spelled
  rw [encode, decode, spelled, arrange_arrange]

theorem ofMarker?_marker (order : ByteOrder) : ofMarker? order.marker = some order := by
  cases order <;> rfl

end ByteOrder

end MatFormat
