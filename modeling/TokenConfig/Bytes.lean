/-!
# Byte strings

Everything a token is sent or answers is a string of bytes. This file holds the type and the few
readings of it that the formats share:

* `TokenConfig.Bytes.toNat`, the **value** of a byte string read as one big-endian number, and
  `TokenConfig.Bytes.toWord`, the same value kept in 32 bits;
* `TokenConfig.Bytes.split?`, which takes a part of a given length off the front, and refuses when
  the bytes run out, and `TokenConfig.Bytes.after?`, which takes off a given front;
* `TokenConfig.Bytes.zeroPadded`, the form a value has inside a field of fixed size;
* `TokenConfig.Bytes.AtMost` and `TokenConfig.Bytes.Exactly`, the byte strings that fit a field and
  those that fill it.

Byte strings are lists, so that every statement on concatenation is one on `++`.
-/

namespace TokenConfig

/-- The byte strings, first byte first. -/
abbrev Bytes := List UInt8

namespace Bytes

/-! ### Numbers -/

/-- The number whose base-256 digits are `bytes`, the most significant one first. -/
def toNat (bytes : Bytes) : Nat :=
  bytes.foldl (fun value byte => 256 * value + byte.toNat) 0

/-- The big-endian value of `bytes` as far as 32 bits hold it: each byte moves those before it up,
and what leaves the word at the top is lost. -/
def toWord (bytes : Bytes) : UInt32 :=
  bytes.foldl (fun word byte => word <<< 8 ||| byte.toUInt32) 0

/-- The two bytes of a word, the high one first. -/
def bigEndian (word : UInt16) : Bytes :=
  [(word >>> 8).toUInt8, word.toUInt8]

/-- The two bytes of a word, the low one first. -/
def littleEndian (word : UInt16) : Bytes :=
  [word.toUInt8, (word >>> 8).toUInt8]

/-- The word whose bytes are `bytes`, the low one first. -/
def ofLittleEndian (bytes : Bytes) : UInt16 :=
  (toNat bytes.reverse).toUInt16

@[simp] theorem length_bigEndian (word : UInt16) : (bigEndian word).length = 2 := rfl

@[simp] theorem length_littleEndian (word : UInt16) : (littleEndian word).length = 2 := rfl

/-! ### Parts -/

/-- The first `count` bytes and the bytes after them, if there are that many. -/
def split? (count : Nat) (bytes : Bytes) : Option (Bytes × Bytes) :=
  let front := bytes.take count
  if front.length = count then some (front, bytes.drop count) else none

/-- A split loses nothing and gives a front of the length asked for. -/
theorem split?_eq_some_iff {count : Nat} {bytes front rest : Bytes} :
    split? count bytes = some (front, rest) ↔ bytes = front ++ rest ∧ front.length = count := by
  unfold split?
  simp only
  split
  · next h =>
    constructor
    · rintro ⟨⟩
      exact ⟨(List.take_append_drop count bytes).symm, h⟩
    · rintro ⟨rfl, rfl⟩
      simp
  · next h =>
    constructor
    · intro hn
      cases hn
    · rintro ⟨rfl, rfl⟩
      simp at h

/-- What follows `front` in `bytes`, if they begin with it. -/
def after? : (front bytes : Bytes) → Option Bytes
  | [], bytes => some bytes
  | _ :: _, [] => none
  | first :: front, byte :: bytes => if first = byte then after? front bytes else none

/-! ### Fields of fixed size -/

/-- The form of a value in a field of `size` bytes: what fits of it, then zeros up to the size. -/
def zeroPadded (size : Nat) (bytes : Bytes) : Bytes :=
  bytes.take size ++ List.replicate (size - bytes.length) 0

/-- A padded value has the size of its field. -/
@[simp] theorem length_zeroPadded (size : Nat) (bytes : Bytes) :
    (zeroPadded size bytes).length = size := by
  simp only [zeroPadded, List.length_append, List.length_take, List.length_replicate]
  omega

/-- A byte string that fits into `size` bytes. -/
structure AtMost (size : Nat) where
  /-- The bytes of the value. -/
  bytes : Bytes
  /-- There are at most `size` of them. -/
  length_le : bytes.length ≤ size
deriving DecidableEq

/-- The front of `bytes` that fits into `size` bytes. -/
def AtMost.cut (size : Nat) (bytes : Bytes) : AtMost size :=
  ⟨bytes.take size, List.length_take_le size bytes⟩

/-- A byte string of exactly `size` bytes. -/
structure Exactly (size : Nat) where
  /-- The bytes of the value. -/
  bytes : Bytes
  /-- There are `size` of them. -/
  length_eq : bytes.length = size
deriving DecidableEq

/-- The value with the given bytes, if there are exactly `size` of them. -/
def Exactly.ofBytes? (size : Nat) (bytes : Bytes) : Option (Exactly size) :=
  if h : bytes.length = size then some ⟨bytes, h⟩ else none

/-- The `size` bytes that a stream of bytes holds from position `start` on. -/
def Exactly.ofStream (stream : Nat → UInt8) (start size : Nat) : Exactly size :=
  ⟨(List.range size).map fun i => stream (start + i), by simp⟩

end Bytes

end TokenConfig
