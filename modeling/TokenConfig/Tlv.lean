import TokenConfig.Bytes
import TokenConfig.Error

/-!
# Tagged values

Responses and payloads are sequences of values, each behind a tag and a length.

* A **tag** is one byte, unless the low five bits of that byte are all set. Then bytes follow, up to
  four in all; the high bit of each is set except in the last. The bytes of a tag, read as one
  number, are the tag.
* A **length** is one byte up to `0x7f`, or one of `0x81`, `0x82`, `0x83` before one, two or three
  bytes of a big-endian number. The shortest form is the one written; every form is read.

`TokenConfig.Tlv.parse?` reads one tagged value off the front of a byte string and leaves the rest,
`TokenConfig.Tlv.decode?` reads a whole byte string as such values, and `TokenConfig.Tlv.encode`
writes one. Reading takes at least two bytes (`TokenConfig.Tlv.length_lt_of_parse?`), which is why a
sequence of tagged values comes to an end.
-/

namespace TokenConfig

/-- A value behind its tag. -/
structure Tlv where
  /-- The bytes of the tag as one number. -/
  tag : UInt32
  /-- The bytes of the value. -/
  value : Bytes
deriving DecidableEq

namespace Tlv

/-! ### Reading a tag -/

/-- Whether more bytes of a tag follow its first one. -/
def continues (first : UInt8) : Bool :=
  first &&& 0x1f == 0x1f

/-- Whether a byte after the first is the last of its tag. -/
def isLast (byte : UInt8) : Bool :=
  byte &&& 0x80 == 0

/-- The greatest tag that has room for one more byte. -/
def extensible : UInt32 := 0x00ffffff

/-- The rest of a tag of which `tag` has been read, and the bytes after it. -/
def parseTagFrom (tag : UInt32) : Bytes → Option (UInt32 × Bytes)
  | [] => none
  | byte :: rest =>
    if extensible < tag then none
    else
      let longer := tag <<< 8 ||| byte.toUInt32
      if isLast byte then some (longer, rest) else parseTagFrom longer rest

/-- The tag at the front of a byte string, and the bytes after it. -/
def parseTag : Bytes → Option (UInt32 × Bytes)
  | [] => none
  | first :: rest =>
    if continues first then parseTagFrom first.toUInt32 rest else some (first.toUInt32, rest)

/-! ### Reading a length and a value -/

/-- The length at the front of a byte string, and the bytes after it. -/
def parseLength : Bytes → Option (Nat × Bytes)
  | [] => none
  | first :: rest =>
    if first ≤ 0x7f then some (first.toNat, rest)
    else if 0x81 ≤ first ∧ first ≤ 0x83 then
      (Bytes.split? (first.toNat - 0x80) rest).map fun (digits, after) => (digits.toNat, after)
    else none

/-- The tagged value at the front of a byte string, and the bytes after it. -/
def parse? (bytes : Bytes) : Option (Tlv × Bytes) :=
  match parseTag bytes with
  | none => none
  | some (tag, afterTag) =>
    match parseLength afterTag with
    | none => none
    | some (length, afterLength) =>
      match Bytes.split? length afterLength with
      | none => none
      | some (value, rest) => some (⟨tag, value⟩, rest)

/-- As `TokenConfig.Tlv.parse?`, with the cause of failure named. -/
def parse (bytes : Bytes) : Except Error (Tlv × Bytes) :=
  match parse? bytes with
  | some result => .ok result
  | none => .error (.malformed .notTagged)

/-! ### Reading takes bytes away -/

theorem length_lt_of_parseTagFrom {tag final : UInt32} {bytes rest : Bytes}
    (h : parseTagFrom tag bytes = some (final, rest)) : rest.length < bytes.length := by
  induction bytes generalizing tag with
  | nil => simp [parseTagFrom] at h
  | cons byte bytes ih =>
    rw [parseTagFrom] at h
    split at h
    · cases h
    · simp only at h
      split at h
      · simp only [Option.some.injEq, Prod.mk.injEq] at h
        simp [h.2]
      · have := ih h
        simp only [List.length_cons]
        omega

theorem length_lt_of_parseTag {tag : UInt32} {bytes rest : Bytes}
    (h : parseTag bytes = some (tag, rest)) : rest.length < bytes.length := by
  cases bytes with
  | nil => simp [parseTag] at h
  | cons first bytes =>
    rw [parseTag] at h
    split at h
    · have := length_lt_of_parseTagFrom h
      simp only [List.length_cons]
      omega
    · simp only [Option.some.injEq, Prod.mk.injEq] at h
      simp [h.2]

theorem length_lt_of_parseLength {length : Nat} {bytes rest : Bytes}
    (h : parseLength bytes = some (length, rest)) : rest.length < bytes.length := by
  cases bytes with
  | nil => simp [parseLength] at h
  | cons first bytes =>
    rw [parseLength] at h
    split at h
    · simp only [Option.some.injEq, Prod.mk.injEq] at h
      simp [h.2]
    · split at h
      · obtain ⟨⟨digits, after⟩, hs, hp⟩ := Option.map_eq_some_iff.mp h
        obtain ⟨rfl, -⟩ := Bytes.split?_eq_some_iff.mp hs
        simp only [Prod.mk.injEq] at hp
        simp only [← hp.2, List.length_cons, List.length_append]
        omega
      · cases h

/-- Reading a tagged value takes at least one byte. -/
theorem length_lt_of_parse? {tlv : Tlv} {bytes rest : Bytes}
    (h : parse? bytes = some (tlv, rest)) : rest.length < bytes.length := by
  unfold parse? at h
  split at h
  · cases h
  · next tag afterTag ht =>
    split at h
    · cases h
    · next length afterLength hl =>
      split at h
      · cases h
      · next value after hs =>
        have h1 := length_lt_of_parseTag ht
        have h2 := length_lt_of_parseLength hl
        obtain ⟨rfl, -⟩ := Bytes.split?_eq_some_iff.mp hs
        simp only [Option.some.injEq, Prod.mk.injEq] at h
        rw [List.length_append] at h2
        rw [← h.2]
        omega

/-! ### Reading a sequence -/

/-- The tagged values that make up `bytes`, after those in `done`, which come last first. -/
def decodeFrom? (done : List Tlv) (bytes : Bytes) : Option (List Tlv) :=
  if bytes.isEmpty then some done.reverse
  else
    match _step : parse? bytes with
    | none => none
    | some (tlv, rest) => decodeFrom? (tlv :: done) rest
termination_by bytes.length
decreasing_by exact length_lt_of_parse? _step

/-- The tagged values that make up `bytes`, in order, if nothing is left over. -/
def decode? (bytes : Bytes) : Option (List Tlv) :=
  decodeFrom? [] bytes

/-! ### Writing -/

/-- The bytes of a tag: those of the number without leading zeros, and at least one. -/
def tagBytes (tag : UInt32) : Bytes :=
  [(tag >>> 24).toUInt8, (tag >>> 16).toUInt8, (tag >>> 8).toUInt8].dropWhile (· == 0) ++
    [tag.toUInt8]

/-- The length of the longest value that can be written. -/
def maxLength : Nat := 0x00ffffff

/-- The shortest form of a length up to `TokenConfig.Tlv.maxLength`. -/
def lengthBytes (length : Nat) : Bytes :=
  if length ≤ 0x7f then [length.toUInt8]
  else if length ≤ 0xff then [0x81, length.toUInt8]
  else if length ≤ 0xffff then [0x82, (length / 0x100).toUInt8, length.toUInt8]
  else [0x83, (length / 0x10000).toUInt8, (length / 0x100).toUInt8, length.toUInt8]

/-- The bytes of a tagged value. A value that is too long for any length form is refused. -/
def encode (tlv : Tlv) : Except Error Bytes :=
  if tlv.value.length ≤ maxLength then
    .ok (tagBytes tlv.tag ++ lengthBytes tlv.value.length ++ tlv.value)
  else .error .size

/-- Writes a tagged value behind what a buffer holds, and counts the bytes written. A refused value
leaves the buffer as it was. -/
def write (buffer : Bytes) (tlv : Tlv) : Except Error Nat × Bytes :=
  match tlv.encode with
  | .ok bytes => (.ok bytes.length, buffer ++ bytes)
  | .error fault => (.error fault, buffer)

/-- Writes tagged values one after another, and goes on after one that is refused. -/
def writeAll (buffer : Bytes) : List Tlv → List (Except Error Nat) × Bytes
  | [] => ([], buffer)
  | tlv :: rest =>
    let (outcome, longer) := write buffer tlv
    let (outcomes, final) := writeAll longer rest
    (outcome :: outcomes, final)

end Tlv

end TokenConfig
