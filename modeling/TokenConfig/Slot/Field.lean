/-!
# The fields of a record

A record is 58 bytes long and made of eleven fields, one behind the other without gaps. The fields,
in their order, and the size of each are all there is to say: offsets and sizes of longer parts are
computed from them.

The checksum covers the fields before it. What it covers together with itself is the *configuration*
proper; behind it comes the access code that protects the slot at present, which the token compares
and does not store.
-/

namespace TokenConfig

/-- A field of a record. -/
inductive Field where
  /-- The public identifier, or the first part of a static password. -/
  | fixed
  /-- The private identifier. -/
  | uid
  /-- The key. -/
  | key
  /-- The access code that protects the slot from now on. -/
  | accessCode
  /-- The number of bytes used of the first field. -/
  | fixedLength
  /-- The extended flags. -/
  | extendedFlags
  /-- The ticket flags. -/
  | ticketFlags
  /-- The configuration flags. -/
  | configFlags
  /-- Two bytes without a meaning, always zero. -/
  | reserved
  /-- The complement of the checksum of everything before it, low byte first. -/
  | checksum
  /-- The access code that protects the slot so far. -/
  | currentAccessCode
deriving DecidableEq

namespace Field

/-- The fields in the order of the record. -/
def all : List Field :=
  [.fixed, .uid, .key, .accessCode, .fixedLength, .extendedFlags, .ticketFlags, .configFlags,
    .reserved, .checksum, .currentAccessCode]

/-- The number of bytes of a field. -/
def size : Field → Nat
  | .fixed => 16
  | .uid => 6
  | .key => 16
  | .accessCode => 6
  | .fixedLength => 1
  | .extendedFlags => 1
  | .ticketFlags => 1
  | .configFlags => 1
  | .reserved => 2
  | .checksum => 2
  | .currentAccessCode => 6

/-- The number of bytes of several fields. -/
def totalSize (fields : List Field) : Nat :=
  fields.foldl (fun total field => total + field.size) 0

/-- The fields before a given one. -/
def before (field : Field) : List Field :=
  all.takeWhile (· ≠ field)

/-- The number of bytes before a field. -/
def offset (field : Field) : Nat :=
  totalSize field.before

/-- The number of bytes up to the end of a field. -/
def finish (field : Field) : Nat :=
  field.offset + field.size

/-- The number of bytes that carry a checksum at their end. -/
def configSize : Nat :=
  checksum.finish

/-- The number of bytes of a record. -/
def recordSize : Nat :=
  totalSize all

/-- The greatest length of an HMAC key: what the key field does not hold of it goes to the first
four bytes of the private identifier. -/
def hmacKeySize : Nat := 20

/-- The greatest number of scan codes of a static password, which fill the first three fields. -/
def scanCodesSize : Nat :=
  totalSize [fixed, uid, key]

/-- The name of a field in messages to people. -/
def label : Field → String
  | .fixed => "fixed"
  | .uid => "uid"
  | .key => "key"
  | .accessCode => "access code"
  | .fixedLength => "fixed length"
  | .extendedFlags => "extended flags"
  | .ticketFlags => "ticket flags"
  | .configFlags => "configuration flags"
  | .reserved => "reserved"
  | .checksum => "checksum"
  | .currentAccessCode => "current access code"

end Field

end TokenConfig
