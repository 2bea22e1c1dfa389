import TokenConfig.Bytes
import TokenConfig.Slot.Field

/-!
# Where key material goes

Key material is longer than the key field for two kinds of credential. `TokenConfig.KeyMode.split`
deals it out over the first three fields of a record:

* an AES key fills the key field;
* an HMAC key fills the key field, and what is left of it goes to the private identifier;
* the scan codes of a static password fill the three fields in their order.

A field that gets nothing stays as it was. Only the key field of an AES or HMAC key is always set,
even by material of no bytes at all.
-/

namespace TokenConfig

/-- The kinds of key material. -/
inductive KeyMode where
  /-- A key of 16 bytes. -/
  | aes
  /-- A key of up to 20 bytes. -/
  | hmacSha1
  /-- Up to 38 scan codes. -/
  | static
deriving DecidableEq

/-- Key material by field. -/
structure KeyParts where
  /-- The new contents of the first field, if it gets any. -/
  fixed : Option Bytes
  /-- The new contents of the private identifier, if it gets any. -/
  uid : Option Bytes
  /-- The new contents of the key field, if it gets any. -/
  key : Option Bytes
deriving DecidableEq

namespace KeyMode

/-- The number of bytes of key material that a record has room for. -/
def capacity : KeyMode → Nat
  | .aes => Field.key.size
  | .hmacSha1 => Field.hmacKeySize
  | .static => Field.scanCodesSize

/-- The name of a kind of key material in messages to people. -/
def label : KeyMode → String
  | .aes => "Aes"
  | .hmacSha1 => "HmacSha1"
  | .static => "Static"

/-- The material from position `start` up to position `finish`, if it reaches beyond `start`. -/
def part? (start finish : Nat) (material : Bytes) : Option Bytes :=
  if start < material.length then some ((material.take finish).drop start) else none

/-- Deals key material out over the fields. -/
def split (mode : KeyMode) (material : Bytes) : KeyParts :=
  match mode with
  | .aes =>
    { fixed := none, uid := none, key := some (material.take Field.key.size) }
  | .hmacSha1 =>
    { fixed := none
      uid := part? Field.key.size Field.hmacKeySize material
      key := some (material.take Field.key.size) }
  | .static =>
    { fixed := part? Field.fixed.offset Field.fixed.finish material
      uid := part? Field.uid.offset Field.uid.finish material
      key := part? Field.key.offset Field.key.finish material }

end KeyMode

end TokenConfig
