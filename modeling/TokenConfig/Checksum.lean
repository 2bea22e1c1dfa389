import TokenConfig.Bytes

/-!
# The checksum of a record

A 16-bit cyclic redundancy check. The register is kept with its bits reversed, so that the low bit
of each byte enters first and the register moves towards its low end.

* `TokenConfig.Checksum.step` moves the register by one bit, `TokenConfig.Checksum.feed` takes in
  one byte;
* `TokenConfig.Checksum.crc16` is the register after all bytes, from a register of ones;
* `TokenConfig.Checksum.verify` accepts data that ends in the complement of its own checksum, low
  byte first: the register then holds `TokenConfig.Checksum.residue`, whatever came before.
-/

namespace TokenConfig

namespace Checksum

/-- The feedback of the register: the generator without its leading term, bits reversed. -/
def generator : UInt16 := 0x8408

/-- The register after it moved by one bit. The bit that leaves decides on the feedback. -/
def step (register : UInt16) : UInt16 :=
  if register &&& 1 = 1 then (register >>> 1) ^^^ generator else register >>> 1

/-- The register after one byte. -/
def feed (register : UInt16) (byte : UInt8) : UInt16 :=
  let mixed := register ^^^ byte.toUInt16
  step (step (step (step (step (step (step (step mixed)))))))

/-- The register before the first byte. -/
def initial : UInt16 := 0xffff

/-- The checksum of a byte string. -/
def crc16 (bytes : Bytes) : UInt16 :=
  bytes.foldl feed initial

/-- The register after data and the complement of its checksum. -/
def residue : UInt16 := 0xf0b8

/-- Whether data carries its own checksum at its end. -/
def verify (bytes : Bytes) : Bool :=
  crc16 bytes == residue

/-- The checksum of a concatenation goes on from the checksum of its first part. -/
theorem crc16_append (front rest : Bytes) : crc16 (front ++ rest) = rest.foldl feed (crc16 front) :=
  List.foldl_append

end Checksum

end TokenConfig
