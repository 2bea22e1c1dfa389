import TokenConfig.Checksum
import TokenConfig.Error
import TokenConfig.Slot.Field
import TokenConfig.Slot.Flags
import TokenConfig.Text.Braced

/-!
# Reading a record

`TokenConfig.SlotRecord.parse` accepts a byte string that has the length of a record and carries its
own checksum, and looks at nothing else. What it accepts is a `TokenConfig.SlotRecord`, whose fields
are then read at the places that `TokenConfig.Field` gives them.
-/

namespace TokenConfig

/-- A byte string that was accepted as a record. -/
structure SlotRecord where
  /-- The bytes of the record. -/
  bytes : Bytes
  /-- They are as many as a record has. -/
  length_eq : bytes.length = Field.recordSize
  /-- The configuration carries its own checksum. -/
  verified : Checksum.verify (bytes.take Field.configSize) = true
deriving DecidableEq

namespace SlotRecord

/-- Accepts a record. A wrong length is noticed before a wrong checksum. -/
def parse (bytes : Bytes) : Except Error SlotRecord :=
  if length_eq : bytes.length = Field.recordSize then
    if verified : Checksum.verify (bytes.take Field.configSize) = true then
      .ok ⟨bytes, length_eq, verified⟩
    else .error .checksum
  else .error .size

/-! ### Fields -/

/-- The bytes of a field. -/
def field (record : SlotRecord) (field : Field) : Bytes :=
  (record.bytes.drop field.offset).take field.size

/-- The byte of a field of one byte. -/
def byte (record : SlotRecord) (field : Field) : UInt8 :=
  (record.field field).headD 0

/-- The number of bytes used of the first field, as the record gives it. -/
def fixedLength (record : SlotRecord) : UInt8 :=
  record.byte .fixedLength

/-- The public identifier: as much of the first field as is used. A length that exceeds the field
means all of it. -/
def fixed (record : SlotRecord) : Bytes :=
  (record.field .fixed).take record.fixedLength.toNat

/-- The configuration flags. -/
def configFlags (record : SlotRecord) : ConfigFlags :=
  ⟨(record.byte .configFlags).toBitVec⟩

/-- The extended flags. -/
def extendedFlags (record : SlotRecord) : ExtendedFlags :=
  ⟨(record.byte .extendedFlags).toBitVec⟩

/-- The ticket flags. -/
def ticketFlags (record : SlotRecord) : TicketFlags :=
  ⟨(record.byte .ticketFlags).toBitVec⟩

/-- The number in the checksum field. -/
def checksum (record : SlotRecord) : UInt16 :=
  Bytes.ofLittleEndian (record.field .checksum)

/-- The record in one line, which shows length and flags, and no value. -/
def description (record : SlotRecord) : String :=
  Braced.partly "SlotRecord" [
    Braced.part "fixed_len" (toString record.fixedLength.toNat),
    Braced.part "cfg_flags" record.configFlags.description,
    Braced.part "ext_flags" record.extendedFlags.description,
    Braced.part "tkt_flags" record.ticketFlags.description]

end SlotRecord

end TokenConfig
