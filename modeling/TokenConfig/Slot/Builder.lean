import TokenConfig.Checksum
import TokenConfig.Event
import TokenConfig.Slot.Flags
import TokenConfig.Text.Braced

/-!
# Putting a record together

A `TokenConfig.Builder` collects the parts of a record, in any order and any number of times, and
`TokenConfig.Builder.build` writes the record. A value that is too long for its field is cut, which
the log says; nothing is ever refused.

* `TokenConfig.Builder.Step` is one thing that can be done to a builder,
  `TokenConfig.Builder.apply` does it, `TokenConfig.Builder.run` does many;
* a record is the padded contents of the fields in their order, with the complement of the checksum
  of the ones before it in the checksum field.

That a stored value fits its field is part of the type of a builder, so `build` need not look.
-/

namespace TokenConfig

/-- The parts of a record as far as they are known. -/
structure Builder where
  /-- The public identifier. -/
  fixed : Option (Bytes.AtMost Field.fixed.size)
  /-- The private identifier. -/
  uid : Option (Bytes.AtMost Field.uid.size)
  /-- The key. -/
  key : Option (Bytes.AtMost Field.key.size)
  /-- The access code that protects the slot from now on. -/
  accessCode : Option (Bytes.AtMost Field.accessCode.size)
  /-- The access code that protects the slot so far. -/
  currentAccessCode : Option (Bytes.AtMost Field.currentAccessCode.size)
  /-- The configuration flags. -/
  configFlags : ConfigFlags
  /-- The extended flags. -/
  extendedFlags : ExtendedFlags
  /-- The ticket flags. -/
  ticketFlags : TicketFlags
deriving DecidableEq

namespace Builder

/-- The builder of which nothing is known: no values, no flags. -/
def empty : Builder where
  fixed := none
  uid := none
  key := none
  accessCode := none
  currentAccessCode := none
  configFlags := .empty
  extendedFlags := .empty
  ticketFlags := .empty

/-! ### Steps -/

/-- What of a value fits its field. A value that does not fit whole is worth an event. -/
def fit (field : Field) (bytes : Bytes) : Logged (Bytes.AtMost field.size) :=
  ⟨.cut field.size bytes,
    if field.size < bytes.length then [.valueCut field bytes.length] else []⟩

/-- Sets the public identifier. -/
def setFixed (builder : Builder) (bytes : Bytes) : Logged Builder := do
  let value ← fit .fixed bytes
  return { builder with fixed := some value }

/-- Sets the private identifier. -/
def setUid (builder : Builder) (bytes : Bytes) : Logged Builder := do
  let value ← fit .uid bytes
  return { builder with uid := some value }

/-- Sets the key field alone. -/
def setKeyField (builder : Builder) (bytes : Bytes) : Logged Builder := do
  let value ← fit .key bytes
  return { builder with key := some value }

/-- Sets the access code that protects the slot from now on. -/
def setAccessCode (builder : Builder) (bytes : Bytes) : Logged Builder := do
  let value ← fit .accessCode bytes
  return { builder with accessCode := some value }

/-- Sets the access code that protects the slot so far. -/
def setCurrentAccessCode (builder : Builder) (bytes : Bytes) : Logged Builder := do
  let value ← fit .currentAccessCode bytes
  return { builder with currentAccessCode := some value }

/-- Does a step with a value where there is one, and nothing where there is none. -/
def setIfAny (set : Builder → Bytes → Logged Builder) (value : Option Bytes) (builder : Builder) :
    Logged Builder :=
  match value with
  | some bytes => set builder bytes
  | none => pure builder

/-- Deals key material out over the fields of its kind. -/
def setKey (builder : Builder) (mode : KeyMode) (material : Bytes) : Logged Builder := do
  Logged.noteIf (mode.capacity < material.length) (.materialCut mode material.length)
  let parts := mode.split material
  let builder ← setIfAny setFixed parts.fixed builder
  let builder ← setIfAny setUid parts.uid builder
  setIfAny setKeyField parts.key builder

/-- One thing that can be done to a builder. -/
inductive Step where
  /-- Set the public identifier. -/
  | fixed (bytes : Bytes)
  /-- Set the private identifier. -/
  | uid (bytes : Bytes)
  /-- Deal out key material. -/
  | key (mode : KeyMode) (material : Bytes)
  /-- Set the access code that protects the slot from now on. -/
  | accessCode (bytes : Bytes)
  /-- Set the access code that protects the slot so far. -/
  | currentAccessCode (bytes : Bytes)
  /-- Set all configuration flags. -/
  | configFlags (flags : ConfigFlags)
  /-- Set all extended flags. -/
  | extendedFlags (flags : ExtendedFlags)
  /-- Set all ticket flags. -/
  | ticketFlags (flags : TicketFlags)
deriving DecidableEq

/-- Does one step. -/
def apply (builder : Builder) : Step → Logged Builder
  | .fixed bytes => builder.setFixed bytes
  | .uid bytes => builder.setUid bytes
  | .key mode material => builder.setKey mode material
  | .accessCode bytes => builder.setAccessCode bytes
  | .currentAccessCode bytes => builder.setCurrentAccessCode bytes
  | .configFlags flags => pure { builder with configFlags := flags }
  | .extendedFlags flags => pure { builder with extendedFlags := flags }
  | .ticketFlags flags => pure { builder with ticketFlags := flags }

/-- Does steps one after another. -/
def run (builder : Builder) : List Step → Logged Builder
  | [] => pure builder
  | step :: rest => do
    let builder ← builder.apply step
    builder.run rest

/-! ### The record -/

/-- The bytes of a value that may be absent. -/
def bytesOf {size : Nat} (value : Option (Bytes.AtMost size)) : Bytes :=
  match value with
  | some value => value.bytes
  | none => []

/-- The byte of eight flags. -/
def flagByte {vocabulary : Vocabulary 8} (flags : FlagWord vocabulary) : UInt8 :=
  UInt8.ofBitVec flags.bits

/-- What is put into a field. The reserved field stays empty, and so does the checksum field here,
whose value comes from the others. -/
def contents (builder : Builder) : Field → Bytes
  | .fixed => bytesOf builder.fixed
  | .uid => bytesOf builder.uid
  | .key => bytesOf builder.key
  | .accessCode => bytesOf builder.accessCode
  | .fixedLength => [(bytesOf builder.fixed).length.toUInt8]
  | .extendedFlags => [flagByte builder.extendedFlags]
  | .ticketFlags => [flagByte builder.ticketFlags]
  | .configFlags => [flagByte builder.configFlags]
  | .reserved => []
  | .checksum => []
  | .currentAccessCode => bytesOf builder.currentAccessCode

/-- The bytes of a field, padded to its size. -/
def fieldBytes (builder : Builder) (field : Field) : Bytes :=
  Bytes.zeroPadded field.size (builder.contents field)

/-- The part of the record that the checksum covers. -/
def body (builder : Builder) : Bytes :=
  Field.checksum.before.flatMap builder.fieldBytes

/-- The record. -/
def build (builder : Builder) : Bytes :=
  let body := builder.body
  body ++ Bytes.littleEndian (~~~Checksum.crc16 body) ++ builder.fieldBytes .currentAccessCode

@[simp] theorem length_fieldBytes (builder : Builder) (field : Field) :
    (builder.fieldBytes field).length = field.size :=
  Bytes.length_zeroPadded field.size (builder.contents field)

/-- The checksum covers everything before its field. -/
theorem length_body (builder : Builder) : builder.body.length = Field.checksum.offset := by
  have hbefore : Field.checksum.before = [.fixed, .uid, .key, .accessCode, .fixedLength,
      .extendedFlags, .ticketFlags, .configFlags, .reserved] := by decide
  simp only [body, hbefore, List.flatMap_cons, List.flatMap_nil, List.length_append,
    length_fieldBytes, List.length_nil]
  decide

/-- A record has the size of a record. -/
theorem length_build (builder : Builder) : builder.build.length = Field.recordSize := by
  simp only [build, List.length_append, length_body, Bytes.length_littleEndian, length_fieldBytes]
  decide

/-! ### Description -/

/-- The builder in one line, which shows lengths and flags, and of no value its contents. -/
def description (builder : Builder) : String :=
  let length {size : Nat} (value : Option (Bytes.AtMost size)) : String :=
    Braced.optional (value.map (·.bytes.length))
  Braced.full "ConfigurationBuilder" [
    Braced.part "fixed_len" (length builder.fixed),
    Braced.part "uid_len" (length builder.uid),
    Braced.part "key_len" (length builder.key),
    Braced.part "access_code_len" (length builder.accessCode),
    Braced.part "current_access_code_len" (length builder.currentAccessCode),
    Braced.part "cfg_flags" builder.configFlags.description,
    Braced.part "ext_flags" builder.extendedFlags.description,
    Braced.part "tkt_flags" builder.ticketFlags.description]

end Builder

end TokenConfig
