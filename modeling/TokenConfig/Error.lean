/-!
# Why an operation fails

Every refusal of this library is one of five causes, and each cause has one wording, which
`TokenConfig.Error.message` gives.
-/

namespace TokenConfig

/-- What is wrong with a response that cannot be decoded. -/
inductive Malformation where
  /-- There is not even a length byte. -/
  | emptyResponse
  /-- The length byte does not count the bytes after it. -/
  | wrongLength
  /-- The bytes are no sequence of tagged values. -/
  | notTagged
deriving DecidableEq

/-- The wording of a malformation. -/
def Malformation.message : Malformation → String
  | .emptyResponse => "empty response"
  | .wrongLength => "invalid length"
  | .notTagged => "invalid TLV encoding"

/-- The causes of failure. -/
inductive Error where
  /-- An argument has a value or a length that the operation does not take. -/
  | argument
  /-- A record does not carry its own checksum. -/
  | checksum
  /-- A response cannot be decoded. -/
  | malformed (fault : Malformation)
  /-- A text is not of the form asked for. -/
  | parse
  /-- Data is too long or too short for its format. -/
  | size
deriving DecidableEq

/-- The wording of a failure. -/
def Error.message : Error → String
  | .argument => "argument error"
  | .checksum => "checksum mismatch"
  | .malformed fault => "malformed response: " ++ fault.message
  | .parse => "parse error"
  | .size => "size error"

end TokenConfig
