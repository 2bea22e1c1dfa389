import TokenConfig.Bytes

/-!
# Text as bytes

`TokenConfig.Utf8.decode?` is the text that a byte string encodes in UTF-8, if it encodes one: a
sequence that is cut off, longer than need be, a surrogate or beyond the last code point encodes
none. `TokenConfig.Utf8.encode` is the byte string of a text, and `TokenConfig.Utf8.decode?_encode`
says that it reads back.
-/

namespace TokenConfig

namespace Utf8

/-- The bytes of a text. -/
def encode (text : String) : Bytes :=
  text.toUTF8.data.toList

/-- The text that `bytes` encode. -/
def decode? (bytes : Bytes) : Option String :=
  String.fromUTF8? ⟨bytes.toArray⟩

/-- The bytes of a text read back as that text. -/
@[simp] theorem decode?_encode (text : String) : decode? (encode text) = some text := by
  simp [decode?, encode, String.fromUTF8?, String.toUTF8, text.isValidUTF8, String.fromUTF8]

/-- No other bytes read back as a text. -/
theorem decode?_eq_some_iff {bytes : Bytes} {text : String} :
    decode? bytes = some text ↔ bytes = encode text := by
  constructor
  · intro h
    rw [decode?, String.fromUTF8?] at h
    split at h
    · obtain rfl := Option.some.inj h
      rfl
    · cases h
  · rintro rfl
    exact decode?_encode text

end Utf8

end TokenConfig
