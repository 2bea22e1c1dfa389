/-!
# Blank characters

The characters with the `White_Space` property of Unicode, and the text that is left when those at
both ends are taken away.

* `TokenConfig.Blank.ranges` is the table of the property: 25 characters in ten runs;
* `TokenConfig.Blank.trim` drops blanks at both ends, and only there.

The zero-width space, the byte order mark and the separators below the space are not blank.
-/

namespace TokenConfig

namespace Blank

/-- The runs of blank characters, each from its first to its last code point. -/
def ranges : List (Nat × Nat) :=
  [(0x09, 0x0d), (0x20, 0x20), (0x85, 0x85), (0xa0, 0xa0), (0x1680, 0x1680), (0x2000, 0x200a),
    (0x2028, 0x2029), (0x202f, 0x202f), (0x205f, 0x205f), (0x3000, 0x3000)]

/-- Whether a character is blank. -/
def isBlank (c : Char) : Bool :=
  ranges.any fun range => range.1 ≤ c.toNat && c.toNat ≤ range.2

/-- The characters from the first that is not blank to the last. -/
def trimChars (chars : List Char) : List Char :=
  ((chars.dropWhile isBlank).reverse.dropWhile isBlank).reverse

/-- The text without the blanks at its ends. -/
def trim (text : String) : String :=
  String.ofList (trimChars text.toList)

/-- What is left when blanks are dropped from the front does not begin with one. -/
theorem head?_dropWhile_isBlank (chars : List Char) :
    ∀ c ∈ (chars.dropWhile isBlank).head?, isBlank c = false := by
  induction chars with
  | nil => simp
  | cons c rest ih =>
    rw [List.dropWhile_cons]
    split
    · exact ih
    · next h => simpa using h

end Blank

end TokenConfig
