/-!
# Blanks and the pieces of a text

A blank is a character with the Unicode property `White_Space`. Texts are lists of characters here:
a reader takes characters off the front, so every recogniser is built from `takeWhile`, `dropWhile`,
`isPrefixOf?` and the few functions below.

* `trim` removes the blanks at both ends.
* `words` cuts a text at every character of a class and keeps the pieces that are not empty.
-/
namespace LineAsm.Text

/-- The ranges of the Unicode property `White_Space`. -/
def blankRanges : List (Nat × Nat) :=
  [(0x09, 0x0D), (0x20, 0x20), (0x85, 0x85), (0xA0, 0xA0), (0x1680, 0x1680), (0x2000, 0x200A),
   (0x2028, 0x2029), (0x202F, 0x202F), (0x205F, 0x205F), (0x3000, 0x3000)]

/-- A character of the property `White_Space`. -/
def isBlank (c : Char) : Bool :=
  blankRanges.any fun r => decide (r.1 ≤ c.toNat) && decide (c.toNat ≤ r.2)

/-- The text from its first character that is not blank. -/
def dropBlanks (cs : List Char) : List Char := cs.dropWhile isBlank

/-- The text without the blanks at its two ends. -/
def trim (cs : List Char) : List Char := (dropBlanks (dropBlanks cs).reverse).reverse

/-- The pieces between the characters of a class, without the empty ones. -/
def words (cut : Char → Bool) (cs : List Char) : List (List Char) :=
  (cs.splitOnP cut).filter (!·.isEmpty)

/-- A text of one line. -/
def isOneLine (cs : List Char) : Bool := !cs.contains '\n'

end LineAsm.Text
