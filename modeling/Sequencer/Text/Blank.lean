/-!
# Blank characters

The characters that count as white space in running text, wherever they stand
in the code space.

## Main Definitions

* `isBlank` — whether a character is white space.
* `dropBlanks` — a text without the blanks at its front.
-/

namespace Sequencer.Text

/-- The code points of white space: first and last of each range. -/
def blankRanges : List (Nat × Nat) :=
  [(0x9, 0xD), (0x20, 0x20), (0x85, 0x85), (0xA0, 0xA0), (0x1680, 0x1680), (0x2000, 0x200A),
    (0x2028, 0x2029), (0x202F, 0x202F), (0x205F, 0x205F), (0x3000, 0x3000)]

/-- Whether a character is white space. -/
def isBlank (c : Char) : Bool :=
  blankRanges.any fun r => r.1 ≤ c.toNat && c.toNat ≤ r.2

/-- A text without the blanks at its front. -/
def dropBlanks (cs : List Char) : List Char := cs.dropWhile isBlank

end Sequencer.Text
