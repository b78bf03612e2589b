/-!
# Digits

Decimal digits and their values, and the size of a text in bytes.

## Main Definitions

* `digitValue`, `digitsValue` — the value of a digit and of a run of digits.
* `padded` — the digits of a number, filled up with zeros to a width.
* `byteLength` — the number of bytes of a text.
-/

namespace Sequencer.Text

/-- The value of a decimal digit. -/
def digitValue (c : Char) : Nat := c.toNat - '0'.toNat

/-- The value of a run of decimal digits. -/
def digitsValue (digits : List Char) : Nat :=
  digits.foldl (fun n c => 10 * n + digitValue c) 0

/-- The digits of a number, filled up with zeros to a width. -/
def padded (width n : Nat) : List Char :=
  let digits := Nat.toDigits 10 n
  List.replicate (width - digits.length) '0' ++ digits

/-- The number of bytes of a text. -/
def byteLength (cs : List Char) : Nat := cs.foldr (fun c n => c.utf8Size + n) 0

end Sequencer.Text
