/-!
# Texts for a terminal

A text that is shown on a terminal must not steer it.  The characters that open
or make up control sequences are therefore written as escapes; line breaks, tabs
and all other characters stay as they are.

## Main Definitions

* `inert` — a text that only shows.
-/

namespace Sequencer.Text

/-- Whether a character of one byte can steer a terminal: bell, backspace, form
feed, escape and delete. -/
def steersShort (c : Char) : Bool :=
  c = '\x07' || c = '\x08' || c = '\x0c' || c = '\x1b' || c = '\x7f'

/-- Whether a character is a control character of the second set, which does in
one character what escape does in two. -/
def steersLong (c : Char) : Bool := 0x80 ≤ c.toNat && c.toNat ≤ 0x9F

/-- One character that only shows. -/
def inertChar (c : Char) : List Char :=
  if steersShort c then
    "\\x".toList ++ [Nat.digitChar (c.toNat / 16), Nat.digitChar (c.toNat % 16)]
  else if steersLong c then "\\u\x7b".toList ++ Nat.toDigits 16 c.toNat ++ ['\x7d']
  else [c]

/-- A text that only shows. -/
def inert (text : String) : String := String.ofList (text.toList.flatMap inertChar)

end Sequencer.Text
