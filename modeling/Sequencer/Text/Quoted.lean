import Sequencer.Text.Hidden

/-!
# Quoted texts

A text as messages quote it: between double quotes, with the quote, the
backslash and the usual control characters escaped by a backslash, and every
other hidden character by its code point.

## Main Definitions

* `quoteChar` — one character between quotes.
* `quoted` — a text between quotes.
-/

namespace Sequencer.Text

/-- One character between quotes. -/
def quoteChar (c : Char) : List Char :=
  match c with
  | '"' => ['\\', '"']
  | '\\' => ['\\', '\\']
  | '\n' => ['\\', 'n']
  | '\r' => ['\\', 'r']
  | '\t' => ['\\', 't']
  | '\x00' => ['\\', '0']
  | _ =>
      if isHidden c then "\\u\x7b".toList ++ Nat.toDigits 16 c.toNat ++ ['\x7d']
      else [c]

/-- A text between double quotes. -/
def quoted (text : String) : String :=
  String.ofList ('"' :: text.toList.flatMap quoteChar ++ ['"'])

end Sequencer.Text
