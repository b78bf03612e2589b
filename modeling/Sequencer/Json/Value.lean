import Sequencer.Number.Shortest

/-!
# JSON values and their texts

A JSON value is a tree.  It is written either compactly, without any blank, or
over several lines with one item on each line and two spaces for each level.

## Main Definitions

* `Json.Number`, `Json.Value` — numbers and trees.
* `Json.quote` — a text between quotes; only what must be escaped is escaped.
* `Json.Layout` — compact, or indented over several lines.
* `Json.Value.write` — the text of a value.
-/

namespace Sequencer.Json

open Sequencer.Number

/-- A number: an integer of limited size, or a floating point number. -/
inductive Number where
  | natural (n : Nat)
  | negative (n : Nat)
  | float (x : Binary64)
  deriving DecidableEq, Repr

/-- The text of a number. -/
def Number.text : Number → String
  | .natural n => n.repr
  | .negative n => "-" ++ n.repr
  | .float x => x.text

/-- A JSON value; the fields of an object keep their order. -/
inductive Value where
  | null
  | boolean (b : Bool)
  | number (n : Number)
  | string (s : String)
  | array (items : List Value)
  | object (fields : List (String × Value))
  deriving Repr

/-! ### Texts between quotes -/

/-- The hexadecimal digit of a number below sixteen. -/
def hexDigit (n : Nat) : Char := Nat.digitChar n

/-- Escapes one character: the quote, the backslash and the control characters. -/
def escape (c : Char) : List Char :=
  match c with
  | '"' => ['\\', '"']
  | '\\' => ['\\', '\\']
  | '\x08' => ['\\', 'b']
  | '\x0c' => ['\\', 'f']
  | '\n' => ['\\', 'n']
  | '\r' => ['\\', 'r']
  | '\t' => ['\\', 't']
  | _ =>
      if c.toNat < 0x20 then
        ['\\', 'u', '0', '0', hexDigit (c.toNat / 16), hexDigit (c.toNat % 16)]
      else [c]

/-- A text between quotes. -/
def quote (text : String) : List Char :=
  '"' :: text.toList.flatMap escape ++ ['"']

/-! ### Layout -/

/-- How the parts of a value are set apart. -/
inductive Layout where
  | compact
  | indented
  deriving DecidableEq, Repr

namespace Layout

/-- What stands before an item or a closing bracket at the given level. -/
def lineBreak : Layout → Nat → List Char
  | .compact, _ => []
  | .indented, level => '\n' :: List.replicate (2 * level) ' '

/-- What stands between a key and its value. -/
def colon : Layout → List Char
  | .compact => [':']
  | .indented => [':', ' ']

end Layout

/-! ### Writing -/

mutual

/-- The text of a value at the given level. -/
def Value.write (layout : Layout) (level : Nat) : Value → List Char
  | .null => "null".toList
  | .boolean b => (if b then "true" else "false").toList
  | .number n => n.text.toList
  | .string s => quote s
  | .array [] => ['[', ']']
  | .array (v :: vs) =>
      '[' :: layout.lineBreak (level + 1) ++ v.write layout (level + 1) ++
        writeItems layout (level + 1) vs ++ layout.lineBreak level ++ [']']
  | .object [] => ['\x7b', '\x7d']
  | .object ((k, v) :: fs) =>
      '\x7b' :: layout.lineBreak (level + 1) ++ quote k ++ layout.colon ++
        v.write layout (level + 1) ++
        writeFields layout (level + 1) fs ++ layout.lineBreak level ++ ['\x7d']

/-- The items of an array after the first one. -/
def writeItems (layout : Layout) (level : Nat) : List Value → List Char
  | [] => []
  | v :: vs =>
      ',' :: layout.lineBreak level ++ v.write layout level ++ writeItems layout level vs

/-- The fields of an object after the first one. -/
def writeFields (layout : Layout) (level : Nat) : List (String × Value) → List Char
  | [] => []
  | (k, v) :: fs =>
      ',' :: layout.lineBreak level ++ quote k ++ layout.colon ++ v.write layout level ++
        writeFields layout level fs

end

namespace Value

/-- The text of a value without any blank. -/
def compact (v : Value) : String := String.ofList (v.write .compact 0)

/-- The text of a value over several lines. -/
def pretty (v : Value) : String := String.ofList (v.write .indented 0)

/-- A list of texts. -/
def ofTexts (texts : List String) : Value := .array (texts.map .string)

end Value

end Sequencer.Json
