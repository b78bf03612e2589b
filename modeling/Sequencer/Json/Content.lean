import Sequencer.Json.Token

/-!
# Reading any value

Reads a value of any shape as a tree.  Numbers must be within range, escapes
must make characters, and the nesting is bounded.

## Main Definitions

* `valueAt` — a value with at most the given number of containers inside each other.
* `Reader.value` — reads a value of any shape.
-/

namespace Sequencer.Json

open Reader

/-- The value that starts with the given character, where `inner` reads a value
inside a container; there is none where no container may be opened. -/
def valueFrom (inner : Option (Reader Value)) (c : Char) : Reader Value :=
  match c with
  | 'n' => do word "ull"; return .null
  | 't' => do word "rue"; return .boolean true
  | 'f' => do word "alse"; return .boolean false
  | '-' => do return .number (← numberBody true)
  | '"' => do return .string (← textBody)
  | '[' =>
      match inner with
      | none => fail .malformed
      | some inner => do
          let vs ← bounded fun bound => items inner bound true
          closeList
          return .array vs
  | '\x7b' =>
      match inner with
      | none => fail .malformed
      | some inner => do
          let fs ← bounded fun bound => entries textBody inner bound true
          closeObject
          return .object fs
  | c => fun depth cs =>
      if c.isDigit then (do return .number (← numberBody false) : Reader Value) depth (c :: cs)
      else .error .malformed

/-- A value with at most the given number of containers inside each other. -/
def valueAt : Nat → Reader Value
  | 0 => fun depth cs =>
      match skipBlanks cs with
      | [] => .error .endOfText
      | c :: rest => valueFrom none c depth rest
  | depth + 1 => fun outer cs =>
      match skipBlanks cs with
      | [] => .error .endOfText
      | c :: rest => valueFrom (some (valueAt depth)) c outer rest

/-- Reads a value of any shape. -/
def Reader.value : Reader Value := fun depth cs => valueAt depth depth cs

end Sequencer.Json
