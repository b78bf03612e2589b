import Sequencer.Json.Error

/-!
# Readers

A reader takes a value from the front of a text, in one pass from left to
right, and returns the value with the rest of the text.  The first problem it
meets ends the reading.  A reader also knows how many containers may still be
opened, so that nesting is bounded.

Loops are bounded by the text itself: each round takes at least one character
of it, so a loop that has made as many rounds as there were characters is at the
end of the text.

## Main Definitions

* `Reader` — the type of readers, a monad.
* `Reader.nested` — a reader inside one more container.
* `Reader.nextItem`, `Reader.nextKey` — whether a list or an object goes on.
* `Reader.closeList`, `Reader.closeObject` — the end of a list or an object.
* `Reader.items`, `Reader.entries` — all items of a list, all entries of an object.
* `Reader.readAll` — reads a whole text.
-/

namespace Sequencer.Json

/-- What a reader returns: a value and the rest of the text. -/
abbrev Outcome (α : Type) := Except ReadError (α × List Char)

/-- Takes a value from the front of a text; the first argument says how many
containers may still be opened. -/
def Reader (α : Type) := Nat → List Char → Outcome α

/-- How many containers may be open at a time. -/
def maxNesting : Nat := 127

/-- Whether a character is a blank between tokens. -/
def isBlank (c : Char) : Bool := c = ' ' || c = '\n' || c = '\t' || c = '\r'

/-- A text without the blanks at its front. -/
def skipBlanks (cs : List Char) : List Char := cs.dropWhile isBlank

namespace Reader

variable {α β κ : Type}

instance : Monad Reader where
  pure a := fun _ cs => .ok (a, cs)
  bind r f := fun depth cs =>
    match r depth cs with
    | .ok (a, rest) => f a depth rest
    | .error e => .error e

/-- Refuses the text. -/
def fail (e : ReadError) : Reader α := fun _ _ => .error e

/-- Refuses a value of the wrong shape. -/
def reject (cause : Mismatch) : Reader α := fail (.mismatch cause)

/-- Turns the result of a check into a reader that takes nothing. -/
def check : Except Mismatch α → Reader α
  | .ok a => pure a
  | .error cause => reject cause

/-- A reader inside one more container. -/
def nested (r : Reader α) : Reader α := fun depth cs =>
  match depth with
  | 0 => .error .malformed
  | depth + 1 => r depth cs

/-- A loop that makes at most as many rounds as there are characters. -/
def bounded (r : List Char → Reader α) : Reader α := fun depth cs => r cs depth cs

/-! ### Lists -/

/-- Whether the list goes on: it does not before the closing bracket, which is
left where it stands.  A comma stands before each item but the first. -/
def nextItem (first : Bool) : Reader Bool := fun _ cs =>
  match skipBlanks cs with
  | [] => .error .endOfText
  | ']' :: rest => .ok (false, ']' :: rest)
  | c :: rest =>
      if first then .ok (true, c :: rest)
      else if c = ',' then
        match skipBlanks rest with
        | [] => .error .endOfText
        | ']' :: _ => .error .malformed
        | rest => .ok (true, rest)
      else .error .malformed

/-- The end of a list. -/
def closeList : Reader Unit := fun _ cs =>
  match skipBlanks cs with
  | [] => .error .endOfText
  | ']' :: rest => .ok ((), rest)
  | _ => .error .malformed

/-- The items of a list after the opening bracket, up to the closing one. -/
def items (item : Reader α) : List Char → Bool → Reader (List α)
  | [], _ => fail .endOfText
  | _ :: bound, first => do
      if ← nextItem first then
        let x ← item
        let xs ← items item bound false
        return x :: xs
      else
        return []

/-! ### Objects -/

/-- Whether the object goes on: it does not before the closing brace, which is
left where it stands.  A comma stands before each key but the first, and a key
begins with a quote, which is taken. -/
def nextKey (first : Bool) : Reader Bool := fun _ cs =>
  match skipBlanks cs with
  | [] => .error .endOfText
  | '\x7d' :: rest => .ok (false, '\x7d' :: rest)
  | c :: rest =>
      if first then
        if c = '"' then .ok (true, rest) else .error .malformed
      else if c = ',' then
        match skipBlanks rest with
        | [] => .error .endOfText
        | '"' :: rest => .ok (true, rest)
        | _ => .error .malformed
      else .error .malformed

/-- The colon between a key and its value. -/
def colon : Reader Unit := fun _ cs =>
  match skipBlanks cs with
  | [] => .error .endOfText
  | ':' :: rest => .ok ((), rest)
  | _ => .error .malformed

/-- The end of an object. -/
def closeObject : Reader Unit := fun _ cs =>
  match skipBlanks cs with
  | [] => .error .endOfText
  | '\x7d' :: rest => .ok ((), rest)
  | _ => .error .malformed

/-- The entries of an object after the opening brace, up to the closing one; a
key is taken whole before its colon is looked for. -/
def entries (key : Reader κ) (value : Reader α) : List Char → Bool → Reader (List (κ × α))
  | [], _ => fail .endOfText
  | _ :: bound, first => do
      if ← nextKey first then
        let k ← key
        colon
        let v ← value
        let rest ← entries key value bound false
        return (k, v) :: rest
      else
        return []

/-! ### Whole texts -/

/-- Reads a whole text: after the value only blanks may follow. -/
def readAll (r : Reader α) (text : String) : Except ReadError α :=
  match r maxNesting text.toList with
  | .error e => .error e
  | .ok (a, rest) => if (skipBlanks rest).isEmpty then .ok a else .error .malformed

end Reader

end Sequencer.Json
