import Sequencer.Json.Content
import Sequencer.Json.Skip

/-!
# Reading values of a known shape

Each reader expects a value of one shape.  Where another value stands, the
value is taken if it has no parts, and refused with a description of what was
found; of a list or an object only the opening bracket is looked at.

## Main Definitions

* `Reader.unexpected` — refuses the value that stands here.
* `Reader.text`, `Reader.natural`, `Reader.orNull` — simple values.
* `Reader.list`, `Reader.map` — lists, and objects with keys of one kind.
* `Field`, `Shape`, `Reader.record` — records, given as an object or as a list.
-/

namespace Sequencer.Json

namespace Reader

variable {α κ σ : Type}

/-- What stands here, if the value starts with the given character. -/
def foundFrom (c : Char) : Reader Found :=
  match c with
  | 'n' => do word "ull"; return .null
  | 't' => do word "rue"; return .boolean true
  | 'f' => do word "alse"; return .boolean false
  | '-' => do return .number (← numberBody true)
  | '"' => do return .string (← textBody)
  | '[' => return .sequence
  | '\x7b' => return .map
  | c => fun depth cs =>
      if c.isDigit then (do return .number (← numberBody false) : Reader Found) depth (c :: cs)
      else .error .malformed

/-- Refuses the value that starts with the given character. -/
def unexpected (expected : String) (c : Char) : Reader α := do
  reject (.invalidType (← foundFrom c) expected)

/-- Looks at the first character of the value that stands here. -/
def startingWith (r : Char → Reader α) : Reader α := fun depth cs =>
  match skipBlanks cs with
  | [] => .error .endOfText
  | c :: rest => r c depth rest

/-! ### Simple values -/

/-- A text; `expected` says what the text is for. -/
def textFor (expected : String) : Reader String :=
  startingWith fun c => if c = '"' then textBody else unexpected expected c

/-- A text. -/
def text : Reader String := textFor "a string"

/-- A text that stands for a value. -/
def textOf (expected : String) (parse : String → Except String α) : Reader α := do
  match parse (← textFor expected) with
  | .ok a => return a
  | .error reason => reject (.refused reason)

/-- A value, or nothing where `null` stands. -/
def orNull (r : Reader α) : Reader (Option α) := fun depth cs =>
  match skipBlanks cs with
  | 'n' :: rest => (do word "ull"; return none : Reader (Option α)) depth rest
  | cs => (do return some (← r) : Reader (Option α)) depth cs

/-- A number that must be a natural number below `bound`. -/
def checkNatural (bound : Nat) (expected : String) : Json.Number → Except Mismatch Nat
  | .natural n =>
      if n < bound then .ok n else .error (.invalidValue (.number (.natural n)) expected)
  | .negative n => .error (.invalidValue (.number (.negative n)) expected)
  | .float x => .error (.invalidType (.number (.float x)) expected)

/-- A natural number below `bound`. -/
def natural (bound : Nat) (expected : String) : Reader Nat :=
  startingWith fun c =>
    if c = '-' then do check (checkNatural bound expected (← numberBody true))
    else if c.isDigit then fun depth cs =>
      (do check (checkNatural bound expected (← numberBody false)) : Reader Nat) depth (c :: cs)
    else unexpected expected c

/-! ### Lists and maps -/

/-- A list of items of one shape. -/
def list (item : Reader α) : Reader (List α) :=
  startingWith fun c =>
    if c = '[' then nested do
      let xs ← bounded fun bound => items item bound true
      closeList
      return xs
    else unexpected "a sequence" c

/-- An object whose keys stand for values of one kind; the entries keep their order. -/
def map (parseKey : String → Except String κ) (value : Reader α) : Reader (List (κ × α)) :=
  let key : Reader κ := do
    match parseKey (← textBody) with
    | .ok k => return k
    | .error reason => reject (.refused reason)
  startingWith fun c =>
    if c = '\x7b' then nested do
      let es ← bounded fun bound => entries key value bound true
      closeObject
      return es
    else unexpected "a map" c

end Reader

/-! ### Records -/

/-- One field of a record that is being read into a draft of type `σ`. -/
structure Field (σ : Type) where
  /-- The key of the field in an object. -/
  key : String
  /-- Whether the draft has a value for the field. -/
  isSet : σ → Bool
  /-- Reads a value for the field into the draft. -/
  read : σ → Reader σ

/-- How a record is read. -/
structure Shape (σ α : Type) where
  /-- The name of the record in messages. -/
  name : String
  /-- The fields, in the order in which a list gives them. -/
  fields : List (Field σ)
  /-- The draft before anything is read. -/
  start : σ
  /-- The record of a draft, or the key of the first field that must have a
  value and has none. -/
  finish : σ → Except String α

namespace Shape

variable {σ α : Type}

open Reader

/-- The fields of an object, in any order; a key that names no field is skipped
with its value. -/
def object (shape : Shape σ α) : List Char → Bool → σ → Reader σ
  | [], _, _ => fail .endOfText
  | _ :: bound, first, draft => do
      if ← nextKey first then
        let key ← textBody
        match shape.fields.find? fun f => f.key = key with
        | none =>
            colon
            skipValue
            shape.object bound false draft
        | some f =>
            if f.isSet draft then reject (.duplicateField key)
            else
              colon
              let draft ← f.read draft
              shape.object bound false draft
      else
        return draft

/-- The fields of a list, in order; fields at the end may be left out. -/
def tuple : List (Field σ) → Bool → σ → Reader σ
  | [], _, draft => return draft
  | f :: fs, first, draft => do
      if ← nextItem first then
        let draft ← f.read draft
        tuple fs false draft
      else
        return draft

/-- The record of an object's draft. -/
def finishObject (shape : Shape σ α) (draft : σ) : Except Mismatch α :=
  match shape.finish draft with
  | .ok a => .ok a
  | .error key => .error (.missingField key)

/-- The record of a list's draft. -/
def finishTuple (shape : Shape σ α) (draft : σ) : Except Mismatch α :=
  match shape.finish draft with
  | .ok a => .ok a
  | .error key =>
      .error (.invalidLength (shape.fields.findIdx fun f => f.key = key)
        ("struct " ++ shape.name ++ " with " ++ shape.fields.length.repr ++ " elements"))

end Shape

namespace Reader

variable {σ α : Type}

/-- A record, given as an object or as the list of its fields. -/
def record (shape : Shape σ α) : Reader α :=
  startingWith fun c =>
    if c = '\x7b' then nested do
      let draft ← bounded fun bound => shape.object bound true shape.start
      let a ← check (shape.finishObject draft)
      closeObject
      return a
    else if c = '[' then nested do
      let draft ← Shape.tuple shape.fields true shape.start
      let a ← check (shape.finishTuple draft)
      closeList
      return a
    else unexpected ("struct " ++ shape.name) c

end Reader

end Sequencer.Json
