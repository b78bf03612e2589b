import Sequencer.Json.Value
import Sequencer.Text.Quoted

/-!
# Errors of reading JSON

A text is refused in one of three ways: it ends where more is needed, a
character stands where it cannot stand, or it is well formed so far but holds a
value of the wrong shape.

## Main Definitions

* `Json.Found` — what was found in place of the expected value.
* `Json.Mismatch` — the ways in which a value can have the wrong shape.
* `Json.ReadError` — why a text was refused.
-/

namespace Sequencer.Json

/-- What was found in place of the expected value. -/
inductive Found where
  | null
  | boolean (b : Bool)
  | number (n : Number)
  | string (s : String)
  | sequence
  | map
  deriving DecidableEq, Repr

/-- How messages describe what was found. -/
def Found.description : Found → String
  | .null => "null"
  | .boolean b => "boolean `" ++ (if b then "true" else "false") ++ "`"
  | .number (.float x) => "floating point `" ++ x.text ++ "`"
  | .number n => "integer `" ++ n.text ++ "`"
  | .string s => "string " ++ Text.quoted s
  | .sequence => "sequence"
  | .map => "map"

/-- A value of the wrong shape. -/
inductive Mismatch where
  | invalidType (found : Found) (expected : String)
  | invalidValue (found : Found) (expected : String)
  | invalidLength (length : Nat) (expected : String)
  | missingField (key : String)
  | duplicateField (key : String)
  /-- The value has the right type, but its content is refused for the given reason. -/
  | refused (reason : String)
  deriving DecidableEq, Repr

/-- The message for a value of the wrong shape. -/
def Mismatch.message : Mismatch → String
  | .invalidType found expected =>
      "invalid type: " ++ found.description ++ ", expected " ++ expected
  | .invalidValue found expected =>
      "invalid value: " ++ found.description ++ ", expected " ++ expected
  | .invalidLength length expected =>
      "invalid length " ++ length.repr ++ ", expected " ++ expected
  | .missingField key => "missing field `" ++ key ++ "`"
  | .duplicateField key => "duplicate field `" ++ key ++ "`"
  | .refused reason => reason

/-- Why a text was refused. -/
inductive ReadError where
  /-- The text ends where more is needed. -/
  | endOfText
  /-- A character stands where it cannot stand. -/
  | malformed
  /-- The text is well formed so far, but the value has the wrong shape. -/
  | mismatch (cause : Mismatch)
  deriving DecidableEq, Repr

end Sequencer.Json
