import Sequencer.Json.Token

/-!
# Skipping values

A value that nobody asked for is skipped: its text is checked for form only.
Numbers may be of any size, escapes need not make characters, and containers
may be nested to any depth.

## Main Definitions

* `skipText`, `skipNumber` — a text and a number without their values.
* `skip` — a value, or the rest of a list or an object.
* `Reader.skipValue` — skips one value.
-/

namespace Sequencer.Json

/-- Passes over the escape after a backslash. -/
def skipEscape : List Char → Outcome Unit
  | [] => .error .endOfText
  | c :: rest =>
      if c = 'u' then (codeUnit rest).map fun r => ((), r.2)
      else if (simpleEscape? c).isSome then .ok ((), rest)
      else .error .malformed

/-- Passes over a text after its opening quote, at most as many characters as the bound has. -/
def skipText : List Char → List Char → Outcome Unit
  | [], _ => .error .endOfText
  | _ :: _, [] => .error .endOfText
  | _ :: bound, c :: rest =>
      if c = '"' then .ok ((), rest)
      else if c = '\\' then
        match skipEscape rest with
        | .error e => .error e
        | .ok (_, rest) => skipText bound rest
      else if c.toNat < 0x20 then .error .malformed
      else skipText bound rest

/-- Passes over at least one digit; anything else, the end included, is no digit. -/
def skipDigits : List Char → Outcome Unit
  | [] => .error .malformed
  | c :: rest =>
      if c.isDigit then .ok ((), rest.dropWhile Char.isDigit) else .error .malformed

/-- Passes over an exponent, if there is one. -/
def skipExponent : List Char → Outcome Unit
  | [] => .ok ((), [])
  | c :: rest =>
      if c = 'e' ∨ c = 'E' then skipDigits (exponentSign rest).2 else .ok ((), c :: rest)

/-- Passes over a number after its sign. -/
def skipNumber (cs : List Char) : Outcome Unit :=
  match wholeDigits cs with
  | .error _ => .error .malformed
  | .ok (_, '.' :: rest) =>
      match skipDigits rest with
      | .error e => .error e
      | .ok (_, rest) => skipExponent rest
  | .ok (_, rest) => skipExponent rest

/-- What is to be passed over: a value, or the rest of a list or of an object
after one of its parts. -/
inductive Pending where
  | value
  | items
  | fields
  deriving DecidableEq, Repr

/-- Passes over an item and the rest of its list, where `pass` passes over what is pending. -/
def skipItem (pass : Pending → List Char → Outcome Unit) (cs : List Char) : Outcome Unit :=
  match pass .value cs with
  | .error e => .error e
  | .ok (_, rest) => pass .items rest

/-- Passes over a field and the rest of its object, where `pass` passes over what is pending. -/
def skipField (pass : Pending → List Char → Outcome Unit) (cs : List Char) : Outcome Unit :=
  match skipBlanks cs with
  | [] => .error .endOfText
  | '"' :: rest =>
      match skipText rest rest with
      | .error e => .error e
      | .ok (_, rest) =>
          match skipBlanks rest with
          | [] => .error .endOfText
          | ':' :: rest =>
              match pass .value rest with
              | .error e => .error e
              | .ok (_, rest) => pass .fields rest
          | _ => .error .malformed
  | _ => .error .malformed

/-- Passes over a list after its opening bracket. -/
def skipList (pass : Pending → List Char → Outcome Unit) (cs : List Char) : Outcome Unit :=
  match skipBlanks cs with
  | [] => .error .endOfText
  | ']' :: rest => .ok ((), rest)
  | cs => skipItem pass cs

/-- Passes over an object after its opening brace. -/
def skipObject (pass : Pending → List Char → Outcome Unit) (cs : List Char) : Outcome Unit :=
  match skipBlanks cs with
  | [] => .error .endOfText
  | '\x7d' :: rest => .ok ((), rest)
  | cs => skipField pass cs

/-- Passes over what is pending, in at most as many steps as the bound has characters. -/
def skip : List Char → Pending → List Char → Outcome Unit
  | [], _, _ => .error .endOfText
  | _ :: bound, .value, cs =>
      match skipBlanks cs with
      | [] => .error .endOfText
      | 'n' :: rest => spell "ull".toList rest
      | 't' :: rest => spell "rue".toList rest
      | 'f' :: rest => spell "alse".toList rest
      | '-' :: rest => skipNumber rest
      | '"' :: rest => skipText rest rest
      | '[' :: rest => skipList (skip bound) rest
      | '\x7b' :: rest => skipObject (skip bound) rest
      | c :: rest => if c.isDigit then skipNumber (c :: rest) else .error .malformed
  | _ :: bound, .items, cs =>
      match skipBlanks cs with
      | [] => .error .endOfText
      | ']' :: rest => .ok ((), rest)
      | ',' :: rest => skipItem (skip bound) rest
      | _ => .error .malformed
  | _ :: bound, .fields, cs =>
      match skipBlanks cs with
      | [] => .error .endOfText
      | '\x7d' :: rest => .ok ((), rest)
      | ',' :: rest => skipField (skip bound) rest
      | _ => .error .malformed

/-- Skips one value. -/
def Reader.skipValue : Reader Unit := fun _ cs => skip cs .value cs

end Sequencer.Json
