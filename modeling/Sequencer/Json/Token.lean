import Sequencer.Json.Reader
import Sequencer.Text.Digits

/-!
# Reading tokens

Readers for the parts of JSON text that hold no other values: texts between
quotes, the words `null`, `true` and `false`, and numbers.

A text between quotes may hold any character but the quote, the backslash and
the control characters; a backslash starts an escape.  An escape by code unit
has four hexadecimal digits, and a leading surrogate must be followed by the
escape of a trailing one.

## Main Definitions

* `Reader.textBody` — a text after its opening quote.
* `Reader.word` — the rest of a word.
* `Reader.numberBody` — a number after its sign.
-/

namespace Sequencer.Json

open Sequencer.Number Sequencer.Text

/-! ### Texts between quotes -/

/-- The value of a hexadecimal digit. -/
def hexValue? (c : Char) : Option Nat :=
  if '0' ≤ c ∧ c ≤ '9' then some (c.toNat - '0'.toNat)
  else if 'a' ≤ c ∧ c ≤ 'f' then some (c.toNat - 'a'.toNat + 10)
  else if 'A' ≤ c ∧ c ≤ 'F' then some (c.toNat - 'A'.toNat + 10)
  else none

/-- A code unit of four hexadecimal digits.  The text ends too soon if fewer than
four bytes are left of it. -/
def codeUnit (cs : List Char) : Outcome Nat :=
  if byteLength (cs.take 4) < 4 then .error .endOfText
  else
    match cs with
    | a :: b :: c :: d :: rest =>
        match hexValue? a, hexValue? b, hexValue? c, hexValue? d with
        | some a, some b, some c, some d => .ok (a * 4096 + b * 256 + c * 16 + d, rest)
        | _, _, _, _ => .error .malformed
    | _ => .error .malformed

/-- The character that a leading surrogate makes with the escape after it. -/
def surrogatePair (lead : Nat) : List Char → Outcome Char
  | '\\' :: 'u' :: rest =>
      match codeUnit rest with
      | .error e => .error e
      | .ok (trail, rest) =>
          if 0xDC00 ≤ trail ∧ trail ≤ 0xDFFF then
            .ok (Char.ofNat ((lead - 0xD800) * 1024 + (trail - 0xDC00) + 0x10000), rest)
          else .error .malformed
  | [] | ['\\'] => .error .endOfText
  | _ => .error .malformed

/-- The character of an escape by code unit. -/
def unicodeEscape (cs : List Char) : Outcome Char :=
  match codeUnit cs with
  | .error e => .error e
  | .ok (unit, rest) =>
      if 0xDC00 ≤ unit ∧ unit ≤ 0xDFFF then .error .malformed
      else if 0xD800 ≤ unit ∧ unit ≤ 0xDBFF then surrogatePair unit rest
      else .ok (Char.ofNat unit, rest)

/-- The character that a letter after a backslash stands for. -/
def simpleEscape? : Char → Option Char
  | '"' => some '"'
  | '\\' => some '\\'
  | '/' => some '/'
  | 'b' => some '\x08'
  | 'f' => some '\x0c'
  | 'n' => some '\n'
  | 'r' => some '\r'
  | 't' => some '\t'
  | _ => none

/-- The character of an escape, after its backslash. -/
def escaped : List Char → Outcome Char
  | [] => .error .endOfText
  | c :: rest =>
      match simpleEscape? c with
      | some c => .ok (c, rest)
      | none => if c = 'u' then unicodeEscape rest else .error .malformed

/-- The characters of a text after its opening quote, at most as many as the bound has. -/
def unquote : List Char → List Char → Outcome (List Char)
  | [], _ => .error .endOfText
  | _ :: _, [] => .error .endOfText
  | _ :: bound, c :: rest =>
      if c = '"' then .ok ([], rest)
      else if c = '\\' then
        match escaped rest with
        | .error e => .error e
        | .ok (c, rest) =>
            match unquote bound rest with
            | .error e => .error e
            | .ok (cs, rest) => .ok (c :: cs, rest)
      else if c.toNat < 0x20 then .error .malformed
      else
        match unquote bound rest with
        | .error e => .error e
        | .ok (cs, rest) => .ok (c :: cs, rest)

/-- A text after its opening quote. -/
def Reader.textBody : Reader String := fun _ cs =>
  match unquote cs cs with
  | .error e => .error e
  | .ok (s, rest) => .ok (String.ofList s, rest)

/-! ### Words -/

/-- The given characters, one after another. -/
def spell : List Char → List Char → Outcome Unit
  | [], cs => .ok ((), cs)
  | _ :: _, [] => .error .endOfText
  | w :: ws, c :: cs => if w = c then spell ws cs else .error .malformed

/-- The given characters, one after another. -/
def Reader.word (w : String) : Reader Unit := fun _ cs => spell w.toList cs

/-! ### Numbers -/

/-- The greatest integer that is kept exactly, and the greatest significand. -/
def maxNatural : Nat := 0xFFFFFFFFFFFFFFFF

/-- The greatest negated integer that is kept exactly. -/
def maxNegative : Nat := 0x8000000000000000

/-- The greatest exponent that is looked at. -/
def maxExponentDigits : Nat := 0x7FFFFFFF

/-- Takes digits into a significand while it stays within range, and returns the
digits that were not taken. -/
def absorb (significand : Nat) : List Char → Nat × List Char
  | [] => (significand, [])
  | c :: cs =>
      let n := 10 * significand + digitValue c
      if n ≤ maxNatural then absorb n cs else (significand, c :: cs)

/-- The whole digits of a number: a zero stands alone. -/
def wholeDigits : List Char → Outcome (List Char)
  | [] => .error .endOfText
  | c :: rest =>
      if c = '0' then
        match rest with
        | d :: _ => if d.isDigit then .error .malformed else .ok ([c], rest)
        | [] => .ok ([c], rest)
      else if c.isDigit then .ok (c :: rest.takeWhile Char.isDigit, rest.dropWhile Char.isDigit)
      else .error .malformed

/-- At least one digit. -/
def someDigits : List Char → Outcome (List Char)
  | [] => .error .endOfText
  | c :: rest =>
      if c.isDigit then .ok (c :: rest.takeWhile Char.isDigit, rest.dropWhile Char.isDigit)
      else .error .malformed

/-- The sign of an exponent, which is negative after a minus. -/
def exponentSign : List Char → Bool × List Char
  | '+' :: rest => (false, rest)
  | '-' :: rest => (true, rest)
  | cs => (false, cs)

/-- The number of a significand, a power of ten and the exponent after them, if
it is within range. -/
def scaled? (negative : Bool) (significand : Nat) (power : Int) (small : Bool)
    (exponent : Nat) : Option Number :=
  if maxExponentDigits < exponent ∧ significand ≠ 0 ∧ !small then none
  else
    -- An exponent beyond all bounds leaves nothing of the significand.
    let exponent := min exponent maxExponentDigits
    let power := if small then power - exponent else power + exponent
    (Binary64.ofDecimal? negative significand power).map .float

/-- The exponent of a number, if it has one, and with it the whole number. -/
def withExponent (negative : Bool) (significand : Nat) (power : Int) :
    List Char → Outcome Number
  | [] => finish false 0 []
  | c :: rest =>
      if c = 'e' ∨ c = 'E' then
        let (small, rest) := exponentSign rest
        match someDigits rest with
        | .error e => .error e
        | .ok (digits, rest) => finish small (digitsValue digits) rest
      else finish false 0 (c :: rest)
where
  /-- Refuses a number that is out of range. -/
  finish (small : Bool) (exponent : Nat) (rest : List Char) : Outcome Number :=
    match scaled? negative significand power small exponent with
    | some n => .ok (n, rest)
    | none => .error .malformed

/-- An integer without point and exponent: a floating point number if it is
out of range, and so is a negated zero. -/
def integer? (negative : Bool) (n : Nat) (significand : Nat) (power : Nat) : Option Number :=
  if !negative ∧ n ≤ maxNatural then some (.natural n)
  else if negative ∧ n ≠ 0 ∧ n ≤ maxNegative then some (.negative n)
  else (Binary64.ofDecimal? negative significand power).map .float

/-- A number after its sign.  Digits beyond the greatest significand count only
for the power of ten. -/
def number (negative : Bool) (cs : List Char) : Outcome Number :=
  match wholeDigits cs with
  | .error e => .error e
  | .ok (whole, rest) =>
      let (significand, beyond) := absorb 0 whole
      match rest with
      | '.' :: rest =>
          match someDigits rest with
          | .error e => .error e
          | .ok (fraction, rest) =>
              let (significand', left) := absorb significand fraction
              let power : Int := beyond.length - (fraction.length - left.length : Nat)
              withExponent negative significand' power rest
      | 'e' :: _ | 'E' :: _ => withExponent negative significand beyond.length rest
      | rest =>
          match integer? negative (digitsValue whole) significand beyond.length with
          | some n => .ok (n, rest)
          | none => .error .malformed

/-- A number after its sign. -/
def Reader.numberBody (negative : Bool) : Reader Number := fun _ cs => number negative cs

end Sequencer.Json
