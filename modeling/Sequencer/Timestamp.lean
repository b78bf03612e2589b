import Sequencer.Calendar
import Sequencer.Text.Blank
import Sequencer.Text.Digits

/-!
# Timestamps

A point in universal time, to the nanosecond.  A second may have the number 60
in any minute, as leap seconds do, and keeps it.

A timestamp is written in one form.  It is read in many: with any offset from
universal time, with blanks around its parts, and with any number of digits
after the point, of which nine count.

## Main Definitions

* `Timestamp` — whole minutes, a second and nanoseconds.
* `Timestamp.text` — the written form.
* `Timestamp.ParseError` — why a text is no timestamp.
* `Timestamp.parse` — the timestamp of a text.
-/

namespace Sequencer

open Calendar Text

/-- A point in universal time: minutes since the first of January of the year
zero, the second in the minute, and the nanosecond in the second. -/
structure Timestamp where
  minutes : Int
  second : Fin 61
  nano : Fin 1000000000
  deriving DecidableEq, Repr

namespace Timestamp

/-- The number of minutes of a day. -/
def minutesPerDay : Int := 1440

/-! ### Writing -/

/-- A year: four digits, and a sign where four digits do not hold it. -/
def yearText (year : Int) : List Char :=
  if 0 ≤ year ∧ year ≤ 9999 then padded 4 year.toNat
  else (if year < 0 then '-' else '+') :: padded 4 year.natAbs

/-- The fraction of a second: the fewest of no, three, six and nine digits that are exact. -/
def fractionText (nano : Nat) : List Char :=
  if nano = 0 then []
  else if nano % 1000000 = 0 then '.' :: padded 3 (nano / 1000000)
  else if nano % 1000 = 0 then '.' :: padded 6 (nano / 1000)
  else '.' :: padded 9 nano

/-- The date of a timestamp. -/
def date (t : Timestamp) : Date := Date.ofDayNumber (t.minutes / minutesPerDay)

/-- The minute in the day. -/
def minuteOfDay (t : Timestamp) : Nat := (t.minutes % minutesPerDay).toNat

/-- The written form of a timestamp. -/
def text (t : Timestamp) : String :=
  String.ofList (
    yearText t.date.year ++ '-' :: padded 2 t.date.month ++ '-' :: padded 2 t.date.day ++
    'T' :: padded 2 (t.minuteOfDay / 60) ++ ':' :: padded 2 (t.minuteOfDay % 60) ++
    ':' :: padded 2 t.second ++ fractionText t.nano ++ ['Z'])

/-! ### Clocks -/

/-- The number of the day from which clocks count, the first of January 1970. -/
def clockDay : Int := Date.dayNumber ⟨1970, 1, 1⟩

/-- The timestamp of a clock that counts nanoseconds from its first day. -/
def ofClock (nanoseconds : Int) : Timestamp :=
  let seconds := nanoseconds / 1000000000
  ⟨clockDay * minutesPerDay + seconds / 60,
    ⟨(seconds % 60).toNat, by omega⟩, ⟨(nanoseconds % 1000000000).toNat, by omega⟩⟩

/-! ### Reading -/

/-- Why a text is no timestamp. -/
inductive ParseError where
  | tooShort
  | invalid
  | outOfRange
  | tooLong
  /-- The local date exists, and the date of universal time does not. -/
  | impossible
  deriving DecidableEq, Repr

/-- The message for a text that is no timestamp. -/
def ParseError.message : ParseError → String
  | tooShort => "premature end of input"
  | invalid => "input contains invalid characters"
  | outOfRange => "input is out of range"
  | tooLong => "trailing input"
  | impossible => "no possible date and time matching input"

/-- Takes a part of a timestamp from the front of a text and returns it with the rest. -/
def Scanner (α : Type) := List Char → Except ParseError (α × List Char)

namespace Scanner

instance : Monad Scanner where
  pure a := fun cs => .ok (a, cs)
  bind s f := fun cs =>
    match s cs with
    | .ok (a, rest) => f a rest
    | .error e => .error e

/-- Refuses the text. -/
def fail {α : Type} (e : ParseError) : Scanner α := fun _ => .error e

/-- Takes blanks. -/
def blanks : Scanner Unit := fun cs => .ok ((), dropBlanks cs)

/-- At least one digit and at most `width` of them. -/
def digits (width : Nat) : Scanner (List Char) := fun cs =>
  match cs with
  | [] => .error .tooShort
  | c :: _ =>
      if c.isDigit then
        let ds := (cs.take width).takeWhile Char.isDigit
        .ok (ds, cs.drop ds.length)
      else .error .invalid

/-- A number of at most two digits within a range, after blanks. -/
def twoDigits (low high : Nat) : Scanner Nat := do
  blanks
  let n := digitsValue (← digits 2)
  if low ≤ n ∧ n ≤ high then return n else fail .outOfRange

/-- The greatest year that is read before its date is looked at. -/
def maxYear : Nat := 0x7FFFFFFF

/-- A number of any length that is at most `bound`. -/
def boundedNumber (bound : Nat) : Scanner Nat := fun cs =>
  (do
    let n := digitsValue (← digits cs.length)
    if n ≤ bound then return n else fail .outOfRange : Scanner Nat) cs

/-- A year after blanks: four digits, or any number of digits after a sign. -/
def year : Scanner Int := fun cs =>
  match dropBlanks cs with
  | '-' :: rest => (do return -((← boundedNumber (maxYear + 1) : Nat) : Int) : Scanner Int) rest
  | '+' :: rest => (do return ((← boundedNumber maxYear : Nat) : Int) : Scanner Int) rest
  | cs => (do return (digitsValue (← digits 4) : Int) : Scanner Int) cs

/-- One given character after blanks. -/
def literal (c : Char) : Scanner Unit := fun cs =>
  match dropBlanks cs with
  | [] => .error .tooShort
  | d :: rest => if d = c then .ok ((), rest) else .error .invalid

/-- The mark between date and time. -/
def dateEnd : Scanner Unit := fun cs =>
  match cs with
  | [] => .error .tooShort
  | c :: rest => if c = 'T' ∨ c = 't' ∨ c = ' ' then .ok ((), rest) else .error .invalid

/-- The nanoseconds of the digits of a fraction. -/
def nanoseconds (ds : List Char) : Nat :=
  digitsValue ds * Nat.pow 10 (9 - ds.length)

/-- The fraction of a second, if there is one: nine digits count, the others are dropped. -/
def fraction : Scanner Nat := fun cs =>
  match cs with
  | '.' :: rest =>
      match digits 9 rest with
      | .ok (ds, rest) => .ok (nanoseconds ds, rest.dropWhile Char.isDigit)
      | .error e => .error e
  | cs => .ok (0, cs)

/-- Exactly two digits; fewer than two bytes are too short. -/
def digitPair : Scanner (Nat × Nat) := fun cs =>
  if byteLength (cs.take 2) < 2 then .error .tooShort
  else
    match cs with
    | a :: b :: rest =>
        if a.isDigit ∧ b.isDigit then .ok ((digitValue a, digitValue b), rest)
        else .error .invalid
    | _ => .error .invalid

/-- Takes colons and blanks. -/
def offsetGap : Scanner Unit := fun cs => .ok ((), cs.dropWhile fun c => c = ':' || isBlank c)

/-- The minutes of an offset after its sign. -/
def offsetMinutes : Scanner Nat := do
  let (h₁, h₂) ← digitPair
  offsetGap
  let (m₁, m₂) ← digitPair
  if m₁ ≤ 5 then return (10 * h₁ + h₂) * 60 + (10 * m₁ + m₂) else fail .outOfRange

/-- Whether a text starts with the name of universal time, in letters of either case. -/
def isUniversal (cs : List Char) : Bool := (cs.take 3).map Char.toUpper = ['U', 'T', 'C']

/-- The offset from universal time, in minutes. -/
def zone : Scanner Int := fun cs =>
  if isUniversal cs then .ok (0, cs.drop 3)
  else
    match cs with
    | [] => .error .tooShort
    | c :: rest =>
        if c = 'Z' ∨ c = 'z' then .ok (0, rest)
        else if c = '+' then (do return ((← offsetMinutes : Nat) : Int) : Scanner Int) rest
        else if c = '-' ∨ c = '−' then
          (do return -((← offsetMinutes : Nat) : Int) : Scanner Int) rest
        else .error .invalid

/-- The end of the text after blanks. -/
def done : Scanner Unit := fun cs =>
  if (dropBlanks cs).isEmpty then .ok ((), []) else .error .tooLong

end Scanner

/-- The years that a date may have. -/
def inCalendar (year : Int) : Bool := -262143 ≤ year && year ≤ 262142

/-- The timestamp of a local date and time and its offset from universal time.
The date must exist both there and in universal time. -/
def ofLocal (date : Date) (hour minute second nano : Nat) (offset : Int) :
    Except ParseError Timestamp :=
  if date.isValid && inCalendar date.year && offset.natAbs < 1440 then
    if h : second < 61 ∧ nano < 1000000000 then
      let t : Timestamp := ⟨date.dayNumber * minutesPerDay + (hour * 60 + minute) - offset,
        ⟨second, h.1⟩, ⟨nano, h.2⟩⟩
      if inCalendar t.date.year then .ok t else .error .impossible
    else .error .outOfRange
  else .error .outOfRange

open Scanner in
/-- Scans a timestamp.  Each part is checked against its own range as it is read;
whether the date exists is looked at when the text has ended. -/
def scan : Scanner Timestamp := do
  let year ← year
  literal '-'
  let month ← twoDigits 1 12
  literal '-'
  let day ← twoDigits 1 31
  dateEnd
  let hour ← twoDigits 0 23
  literal ':'
  let minute ← twoDigits 0 59
  literal ':'
  let second ← twoDigits 0 60
  let nano ← fraction
  blanks
  let offset ← zone
  done
  match ofLocal ⟨year, month, day⟩ hour minute second nano offset with
  | .ok t => return t
  | .error e => fail e

/-- The timestamp of a text. -/
def parse (text : String) : Except ParseError Timestamp :=
  match scan text.toList with
  | .ok (t, _) => .ok t
  | .error e => .error e

end Timestamp

end Sequencer
