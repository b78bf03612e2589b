import Sequencer.Number.Binary64

/-!
# Shortest decimal texts

The text of a number has the fewest digits that read back as the same number,
and of these the nearest to it.  Numbers of moderate size are written
positionally, others with an exponent.

## Main Definitions

* `Magnitude.shortest` — the shortest digits of a magnitude, with their power of ten.
* `Binary64.text` — the text of a number.
-/

namespace Sequencer.Number

namespace Magnitude

/-- The lower end of the ratios that round to `x`, as numerator over `4 * x.den`. -/
def lowerNum (x : Magnitude) : Nat :=
  -- Below a power of two the numbers lie twice as dense.
  if x.mantissa = twoTo (mantissaBits - 1) ∧ minExponent < x.exponent then
    (4 * x.mantissa - 1) * twoTo x.exponent.toNat
  else (4 * x.mantissa - 2) * twoTo x.exponent.toNat

/-- The upper end of the ratios that round to `x`, as numerator over `4 * x.den`. -/
def upperNum (x : Magnitude) : Nat := (4 * x.mantissa + 2) * twoTo x.exponent.toNat

/-- Whether `digits * 10 ^ power` reads back as `x`. -/
def readsBack (x : Magnitude) (digits : Nat) (power : Int) : Bool :=
  let value := 4 * x.den * digits * tenTo power.toNat
  let unit := tenTo (-power).toNat
  if x.mantissa % 2 = 0 then
    x.lowerNum * unit ≤ value && value ≤ x.upperNum * unit
  else
    x.lowerNum * unit < value && value < x.upperNum * unit

/-- The least `k` from `start` on with `num * 10 ^ k ≥ den`. -/
def leadingZeros (num den : Nat) (k : Nat) : Nat → Nat
  | 0 => k
  | fuel + 1 => if den ≤ num * tenTo k then k else leadingZeros num den (k + 1) fuel

/-- The exponent of the leading decimal digit of a positive magnitude. -/
def leadingExponent (x : Magnitude) : Int :=
  let whole := x.num / x.den
  if whole = 0 then -(leadingZeros x.num x.den 1 400 : Int)
  else (Nat.toDigits 10 whole).length - 1

/-- Of the two neighbours of `x` on the grid of `power`, the nearer one that reads back. -/
def gridPoint? (x : Magnitude) (power : Int) : Option Nat :=
  let num := x.num * tenTo (-power).toNat
  let den := x.den * tenTo power.toNat
  let near := roundDiv num den
  let far := if num < near * den then near - 1 else near + 1
  if x.readsBack near power then some near
  else if x.readsBack far power then some far
  else none

/-- The first grid, from `power` downwards, on which a neighbour of `x` reads back. -/
def shortestFrom (x : Magnitude) (power : Int) : Nat → Nat × Int
  | 0 => (0, 0)
  | fuel + 1 =>
      match x.gridPoint? power with
      | some digits => (digits, power)
      | none => x.shortestFrom (power - 1) fuel

/-- The shortest digits of a positive magnitude, with their power of ten. -/
def shortest (x : Magnitude) : Nat × Int := x.shortestFrom x.leadingExponent 18

/-- The decimal digits of `n` without zeros at the end, and how many zeros were there. -/
def trimZeros (n : Nat) : List Char × Nat :=
  let digits := Nat.toDigits 10 n
  let zeros := (digits.reverse.takeWhile (· = '0')).length
  (digits.take (digits.length - zeros), zeros)

/-- The exponents of the leading digit that are written positionally. -/
def isPositional (exponent : Int) : Bool := -5 ≤ exponent && exponent ≤ 15

/-- Digits `d₁d₂…` with the leading one at `10 ^ exponent`, written positionally
with at least one digit on either side of the point. -/
def positional (digits : List Char) (exponent : Int) : List Char :=
  let whole := (exponent + 1).toNat
  if exponent < 0 then
    "0.".toList ++ List.replicate (-exponent - 1).toNat '0' ++ digits
  else if digits.length ≤ whole then
    digits ++ List.replicate (whole - digits.length) '0' ++ ".0".toList
  else
    digits.take whole ++ '.' :: digits.drop whole

/-- Digits `d₁d₂…` with the leading one at `10 ^ exponent`, written with an
exponent that bears a sign. -/
def scientific (digits : List Char) (exponent : Int) : List Char :=
  let mantissa := match digits with
    | [] => []
    | [d] => [d]
    | d :: ds => d :: '.' :: ds
  mantissa ++ 'e' :: (if exponent < 0 then '-' else '+') :: Nat.toDigits 10 exponent.natAbs

/-- The text of a magnitude. -/
def text (x : Magnitude) : List Char :=
  if x.mantissa = 0 then "0.0".toList
  else
    let (n, power) := x.shortest
    let (digits, zeros) := trimZeros n
    let exponent := power + (zeros : Int) + digits.length - 1
    if isPositional exponent then positional digits exponent else scientific digits exponent

end Magnitude

/-- The text of a number. -/
def Binary64.text (x : Binary64) : String :=
  String.ofList ((if x.negative then ['-'] else []) ++ x.magnitude.text)

end Sequencer.Number
