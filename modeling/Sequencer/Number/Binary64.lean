/-!
# Binary floating point numbers of 64 bits

A finite number is a sign and a magnitude `mantissa * 2 ^ exponent` with a
mantissa of at most 53 bits.  All operations are exact in the integers and then
rounded once, to the nearest number, a half going to the even neighbour.

## Main Definitions

* `Magnitude` — a magnitude in lowest position; `Magnitude.ofRatio?` rounds a ratio to one.
* `Magnitude.scale?` — a magnitude times a power of ten.
* `Binary64` — a magnitude with a sign.
* `Binary64.ofDecimal?` — the number of a decimal significand and exponent.
-/

namespace Sequencer.Number

/-- The number of bits of a mantissa. -/
def mantissaBits : Nat := 53

/-- The least exponent of a magnitude. -/
def minExponent : Int := -1074

/-- The greatest exponent of a magnitude. -/
def maxExponent : Int := 971

/-- Two to the power of `k`. -/
def twoTo (k : Nat) : Nat := Nat.pow 2 k

/-- Ten to the power of `k`. -/
def tenTo (k : Nat) : Nat := Nat.pow 10 k

/-- The magnitude `mantissa * 2 ^ exponent`. -/
structure Magnitude where
  mantissa : Nat
  exponent : Int
  deriving DecidableEq, Repr

/-- `num / den` rounded to the nearest integer, a half to the even neighbour. -/
def roundDiv (num den : Nat) : Nat :=
  let q := num / den
  let r := num % den
  if 2 * r < den then q
  else if 2 * r = den then q + q % 2
  else q + 1

namespace Magnitude

/-- The magnitude zero. -/
def zero : Magnitude := ⟨0, minExponent⟩

/-- The numerator of a magnitude as a ratio of integers. -/
def num (x : Magnitude) : Nat := x.mantissa * twoTo x.exponent.toNat

/-- The denominator of a magnitude as a ratio of integers. -/
def den (x : Magnitude) : Nat := twoTo (-x.exponent).toNat

/-- The exponent at which `num / den` has a mantissa of full length, or the least exponent. -/
def exponentFor (num den : Nat) : Int :=
  let guess : Int := num.log2 - den.log2 - mantissaBits
  -- The ratio lies between 2 ^ (guess + 52) and 2 ^ (guess + 54).
  let full : Bool :=
    den * twoTo (guess + mantissaBits).toNat ≤ num * twoTo (-(guess + mantissaBits)).toNat
  max minExponent (if full then guess + 1 else guess)

/-- The magnitude nearest to `num / den`, if it is within range. -/
def ofRatio? (num den : Nat) : Option Magnitude :=
  if num = 0 then some zero
  else
    let e := exponentFor num den
    let m := roundDiv (num * twoTo (-e).toNat) (den * twoTo e.toNat)
    let x : Magnitude :=
      if m = twoTo mantissaBits then ⟨twoTo (mantissaBits - 1), e + 1⟩ else ⟨m, e⟩
    if x.exponent ≤ maxExponent then some x else none

/-- The product of two magnitudes. -/
def mul? (x y : Magnitude) : Option Magnitude := ofRatio? (x.num * y.num) (x.den * y.den)

/-- The quotient of two magnitudes. -/
def div? (x y : Magnitude) : Option Magnitude := ofRatio? (x.num * y.den) (x.den * y.num)

/-- The greatest power of ten that is within range. -/
def maxPower : Nat := 308

/-- The magnitude nearest to a power of ten. -/
def tenPower? (k : Nat) : Option Magnitude := ofRatio? (tenTo k) 1

/-- A magnitude divided by a power of ten of any size, in steps of the greatest
power that is within range; after `fuel` steps nothing is left. -/
def divTenPower? (x : Magnitude) (k : Nat) : Nat → Option Magnitude
  | 0 => some zero
  | fuel + 1 =>
      if k ≤ maxPower then do
        let p ← tenPower? k
        x.div? p
      else do
        let p ← tenPower? maxPower
        let y ← x.div? p
        y.divTenPower? (k - maxPower) fuel

/-- A magnitude times a power of ten, if the product is within range. -/
def scale? (x : Magnitude) : Int → Option Magnitude
  | .ofNat k =>
      if x.mantissa = 0 then some zero
      else if k ≤ maxPower then do
        let p ← tenPower? k
        x.mul? p
      else none
  | .negSucc k => x.divTenPower? (k + 1) 4

end Magnitude

/-- A finite number: a magnitude with a sign, which zero has too. -/
structure Binary64 where
  negative : Bool
  magnitude : Magnitude
  deriving DecidableEq, Repr

/-- The number of a decimal significand and exponent, if it is within range: the
significand is rounded first, and the product with the power of ten after it. -/
def Binary64.ofDecimal? (negative : Bool) (significand : Nat) (exponent : Int) :
    Option Binary64 := do
  let s ← Magnitude.ofRatio? significand 1
  let x ← s.scale? exponent
  return ⟨negative, x⟩

end Sequencer.Number
