/-!
# Scaled Numbers

Which numerals denote a number that can be held in double precision.

A numeral is a significand times a power of ten. The significand has 64 bits: it
takes the digits of the numeral as long as they fit. A digit of the integer part
that does not fit still counts as a place, so it raises the exponent; a digit of
the fraction that does not fit is dropped, and so are all after it.

The number is then made in double precision by one multiplication, so both the
significand and the power of ten are rounded before, and the product must stay
below the bound from which on it would be rounded to infinity. Rounding twice
moves that bound a little, which is why it is not enough to compare the numeral
itself. A number with a negative exponent is divided instead and never too large.

## Main definitions

* `Scaled`: A significand and an exponent.
* `Scaled.ofDigits`: The two of a numeral.
* `nearestDouble`: A natural number in double precision.
* `Scaled.isFinite`: Whether double precision is enough.
-/

namespace DnsZones

/-- A number in the form `significand * 10 ^ exponent`. -/
structure Scaled where
  /-- The digits that count. -/
  significand : Nat
  /-- The power of ten by which they are scaled. -/
  exponent : Int
  deriving DecidableEq, Repr

namespace Scaled

/-- The number from which on a significand does not fit. -/
def significandBound : Nat := Nat.pow 2 64

/-- A significand with one more digit, if it still fits. -/
def extend? (significand digit : Nat) : Option Nat :=
  let extended := 10 * significand + digit
  if extended < significandBound then some extended else none

/-- The number that an integer part denotes, after digits already taken. -/
def takeInteger (significand : Nat) : List Nat → Scaled
  | [] => ⟨significand, 0⟩
  | digit :: digits =>
    match extend? significand digit with
    | some extended => takeInteger extended digits
    | none => ⟨significand, (digit :: digits).length⟩

/-- A number with the digits of a fraction. -/
def takeFraction (scaled : Scaled) : List Nat → Scaled
  | [] => scaled
  | digit :: digits =>
    match extend? scaled.significand digit with
    | some extended => takeFraction ⟨extended, scaled.exponent - 1⟩ digits
    | none => scaled

/-- A number that no exponent of interest reaches. -/
def exponentBound : Nat := 10000000000

/-- The exponent that digits denote, up to the bound. -/
def exponentOf (digits : List Nat) : Nat :=
  digits.foldl (fun n digit => min exponentBound (10 * n + digit)) 0

/-- The number that a numeral denotes: its integer part, its fraction, and its exponent, which
    may be negative. -/
def ofDigits (integer fraction : List Nat) (isNegative : Bool) (exponent : List Nat) : Scaled :=
  let scaled := (takeInteger 0 integer).takeFraction fraction
  let power : Int := exponentOf exponent
  { scaled with exponent := scaled.exponent + (if isNegative then -power else power) }

end Scaled

/-- The number of bits that double precision keeps. -/
def doubleBits : Nat := 53

/-- A natural number in double precision: the nearest multiple of a power of two that leaves so
    many bits, and of two equally near ones the even multiple. -/
def nearestDouble (n : Nat) : Nat :=
  let unit := Nat.pow 2 (n.log2 + 1 - doubleBits)
  let low := n / unit
  let rest := 2 * (n % unit)
  if unit < rest ∨ (unit = rest ∧ low % 2 = 1) then (low + 1) * unit else low * unit

namespace Scaled

/-- The largest power of ten that double precision can hold. -/
def maxPower : Nat := 308

/-- The number from which on double precision has only infinity: half a unit more than its
    largest number. -/
def doubleBound : Nat := Nat.pow 2 1024 - Nat.pow 2 970

/-- Whether a number can be made in double precision without becoming infinite. -/
def isFinite (scaled : Scaled) : Bool :=
  scaled.significand = 0 || scaled.exponent < 0
    || (scaled.exponent ≤ maxPower
      && nearestDouble scaled.significand * nearestDouble (Nat.pow 10 scaled.exponent.toNat)
        < doubleBound)

end Scaled

end DnsZones
