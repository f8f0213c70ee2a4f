import DnsZones.Fault

/-!
# Decimal Numerals

Reading and writing whole numbers in decimal.

The timers and the serial of a start of authority record are 32 bit unsigned
integers written as text. A numeral is read as a person writes it: digits,
leading zeros allowed, and one plus sign allowed in front.

## Main definitions

* `digits?`: The number that a string of ASCII digits denotes.
* `word?`: The 32 bit unsigned integer that a numeral denotes.
* `checkWord`: The same, reporting what is not one.
* `padded`: A number in decimal, with zeros in front up to a width.
-/

namespace DnsZones

namespace Numeral

/-- The value of an ASCII digit. -/
def digit? (c : Char) : Option Nat :=
  if '0'.toNat ≤ c.toNat ∧ c.toNat ≤ '9'.toNat then some (c.toNat - '0'.toNat) else none

/-- Append digits to a number already read. -/
def digitsFrom? (n : Nat) : List Char → Option Nat
  | [] => some n
  | c :: cs =>
    match digit? c with
    | some d => digitsFrom? (10 * n + d) cs
    | none => none

/-- The number denoted by one or more ASCII digits. -/
def digits? : List Char → Option Nat
  | [] => none
  | c :: cs => digitsFrom? 0 (c :: cs)

/-- The unsigned number that a numeral denotes, with at most one plus sign in front. -/
def unsigned? : List Char → Option Nat
  | '+' :: cs => digits? cs
  | cs => digits? cs

/-- The 32 bit unsigned integer that a text denotes. -/
def word? (text : String) : Option UInt32 :=
  match unsigned? text.toList with
  | some n => if n < UInt32.size then some (UInt32.ofNat n) else none
  | none => none

/-- Read a field that must hold a 32 bit unsigned integer. -/
def checkWord (field text : String) : Except Fault UInt32 :=
  match word? text with
  | some n => .ok n
  | none => .error (.notAnInteger field text)

/-- A number in decimal. -/
def decimal (n : Nat) : String := String.ofList (Nat.toDigits 10 n)

/-- A number in decimal, with zeros in front up to a width. -/
def padded (width n : Nat) : String :=
  let digits := Nat.toDigits 10 n
  String.ofList (List.replicate (width - digits.length) '0' ++ digits)

end Numeral

end DnsZones
