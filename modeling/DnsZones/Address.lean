import DnsZones.Fault
import DnsZones.Numeral
import DnsZones.Text

/-!
# Internet Addresses

The text forms of IPv4 and IPv6 addresses.

An IPv4 address is four decimal numbers below 256 with dots between them,
without leading zeros. An IPv6 address is eight groups of up to four hexadecimal
digits with colons between them; one run of groups may be left out and is then
written `::`, and the last two groups may be written as an IPv4 address. Only
IPv4 addresses are kept as values: an IPv6 address is recognised so that it can
be told apart from text that is no address at all.

## Main definitions

* `IPv4`: Four octets.
* `IPv4.read?`: An IPv4 address at the front of a text, and the rest.
* `IPv6.read?`: The rest of a text after an IPv6 address.
* `isAddress`: The text forms of both families.
* `checkIPv4`: An IPv4 address, reporting what is not one.
* `IPv4.reverseZone`: The zone that holds an address's pointer.
-/

namespace DnsZones

/-- An IPv4 address, first octet first. -/
structure IPv4 where
  first : UInt8
  second : UInt8
  third : UInt8
  fourth : UInt8
  deriving DecidableEq, Repr

namespace IPv4

/-- Whether a character is an ASCII digit. -/
def isDigit (c : Char) : Bool := (Numeral.digit? c).isSome

/-- The number below 256 that a whole run of digits denotes. A number has at most three
    digits, and begins with a zero only if it is zero. -/
def octet? (digits : List Char) : Option UInt8 :=
  match Numeral.digits? digits with
  | none => none
  | some n =>
    if digits.length ≤ 3 ∧ n < UInt8.size ∧ (digits.head? = some '0' → digits.length = 1) then
      some (UInt8.ofNat n)
    else none

/-- Read one octet: the digits at the front, all of them. -/
def readOctet? (cs : List Char) : Option (UInt8 × List Char) :=
  match octet? (cs.takeWhile isDigit) with
  | some octet => some (octet, cs.dropWhile isDigit)
  | none => none

/-- Read a dot and then one octet. -/
def readDotOctet? : List Char → Option (UInt8 × List Char)
  | '.' :: cs => readOctet? cs
  | _ => none

/-- Read an address from the front of a text. -/
def read? (cs : List Char) : Option (IPv4 × List Char) :=
  match readOctet? cs with
  | none => none
  | some (first, cs) =>
    match readDotOctet? cs with
    | none => none
    | some (second, cs) =>
      match readDotOctet? cs with
      | none => none
      | some (third, cs) =>
        match readDotOctet? cs with
        | none => none
        | some (fourth, cs) => some (⟨first, second, third, fourth⟩, cs)

/-- The address that a whole text denotes. -/
def ofString? (text : String) : Option IPv4 :=
  match read? text.toList with
  | some (address, []) => some address
  | _ => none

/-- The octets, first octet first. -/
def octets (address : IPv4) : List UInt8 :=
  [address.first, address.second, address.third, address.fourth]

/-- The text form of an address. -/
def toText (address : IPv4) : String :=
  ".".intercalate (address.octets.map fun octet => Numeral.decimal octet.toNat)

/-- The zone that holds the pointers of an address and its neighbours: the first three
    octets backwards, under `in-addr.arpa.` -/
def reverseZone (address : IPv4) : String :=
  Numeral.decimal address.third.toNat ++ "." ++ Numeral.decimal address.second.toNat ++ "."
    ++ Numeral.decimal address.first.toNat ++ ".in-addr.arpa."

end IPv4

namespace IPv6

/-- Whether a character is a hexadecimal digit. -/
def isHexDigit (c : Char) : Bool :=
  IPv4.isDigit c || ('a'.toNat ≤ c.toNat && c.toNat ≤ 'f'.toNat)
    || ('A'.toNat ≤ c.toNat && c.toNat ≤ 'F'.toNat)

/-- The rest after one group: all hexadecimal digits at the front, one to four of them. -/
def readGroup? (cs : List Char) : Option (List Char) :=
  let digits := cs.takeWhile isHexDigit
  if digits.isEmpty || 4 < digits.length then none else some (cs.dropWhile isHexDigit)

/-- The rest after the colon that stands before every group but the first. -/
def separator? (isFirst : Bool) (cs : List Char) : Option (List Char) :=
  if isFirst then some cs
  else
    match cs with
    | ':' :: cs => some cs
    | _ => none

/-- Read groups from the front of a text, as many as are there and at most `limit`. Gives
    the number of groups, whether an IPv4 address made the last two, and the rest. -/
def readGroups : (limit : Nat) → (isFirst : Bool) → List Char → Nat × Bool × List Char
  | 0, _, cs => (0, false, cs)
  | limit + 1, isFirst, cs =>
    match separator? isFirst cs with
    | none => (0, false, cs)
    | some body =>
      match if 1 ≤ limit then IPv4.read? body else none with
      | some (_, rest) => (2, true, rest)
      | none =>
        match readGroup? body with
        | none => (0, false, cs)
        | some rest =>
          let (count, embedded, rest) := readGroups limit false rest
          (count + 1, embedded, rest)

/-- The rest of a text after an address. -/
def read? (cs : List Char) : Option (List Char) :=
  let (count, embedded, rest) := readGroups 8 true cs
  if count = 8 then some rest
  else if embedded then none
  else
    match rest with
    | ':' :: ':' :: rest => some (readGroups (7 - count) true rest).2.2
    | _ => none

end IPv6

/-- Whether a text is an IPv4 or an IPv6 address. -/
def isAddress (text : String) : Bool :=
  match IPv4.read? text.toList with
  | some (_, rest) => rest.isEmpty
  | none => IPv6.read? text.toList == some []

/-- Read an IPv4 address; an address of the other family is reported as such. -/
def checkIPv4 (text : String) : Except Fault IPv4 :=
  if isAddress text then
    match IPv4.ofString? text with
    | some address => .ok address
    | none => .error (.notIpv4 text)
  else .error (.invalidAddress text)

end DnsZones
