/-!
# Faults in Records

What can be wrong with one record.

A zone definition is written by hand, so each fault corresponds to a mistake
worth reporting, and carries the offending value. The wording is in one place,
`Fault.message`; everything else only decides which fault there is.

## Main definitions

* `Fault`: The faults.
* `Fault.message`: How a fault is reported.
-/

namespace DnsZones

/-- A mistake in the data of one record. -/
inductive Fault where
  /-- A single value and a list of values are both given. -/
  | valueConflict
  /-- A list of values where one value belongs. -/
  | expectedSingle (type : String)
  /-- One value where a list of values belongs. -/
  | expectedMulti (type : String)
  /-- A class that is not a DNS class. -/
  | invalidClass (text : String)
  /-- Text that is not a domain name. -/
  | invalidName (text : String)
  /-- Text that is not an IP address. -/
  | invalidAddress (text : String)
  /-- An IP address of another family than IPv4. -/
  | notIpv4 (text : String)
  /-- Text that is not an email address. -/
  | invalidEmail (text : String)
  /-- A field that must hold a 32 bit unsigned integer and does not. -/
  | notAnInteger (field text : String)
  /-- A list of values of a length that is not allowed. -/
  | wrongValueCount (allowed : List Nat) (found : Nat)
  deriving DecidableEq, Repr

namespace Fault

/-- How a fault is reported. -/
def message : Fault → String
  | valueConflict => "value/comment and values are mutually exclusive"
  | expectedSingle type => type ++ " record expects a single value"
  | expectedMulti type => type ++ " record expects a list of values"
  | invalidClass text =>
    "invalid class '" ++ text ++ "', expected one of IN, CS, CH, HS"
  | invalidName text => "invalid domain name '" ++ text ++ "'"
  | invalidAddress text => "invalid IP address '" ++ text ++ "'"
  | notIpv4 text => "'" ++ text ++ "' is not an IPv4 address"
  | invalidEmail text => "invalid email address '" ++ text ++ "'"
  | notAnInteger field text =>
    field ++ " must be a non-negative integer, found '" ++ text ++ "'"
  | wrongValueCount allowed found =>
    "expected " ++ " or ".intercalate (allowed.map toString) ++ " values, found "
      ++ toString found

end Fault

end DnsZones
