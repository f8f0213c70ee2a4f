import DnsZones.KeyOrder
import DnsZones.Name

/-!
# Resource Records

The entries of a zone, before and after they are checked.

A record has a type, and its type decides everything else: which plugin checks
it, and whether it holds one value or several. The set of types is open, so a
type is a tag of text; the tag is trimmed and in upper case by construction,
which is why `mx` and ` MX ` are the same type.

What a record holds is one of two forms, never both: a single value, written on
the record's own line, or a list of values, written between parentheses. Every
value may carry the comment that is written after it.

## Main definitions

* `RecordType`: A record type's tag, in canonical form.
* `Value`: One value with its comment.
* `RecordData`: The two forms.
* `Record`: A whole record.
* `Record.combine`: A record's form, from the fields a definition may give.

## Theorems

* `RecordType.ofText_tag`: A tag's own text is the tag.
-/

namespace DnsZones

/-- The tag of a record type. Equal tags are the same type. -/
structure RecordType where
  /-- The tag's text. -/
  tag : String
  /-- The text has no white space at its ends and no lower case ASCII letter. -/
  canonical : Text.upper (Text.trim tag) = tag
  deriving DecidableEq

namespace RecordType

/-- The type that a text names. -/
def ofText (text : String) : RecordType :=
  ⟨Text.upper (Text.trim text), Text.trim_upper_trim text⟩

/-- Address records. -/
def a : RecordType := ofText "A"

/-- Name server records. -/
def ns : RecordType := ofText "NS"

/-- Canonical name records. -/
def cname : RecordType := ofText "CNAME"

/-- Pointer records. -/
def ptr : RecordType := ofText "PTR"

/-- Start of authority records. -/
def soa : RecordType := ofText "SOA"

instance : Inhabited RecordType := ⟨ofText ""⟩

theorem ext {s t : RecordType} (h : s.tag = t.tag) : s = t := by
  cases s
  cases t
  cases h
  rfl

/-- A tag's own text names the type. -/
theorem ofText_tag (type : RecordType) : ofText type.tag = type := ext type.canonical

/-- Types are ordered by their tags. -/
instance instKeyOrder : KeyOrder RecordType := KeyOrder.along tag fun _ _ h => ext h

/-- The type that the DNS registry lists under a number. -/
def ofCode : Nat → RecordType
  | 0 => ofText "ZERO"
  | 1 => a
  | 2 => ns
  | 5 => cname
  | 6 => soa
  | 10 => ofText "NULL"
  | 12 => ptr
  | 13 => ofText "HINFO"
  | 15 => ofText "MX"
  | 16 => ofText "TXT"
  | 24 => ofText "SIG"
  | 25 => ofText "KEY"
  | 28 => ofText "AAAA"
  | 33 => ofText "SRV"
  | 35 => ofText "NAPTR"
  | 37 => ofText "CERT"
  | 41 => ofText "OPT"
  | 43 => ofText "DS"
  | 44 => ofText "SSHFP"
  | 46 => ofText "RRSIG"
  | 47 => ofText "NSEC"
  | 48 => ofText "DNSKEY"
  | 50 => ofText "NSEC3"
  | 51 => ofText "NSEC3PARAM"
  | 52 => ofText "TLSA"
  | 59 => ofText "CDS"
  | 60 => ofText "CDNSKEY"
  | 61 => ofText "OPENPGPKEY"
  | 62 => ofText "CSYNC"
  | 64 => ofText "SVCB"
  | 65 => ofText "HTTPS"
  | 250 => ofText "TSIG"
  | 251 => ofText "IXFR"
  | 252 => ofText "AXFR"
  | 255 => ofText "ANY"
  | 257 => ofText "CAA"
  | 65305 => ofText "ANAME"
  | _ => ofText "Unknown"

end RecordType

/-- One value of a record. -/
structure Value where
  text : String
  /-- The comment written after it. -/
  comment : Option String := none
  deriving DecidableEq, Repr, Inhabited

/-- What a record holds: exactly one of two forms. -/
inductive RecordData where
  /-- One value, written on the record's own line. -/
  | single (value : Value)
  /-- A list of values, written between parentheses. -/
  | multi (values : List Value)
  deriving DecidableEq, Repr

/-- A resource record. -/
structure Record where
  /-- The name that owns the record; empty where none is given. -/
  name : String
  type : RecordType
  /-- The text of the class column. -/
  classText : Option String := none
  /-- The time to live in seconds. -/
  ttl : Option UInt32 := none
  /-- What the record holds. -/
  data : RecordData
  deriving DecidableEq

namespace Record

instance : Inhabited Record := ⟨{ name := "", type := default, data := .single default }⟩

/-- An unnamed record with one value. -/
def ofValue (type : RecordType) (value : Value) : Record :=
  { name := "", type := type, data := .single value }

/-- An unnamed record with a list of values. -/
def ofValues (type : RecordType) (values : List Value) : Record :=
  { name := "", type := type, data := .multi values }

/-- A record with a name in place of a missing one. -/
def withDefaultName (record : Record) (name : String) : Record :=
  if record.name.isEmpty then { record with name := name } else record

/-- The single value of a record that has one. -/
def single? (record : Record) : Option Value :=
  match record.data with
  | .single value => some value
  | .multi _ => none

/-- The values of a record that holds a list. -/
def multi? (record : Record) : Option (List Value) :=
  match record.data with
  | .single _ => none
  | .multi values => some values

/-- A record with one more value, if it holds a list. -/
def push (record : Record) (value : Value) : Record :=
  match record.data with
  | .single _ => record
  | .multi values => { record with data := .multi (values ++ [value]) }

/-- The form of a record, from the value, the comment and the list of values that a
    definition may each give. A list alone is the list form and no list is the single form;
    a list beside one of the others has no form. -/
def combine (value comment : Option String) (values : List Value) : Except Fault RecordData :=
  match value, comment, values with
  | _, _, [] => .ok (.single ⟨value.getD "", comment⟩)
  | none, none, _ => .ok (.multi values)
  | _, _, _ => .error .valueConflict

/-- The classes of the DNS. The empty text stands for no class. -/
def classes : List String := ["IN", "CS", "CH", "HS", ""]

/-- Accept a missing class and the classes of the DNS. -/
def checkClass : Option String → Except Fault Unit
  | none => .ok ()
  | some text => if classes.contains text then .ok () else .error (.invalidClass text)

/-- The single value of a record, rejecting the list form. -/
def checkSingle (record : Record) : Except Fault Value :=
  match record.data with
  | .single value => .ok value
  | .multi _ => .error (.expectedSingle record.type.tag)

end Record

end DnsZones
