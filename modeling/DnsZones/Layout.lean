import DnsZones.Numeral
import DnsZones.Zone

/-!
# Zone File Layout

The columns in which a record is written.

```text
host1                                    A      1.2.3.4 ;web server
example.com.                             SOA    (
    ns1.example.com.
    2025090301              ;serial
)
```

Name and type stand in columns that are filled up and never cut, so a long name
moves the rest of its line to the right. In the list form each value has a line
of its own, and the comments of one record stand under each other: the width of
that column is the byte length of the longest value, while filling counts
characters, and since no text has fewer bytes than characters the comments align
for any text.

Text can be filled up to 65535 columns and no further. A record with a comment
beyond them cannot be written, and whoever tries breaks off. `Layout.fits` tells
these records apart: the list form given here is that of a record that fits.

## Main definitions

* `Layout.single`, `Layout.multi`: The two forms of a record.
* `Layout.record`: A record in the form that it has.
* `Layout.fits`, `Layout.zoneFits`: Whether it can be written, and whether those of a zone can.
* `Layout.ttlDirective`: The directive for the default time to live.
-/

namespace DnsZones

namespace Layout

/-- The width of the name column. -/
def nameWidth : Nat := 40

/-- The width of the type column. -/
def typeWidth : Nat := 6

/-- What stands before each value of the list form. -/
def indent : String := "    "

/-- A comment as written after something else. -/
def commentSuffix : Option String → String
  | some comment => " ;" ++ comment
  | none => ""

/-- The fields before the values: name and type, then class and time to live if given. -/
def header (record : Record) : String :=
  Text.padRight nameWidth record.name ++ " " ++ Text.padRight typeWidth record.type.tag
    ++ (match record.classText with
        | some text => if text.isEmpty then "" else " " ++ text
        | none => "")
    ++ (match record.ttl with
        | some seconds => " " ++ Numeral.decimal seconds.toNat
        | none => "")

/-- A record's line with one value. -/
def single (record : Record) (value : Value) : String :=
  header record ++ " " ++ value.text ++ commentSuffix value.comment

/-- The column in which the comments of a list of values begin, from the values' start. -/
def commentColumn (values : List Value) : Nat :=
  values.foldl (fun width value => max width value.text.utf8ByteSize) 0

/-- One line of the list form. -/
def valueLine (width : Nat) (value : Value) : String :=
  match value.comment with
  | some comment => indent ++ Text.padRight width value.text ++ " ;" ++ comment ++ "\n"
  | none => indent ++ value.text ++ "\n"

/-- A record with a list of values: the header, a line for each value, the closing
    parenthesis. -/
def multi (record : Record) (values : List Value) : String :=
  header record ++ " (\n"
    ++ String.join (values.map (valueLine (commentColumn values))) ++ ")"

/-- A record in the form that its data has. -/
def record (record : Record) : String :=
  match record.data with
  | .single value => single record value
  | .multi values => multi record values

/-- The widest column that can be filled up to. -/
def maxWidth : Nat := 65535

/-- Whether a record can be written: where a value of a list has a comment, the comments must not
    begin further to the right than can be filled up to. -/
def fits (record : Record) : Bool :=
  match record.data with
  | .single _ => true
  | .multi values =>
    values.all (·.comment.isNone) || decide (commentColumn values ≤ maxWidth)

/-- Whether the records of a zone can be written. -/
def zoneFits (zone : Zone) : Bool := zone.records.entries.all fun e => fits e.2

/-- The directive for the default time to live. -/
def ttlDirective (ttl : TtlDirective) : Option String :=
  ttl.value.map fun seconds =>
    "$TTL " ++ Numeral.decimal seconds.toNat ++ commentSuffix ttl.comment

end Layout

end DnsZones
