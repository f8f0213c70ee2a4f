import DnsZones.Date
import DnsZones.Definition
import DnsZones.Numeral

/-!
# Serial Numbers

The change index behind a zone's serial numbers.

Secondary servers fetch a zone again when its serial number has grown. The
number is made of two parts: the day on which the index was last started, and a
counter of the changes on that day, written with at least two digits. The first
serial of 3 September 2025 is `2025090301`. The counter starts again on another
day, and after 99 it takes more digits instead of wrapping.

## Main definitions

* `SerialIndex`: A day and the number of changes on it.
* `SerialIndex.advance`: The index after one more change.
* `SerialIndex.serial`: The serial number.
* `SerialIndex.document`: The text in which an index is kept on disk.
-/

namespace DnsZones

/-- The state of one zone's serial numbers. -/
structure SerialIndex where
  /-- The day, as a number of eight digits. -/
  base : UInt32
  /-- The number of changes on that day. -/
  changeIndex : UInt32
  deriving DecidableEq, Repr, Inhabited

namespace SerialIndex

/-- One more change, up to the largest number there is. -/
def increment (n : UInt32) : UInt32 := if n.toNat + 1 < UInt32.size then n + 1 else n

/-- The index after a change today. -/
def advance (previous : Option SerialIndex) (today : UInt32) : SerialIndex :=
  match previous with
  | some index =>
    if index.base = today then ⟨today, increment index.changeIndex⟩ else ⟨today, 1⟩
  | none => ⟨today, 1⟩

/-- The serial number: the day, then the counter with at least two digits. -/
def serial (index : SerialIndex) : String :=
  Numeral.decimal index.base.toNat ++ Numeral.padded 2 index.changeIndex.toNat

/-- Write an index. -/
def toJson (index : SerialIndex) : Json :=
  .object [
    (some "base_serial_number", .natural index.base.toNat),
    (some "change_index", .natural index.changeIndex.toNat)]

/-- The fields of an index while it is read. -/
structure Fields where
  base : Option UInt32 := none
  changeIndex : Option UInt32 := none

/-- Take one field. -/
def Fields.take (known : Fields) (name : String) (json : Json) : Json.Reading Fields :=
  match name with
  | "base_serial_number" =>
    (Json.once known.base Json.asWord json).map fun x => { known with base := x }
  | "change_index" =>
    (Json.once known.changeIndex Json.asWord json).map fun x => { known with changeIndex := x }
  | _ => .ok known

/-- Read an index. -/
def ofJson (json : Json) : Json.Reading SerialIndex := do
  let members ← Json.members ["base_serial_number", "change_index"] json
  let fields ← Json.readMembers Fields.take {} members
  let base ← Json.required fields.base
  let changeIndex ← Json.required fields.changeIndex
  return ⟨base, changeIndex⟩

/-- The text in which an index is kept: one line of JSON. -/
def document (index : SerialIndex) : String := index.toJson.write ++ "\n"

end SerialIndex

end DnsZones
