import DnsZones.Json.Shape
import DnsZones.Zone

/-!
# Zone Definitions in JSON

How values, records, configurations and zones are written and read.

The same forms appear in definition files and in messages to plugins. An
optional field that is absent is left out, with one exception: the value of a
time to live directive is always written. Reading is more generous: most fields
may be missing, and some may be null.

## Main definitions

* `Value.toJson`, `Record.toJson`, `Config.toJson`, `TtlDirective.toJson`,
  `Zone.toJson`, `Zones.toJson`: Writing.
* `Value.ofJson`, `Record.ofJson`, `Config.ofJson`, `TtlDirective.ofJson`,
  `Zone.ofJson`, `Zones.ofJson`: Reading.
-/

namespace DnsZones

open Json

/-- A member with a text, or none. -/
def optionalText (name : String) : Option String → List (Literal × Json)
  | some s => [(some name, .text s)]
  | none => []

/-- A member with a 32 bit unsigned integer, or none. -/
def optionalWord (name : String) : Option UInt32 → List (Literal × Json)
  | some n => [(some name, .natural n.toNat)]
  | none => []

namespace Value

/-- Write a value. -/
def toJson (value : Value) : Json :=
  .object ((some "value", .text value.text) :: optionalText "comment" value.comment)

/-- The fields of a value while it is read. -/
structure Fields where
  text : Option String := none
  comment : Option (Option String) := none

/-- Take one field. -/
def Fields.take (known : Fields) (name : String) (json : Json) : Reading Fields :=
  match name with
  | "value" => (once known.text asText json).map fun x => { known with text := x }
  | "comment" =>
    (once known.comment (asOptional asText) json).map fun x => { known with comment := x }
  | _ => .ok known

/-- Read a value. -/
def ofJson (json : Json) : Reading Value := do
  let fields ← readMembers Fields.take {} (← members ["value", "comment"] json)
  let text ← required fields.text
  return { text := text, comment := fields.comment.join }

end Value

namespace RecordType

/-- Write a type's tag. -/
def toJson (type : RecordType) : Json := .text type.tag

/-- Read a type from any text. -/
def ofJson (json : Json) : Reading RecordType := (asText json).map ofText

end RecordType

namespace Record

/-- The members for what a record holds. -/
def dataMembers : RecordData → List (Literal × Json)
  | .single value => (some "value", .text value.text) :: optionalText "comment" value.comment
  | .multi [] => []
  | .multi values => [(some "values", .array (values.map Value.toJson))]

/-- Write a record. -/
def toJson (record : Record) : Json :=
  .object ((some "name", .text record.name) :: (some "type", record.type.toJson)
    :: (optionalText "class" record.classText ++ optionalWord "ttl" record.ttl
      ++ dataMembers record.data))

/-- The fields of a record while it is read. -/
structure Fields where
  /-- The owner's name. -/
  name : Option String := none
  type : Option String := none
  classText : Option (Option String) := none
  ttl : Option (Option UInt32) := none
  value : Option (Option String) := none
  comment : Option (Option String) := none
  values : Option (List Value) := none

/-- Take one field. -/
def Fields.take (known : Fields) (name : String) (json : Json) : Reading Fields :=
  match name with
  | "name" => (once known.name asText json).map fun x => { known with name := x }
  | "type" => (once known.type asText json).map fun x => { known with type := x }
  | "class" =>
    (once known.classText (asOptional asText) json).map fun x => { known with classText := x }
  | "ttl" => (once known.ttl (asOptional asWord) json).map fun x => { known with ttl := x }
  | "value" => (once known.value (asOptional asText) json).map fun x => { known with value := x }
  | "comment" =>
    (once known.comment (asOptional asText) json).map fun x => { known with comment := x }
  | "values" =>
    (once known.values (asList Value.ofJson) json).map fun x => { known with values := x }
  | _ => .ok known

/-- The names of the fields, in the order of an array. -/
def fieldNames : List String := ["name", "type", "class", "ttl", "value", "comment", "values"]

/-- Read a record. -/
def ofJson (json : Json) : Reading Record := do
  let fields ← readMembers Fields.take {} (← members fieldNames json)
  match combine fields.value.join fields.comment.join (fields.values.getD []) with
  | .error _ => .error .conflict
  | .ok data =>
    return {
      name := fields.name.getD ""
      type := RecordType.ofText (fields.type.getD "")
      classText := fields.classText.join
      ttl := fields.ttl.join
      data := data }

end Record

namespace Config

/-- Write a configuration. -/
def toJson (config : Config) : Json :=
  .object [
    (some "generate_serial", .bool config.generateSerial),
    (some "generate_reverse_lookup_zones", .bool config.generateReverse),
    (some "serial_change_index_directory", .text config.serialDirectory.text),
    (some "plugins_directory", .text config.pluginsDirectory.text)]

/-- The fields of a configuration while it is read. -/
structure Fields where
  generateSerial : Option Bool := none
  generateReverse : Option Bool := none
  serialDirectory : Option String := none
  pluginsDirectory : Option String := none

/-- Take one field. -/
def Fields.take (known : Fields) (name : String) (json : Json) : Reading Fields :=
  match name with
  | "generate_serial" =>
    (once known.generateSerial asBool json).map fun x => { known with generateSerial := x }
  | "generate_reverse_lookup_zones" =>
    (once known.generateReverse asBool json).map fun x => { known with generateReverse := x }
  | "serial_change_index_directory" =>
    (once known.serialDirectory asText json).map fun x => { known with serialDirectory := x }
  | "plugins_directory" =>
    (once known.pluginsDirectory asText json).map fun x => { known with pluginsDirectory := x }
  | _ => .ok known

/-- The names of the fields, in the order of an array. -/
def fieldNames : List String :=
  ["generate_serial", "generate_reverse_lookup_zones", "serial_change_index_directory",
    "plugins_directory"]

/-- Read a configuration; a missing field has its default. -/
def ofJson (json : Json) : Reading Config := do
  let fields ← readMembers Fields.take {} (← members fieldNames json)
  let base : Config := {}
  return {
    generateSerial := fields.generateSerial.getD base.generateSerial
    generateReverse := fields.generateReverse.getD base.generateReverse
    serialDirectory := (fields.serialDirectory.map Path.mk).getD base.serialDirectory
    pluginsDirectory := (fields.pluginsDirectory.map Path.mk).getD base.pluginsDirectory }

end Config

namespace TtlDirective

/-- Write a directive. -/
def toJson (ttl : TtlDirective) : Json :=
  .object ((some "value", match ttl.value with
    | some n => .natural n.toNat
    | none => .null) :: optionalText "comment" ttl.comment)

/-- The fields of a directive while it is read. -/
structure Fields where
  value : Option (Option UInt32) := none
  comment : Option (Option String) := none

/-- Take one field. -/
def Fields.take (known : Fields) (name : String) (json : Json) : Reading Fields :=
  match name with
  | "value" => (once known.value (asOptional asWord) json).map fun x => { known with value := x }
  | "comment" =>
    (once known.comment (asOptional asText) json).map fun x => { known with comment := x }
  | _ => .ok known

/-- Read a directive. -/
def ofJson (json : Json) : Reading TtlDirective := do
  let fields ← readMembers Fields.take {} (← members ["value", "comment"] json)
  return { value := fields.value.join, comment := fields.comment.join }

end TtlDirective

/-- Write a table as an object. -/
def Table.toJson {α : Type} (write : α → Json) (table : Table String α) : Json :=
  .object (table.entries.map fun e => (some e.1, write e.2))

namespace Zone

/-- Write a zone. -/
def toJson (zone : Zone) : Json :=
  .object ((match zone.config with
      | some config => [(some "config", config.toJson)]
      | none => [])
    ++ (some "resource_records", zone.records.toJson Record.toJson)
    :: (match zone.ttl with
      | some ttl => [(some "ttl", ttl.toJson)]
      | none => []))

/-- The fields of a zone while it is read. -/
structure Fields where
  config : Option (Option Config) := none
  records : Option (Table String Record) := none
  ttl : Option (Option TtlDirective) := none

/-- Take one field. -/
def Fields.take (known : Fields) (name : String) (json : Json) : Reading Fields :=
  match name with
  | "config" =>
    (once known.config (asOptional Config.ofJson) json).map fun x => { known with config := x }
  | "resource_records" =>
    (once known.records (asTable Record.ofJson) json).map fun x => { known with records := x }
  | "ttl" =>
    (once known.ttl (asOptional TtlDirective.ofJson) json).map fun x => { known with ttl := x }
  | _ => .ok known

/-- Read a zone. -/
def ofJson (json : Json) : Reading Zone := do
  let fields ← readMembers Fields.take {} (← members ["config", "resource_records", "ttl"] json)
  return {
    config := fields.config.join
    records := fields.records.getD Table.empty
    ttl := fields.ttl.join }

end Zone

namespace Zones

/-- Write zones. -/
def toJson (zones : Zones) : Json := Table.toJson Zone.toJson zones

/-- Read zones. -/
def ofJson (json : Json) : Reading Zones := asTable Zone.ofJson json

end Zones

end DnsZones
