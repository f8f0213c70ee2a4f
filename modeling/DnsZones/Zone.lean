import DnsZones.Config
import DnsZones.Record
import DnsZones.Table

/-!
# Zones

A zone definition: its records, its configuration and its default time to live.

A zone is stored under its name, and its records under identifiers; both are
listed in the order of their text. An identifier is not a name: it tells one
record of the zone from another, and is at most where a missing name comes from.

## Main definitions

* `TtlDirective`: The directive at the top of a zone file.
* `Zone`: One zone.
* `Zones`: Zones by name.
* `Zone.recordsOf`: The records of one type.
-/

namespace DnsZones

/-- The directive that gives a zone file's default time to live. -/
structure TtlDirective where
  /-- The time in seconds; without one there is no directive to write. -/
  value : Option UInt32 := none
  /-- The comment written after it. -/
  comment : Option String := none
  deriving DecidableEq, Repr, Inhabited

/-- A zone definition. The zone's name is the key under which it is stored. -/
structure Zone where
  /-- The zone's own configuration. -/
  config : Option Config := none
  /-- The records by identifier. -/
  records : Table String Record := Table.empty
  /-- The default time to live. -/
  ttl : Option TtlDirective := none
  deriving DecidableEq, Inhabited

/-- Zones by name. -/
abbrev Zones := Table String Zone

namespace Zone

/-- The records of one type with their identifiers, in identifier order. -/
def recordsOf (zone : Zone) (type : RecordType) : List (String × Record) :=
  zone.records.entries.filter fun e => e.2.type == type

/-- The zone with a record stored under an identifier. -/
def insert (zone : Zone) (identifier : String) (record : Record) : Zone :=
  { zone with records := zone.records.insert identifier record }

end Zone

end DnsZones
