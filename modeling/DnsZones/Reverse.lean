import DnsZones.Address
import DnsZones.Mailbox
import DnsZones.ZoneError

/-!
# Reverse Zones

The zones that lead from addresses back to names.

Every address record of a zone gives one pointer. It belongs to the zone named
after the first three octets of the address, and its own name there is the last
octet, so that the two together spell the address backwards. A derived zone has
the configuration and the time to live of the zone it comes from, and a copy of
its start of authority; apart from that it is a zone like any other.

Pointers keep the identifiers of the address records they come from.

## Main definitions

* `Reverse.pointerTarget`: Where the pointer to a record leads.
* `Reverse.pointer`: The pointer of one address record.
* `Reverse.derive`: All reverse zones of a zone.
-/

namespace DnsZones

namespace Reverse

/-- The name that a pointer holds: a fully qualified name as it is, any other below the
    zone. -/
def pointerTarget (name zone : String) : String :=
  if Name.isFullyQualified name then name else Mailbox.withFinalDot (name ++ "." ++ zone)

/-- A pointer and where it belongs. -/
structure Pointer where
  zone : String
  identifier : String
  record : Record

/-- The pointer for an address record of a zone. -/
def pointer (name identifier : String) (record : Record) : Except ReverseError Pointer :=
  match record.single? with
  | none => .error (.severalValues identifier)
  | some value =>
    match checkIPv4 value.text with
    | .error cause => .error (.fault identifier cause)
    | .ok address =>
      .ok {
        zone := address.reverseZone
        identifier := identifier
        record := {
          Record.ofValue .ptr ⟨pointerTarget record.name name, none⟩ with
          name := Numeral.decimal address.fourth.toNat } }

/-- The pointers for address records, up to the first that has none. -/
def pointers (name : String) : List (String × Record) → Except ReverseError (List Pointer)
  | [] => .ok []
  | (identifier, record) :: rest =>
    match pointer name identifier record with
    | .error error => .error error
    | .ok first => (pointers name rest).map (first :: ·)

/-- A reverse zone before anything is in it. -/
def blank (source : Zone) : Zone := { config := source.config, ttl := source.ttl }

/-- Put a pointer where it belongs. -/
def place (source : Zone) (zones : Zones) (pointer : Pointer) : Zones :=
  let zone := (zones.get? pointer.zone).getD (blank source)
  zones.insert pointer.zone (zone.insert pointer.identifier pointer.record)

/-- Give every reverse zone a copy of a start of authority, under the reverse zone's name. -/
def withAuthority (identifier : String) (authority : Record) (zones : Zones) : Zones :=
  zones.mapValues fun name zone => zone.insert identifier { authority with name := name }

/-- The reverse zones of a zone. Without address records there are none, and then no start
    of authority is needed. -/
def deriveAll (name : String) (zone : Zone) : Except ReverseError Zones :=
  match pointers name (zone.recordsOf .a) with
  | .error error => .error error
  | .ok [] => .ok Table.empty
  | .ok pointers =>
    match zone.recordsOf .soa with
    | [] => .error .noAuthority
    | (identifier, authority) :: _ =>
      .ok (withAuthority identifier authority (pointers.foldl (place zone) Table.empty))

/-- The reverse zones of a zone, reporting under the zone's name why there are none. -/
def derive (name : String) (zone : Zone) : Except ZoneError Zones :=
  match deriveAll name zone with
  | .ok zones => .ok zones
  | .error error => .error ⟨name, .reverse error⟩

end Reverse

end DnsZones
