import DnsZones.Address
import DnsZones.Host
import DnsZones.Mailbox

/-!
# Builtin Plugins

The five record types that need no external plugin.

Address, name server, canonical name and pointer records hold one value each and
are checked alone; canonical names are checked once more when the zone is
complete, because each must lead to an address record of the zone. A record
without a name takes its identifier for one, except that a name server without a
name serves the zone itself.

A start of authority record holds seven values in fixed places. Where the zone
takes its serial numbers from a change index the serial may be left out, and is
given out only after everything else in the record is found in order.

## Main definitions

* `Builtin.normalizeAddress`, `Builtin.normalizeReference`: Records with one value.
* `Builtin.dangling`: The canonical names that lead nowhere.
* `Soa`: The values of a start of authority record by place.
* `Builtin.normalizeAuthority`: Start of authority records.
* `Builtin.plugins`: The plugins.
-/

namespace DnsZones

/-- The values of a start of authority record. -/
structure Soa where
  primary : Value
  /-- The administrator's mailbox. -/
  email : Value
  /-- The serial number, unless it is left out. -/
  serial : Option Value
  /-- How long secondaries wait before they ask again. -/
  refresh : Value
  /-- How long they wait after an attempt that failed. -/
  retry : Value
  /-- How long they answer without having reached the primary. -/
  expire : Value
  /-- How long an absent name is remembered. -/
  minimum : Value
  deriving DecidableEq, Repr

namespace Soa

/-- The values by place: seven, or six without the serial number. -/
def ofValues? : List Value → Option Soa
  | [primary, email, serial, refresh, retry, expire, minimum] =>
    some ⟨primary, email, some serial, refresh, retry, expire, minimum⟩
  | [primary, email, refresh, retry, expire, minimum] =>
    some ⟨primary, email, none, refresh, retry, expire, minimum⟩
  | _ => none

/-- The values in order. -/
def toValues (soa : Soa) : List Value :=
  soa.primary :: soa.email :: (soa.serial.toList
    ++ [soa.refresh, soa.retry, soa.expire, soa.minimum])

/-- Check one value that must be a 32 bit unsigned integer. -/
def checkInteger (field : String) (value : Value) : Except Fault Unit :=
  (Numeral.checkWord field value.text).map fun _ => ()

/-- Check every value, and put the mailbox into the form of a name. The serial number is
    checked only if it is to be kept. -/
def check (soa : Soa) (generating : Bool) : Except Fault Soa := do
  Name.check soa.primary.text
  let mailbox ← Mailbox.encode soa.email.text
  match soa.serial with
  | some serial => unless generating do checkInteger "serial" serial
  | none => pure ()
  checkInteger "refresh" soa.refresh
  checkInteger "retry" soa.retry
  checkInteger "expire" soa.expire
  checkInteger "minimum" soa.minimum
  return { soa with email := { soa.email with text := mailbox } }

/-- The values with a serial number; a comment that stood beside another one stays. -/
def withSerial (soa : Soa) (serial : String) : Soa :=
  { soa with serial := some ⟨serial, soa.serial.bind (·.comment)⟩ }

end Soa

namespace Builtin

/-- The version of every builtin plugin. -/
def version : String := "0.1.0"

/-- Check what all types with a single value share: form, class and name. -/
def checkSingle (record : Record) : Except Fault Value := do
  let value ← Record.checkSingle record
  Record.checkClass record.classText
  Name.checkOrOrigin record.name
  return value

/-- Normalize a record whose value is an IPv4 address. -/
def normalizeAddress (identifier : String) (record : Record) : Except Fault Record := do
  let record := record.withDefaultName identifier
  let value ← checkSingle record
  let _ ← checkIPv4 value.text
  return record

/-- Normalize a record whose value is a name. -/
def normalizeReference (defaultName : String) (record : Record) : Except Fault Record := do
  let record := record.withDefaultName defaultName
  let value ← checkSingle record
  Name.check value.text
  return record

/-- A name as it is compared: absolute, and in lower case. -/
def comparable (zone name : String) : String := Text.lower (Name.qualify name zone)

/-- The names in a zone that have an address. -/
def addressNames (name : String) (zone : Zone) : List String :=
  (zone.recordsOf .a).map fun e => comparable name e.2.name

/-- The canonical name records that lead to no address of the zone: identifiers and targets. -/
def dangling (name : String) (zone : Zone) : List (String × String) :=
  (zone.recordsOf .cname).filterMap fun e =>
    match e.2.single? with
    | some value =>
      if (addressNames name zone).contains (comparable name value.text) then none
      else some (e.1, value.text)
    | none => none

/-- Accept a zone in which every canonical name leads to an address. -/
def validateReferences (name : String) (zone : Zone) : Except PluginError Unit :=
  match dangling name zone with
  | [] => .ok ()
  | (identifier, target) :: _ =>
    .error (.rejected ("CNAME " ++ identifier ++ " in zone " ++ name ++ " points at " ++ target
      ++ ", which has no A record in the zone"))

/-- Accept every zone. -/
def validateNothing (_ : String) (_ : Zone) : Except PluginError Unit := .ok ()

/-- Check a start of authority record up to its serial number. -/
def checkAuthority (generating : Bool) (record : Record) : Except Fault Soa := do
  Record.checkClass record.classText
  Name.checkOrOrigin record.name
  match record.data with
  | .single _ => throw (.expectedMulti record.type.tag)
  | .multi values =>
    match Soa.ofValues? values with
    | none => throw (.wrongValueCount (if generating then [6, 7] else [7]) values.length)
    | some soa =>
      if soa.serial.isNone && !generating then throw (.wrongValueCount [7] values.length)
      soa.check generating

/-- Normalize a start of authority record, giving out a serial number if the zone takes them
    from a change index. -/
def normalizeAuthority (timeout : Duration) (config : Config) (zone identifier : String)
    (record : Record) (host : Host) : Except PluginError Record × Host :=
  let record := record.withDefaultName identifier
  match checkAuthority config.generateSerial record with
  | .error fault => (.error (.fault fault), host)
  | .ok soa =>
    if config.generateSerial then
      match Serial.next host.store host.today timeout config.serialDirectory zone with
      | (.error cause, store) => (.error (.serial cause), { host.tick with store := store })
      | (.ok serial, store) =>
        (.ok { record with data := .multi (soa.withSerial serial).toValues },
          { host.tick with store := store })
    else (.ok { record with data := .multi soa.toValues }, host)

/-- Accept a zone with exactly one start of authority record. -/
def validateAuthority (name : String) (zone : Zone) : Except PluginError Unit :=
  match (zone.recordsOf .soa).length with
  | 1 => .ok ()
  | 0 => .error (.rejected ("zone " ++ name ++ " has no SOA record"))
  | n =>
    .error (.rejected ("zone " ++ name ++ " has " ++ Numeral.decimal n
      ++ " SOA records, expected exactly one"))

/-- The plugin for address records. -/
def address {σ : Type} : Plugin σ := .stateless version .a normalizeAddress validateNothing

/-- The plugin for name server records. -/
def nameServer {σ : Type} : Plugin σ :=
  .stateless version .ns (fun _ record => normalizeReference Name.origin record) validateNothing

/-- The plugin for canonical name records. -/
def canonicalName {σ : Type} : Plugin σ :=
  .stateless version .cname normalizeReference validateReferences

/-- The plugin for pointer records. -/
def pointer {σ : Type} : Plugin σ :=
  .stateless version .ptr normalizeReference validateNothing

/-- The plugin for start of authority records. -/
def authority (timeout : Duration) : Plugin Host where
  version := fun host => (.ok version, host)
  types := fun host => (.ok [.soa], host)
  configure := fun _ host => (.ok (), host)
  normalize := normalizeAuthority timeout
  validateZone := fun name zone host => (validateAuthority name zone, host)
  render := fun _ _ record host => (.ok (Layout.record record), host)

/-- The builtin plugins with their types and names. The duration is how long a lock on a
    change index is waited for. -/
def plugins (timeout : Duration) : List (RecordType × String × Plugin Host) :=
  [(.a, "a", address), (.ns, "ns", nameServer), (.cname, "cname", canonicalName),
    (.ptr, "ptr", pointer), (.soa, "soa", authority timeout)]

end Builtin

end DnsZones
