import DnsZones.Definition

/-!
# Messages Between Host and Plugin

What the host asks an external plugin, and what the plugin answers.

Each message is one JSON object with a tag among its members: `method` in a
request, `result` in a response. The tag may stand anywhere in the object, and
decides what the other members mean; so the whole message is held before it is
read, and everything in it has to be sound, even in members that nobody asks for.
A message may also be an array that begins with the tag.

## Main definitions

* `Request`, `Response`: The messages.
* `Request.method`, `Response.kind`: Their tags.
* `Request.toJson`, `Response.toJson`: Writing.
* `Request.ofJson`, `Response.ofJson`: Reading.
-/

namespace DnsZones

open Json

/-- From the host to a plugin. -/
inductive Request where
  /-- Which version of the protocol do you speak? -/
  | version
  /-- Which record types do you handle? -/
  | types
  /-- Prepare for a zone with this configuration. -/
  | configure (config : Config)
  /-- Check one record and fill in what is missing. -/
  | normalize (zone identifier : String) (record : Record)
  /-- Check a zone whose records are all normalized. -/
  | validateZone (name : String) (zone : Zone)
  /-- Give the zone file text of one record. -/
  | render (identifier : String) (record : Record)
  deriving DecidableEq

/-- From a plugin to the host. -/
inductive Response where
  /-- The version of the protocol, and the plugin's own. -/
  | version (protocol : UInt32) (version : String)
  /-- The record types that the plugin handles. -/
  | types (types : List RecordType)
  | configured
  | normalized (record : Record)
  /-- The zone is in order. -/
  | validated
  /-- The text of the record. -/
  | rendered (text : String)
  /-- The plugin refuses. -/
  | error (message : String)
  deriving DecidableEq

namespace Message

/-- How deep a message may be nested. -/
def maxDepth : Nat := 127

/-- Split the members of an object into the value of its tag and the others. -/
def splitTag (tag : String) : List (Literal × Json) → Reading (Option Json × List (Literal × Json))
  | [] => .ok (none, [])
  | (name, json) :: rest =>
    match splitTag tag rest with
    | .error e => .error e
    | .ok (found, others) =>
      if name = some tag then
        if found.isSome then .error .malformed else .ok (some json, others)
      else .ok (found, (name, json) :: others)

/-- The tag of a message, and the message without it. -/
def tagged (tag : String) (json : Json) : Reading (String × Json) :=
  if json.isPlain maxDepth then
    match json with
    | .object members =>
      match splitTag tag members with
      | .error e => .error e
      | .ok (none, _) => .error .malformed
      | .ok (some value, others) => (asText value).map fun text => (text, .object others)
    | .array (value :: items) => (asText value).map fun text => (text, .array items)
    | _ => .error .malformed
  else .error .malformed

/-- Read a message that is nothing but its tag. In an object other members do not count, in
    an array there must be no more items. -/
def asNothing : Json → Reading Unit
  | .array (_ :: _) => .error .malformed
  | _ => .ok ()

/-- Read the body of a message that has one field. -/
def asField {α : Type} (name : String) (read : Json → Reading α) (json : Json) : Reading α := do
  let members ← members [name] json
  let found ← readMembers (fun known field json =>
    if field = name then once known read json else .ok known) none members
  required found

end Message

namespace Request

/-- The tag of a request. -/
def method : Request → String
  | .version => "version"
  | .types => "types"
  | .configure _ => "configure"
  | .normalize .. => "normalize"
  | .validateZone .. => "validate_zone"
  | .render .. => "render"

/-- The members beside the tag. -/
def body : Request → List (Literal × Json)
  | .version | .types => []
  | .configure config => [(some "config", config.toJson)]
  | .normalize zone identifier record =>
    [(some "zone", .text zone), (some "identifier", .text identifier),
      (some "record", record.toJson)]
  | .validateZone name zone => [(some "name", .text name), (some "zone", zone.toJson)]
  | .render identifier record =>
    [(some "identifier", .text identifier), (some "record", record.toJson)]

/-- Write a request. -/
def toJson (request : Request) : Json :=
  .object ((some "method", .text request.method) :: request.body)

/-- The fields of a request about a record while it is read. -/
structure RecordFields where
  zone : Option String := none
  identifier : Option String := none
  record : Option Record := none

/-- Take one field of a request about a record of a zone. -/
def RecordFields.take (known : RecordFields) (name : String) (json : Json) :
    Reading RecordFields :=
  match name with
  | "zone" => (once known.zone asText json).map fun x => { known with zone := x }
  | "identifier" => (once known.identifier asText json).map fun x => { known with identifier := x }
  | "record" => (once known.record Record.ofJson json).map fun x => { known with record := x }
  | _ => .ok known

/-- Take one field of a request about a record alone. -/
def RecordFields.takeZoneless (known : RecordFields) (name : String) (json : Json) :
    Reading RecordFields :=
  if name = "zone" then .ok known else known.take name json

/-- Read the body of a request to normalize a record. -/
def normalizeOfJson (json : Json) : Reading Request := do
  let members ← members ["zone", "identifier", "record"] json
  let fields ← readMembers RecordFields.take {} members
  return .normalize (← required fields.zone) (← required fields.identifier)
    (← required fields.record)

/-- Read the body of a request to render a record. -/
def renderOfJson (json : Json) : Reading Request := do
  let members ← members ["identifier", "record"] json
  let fields ← readMembers RecordFields.takeZoneless {} members
  return .render (← required fields.identifier) (← required fields.record)

/-- The fields of a request about a zone while it is read. -/
structure ZoneFields where
  name : Option String := none
  zone : Option Zone := none

/-- Take one field of a request about a zone. -/
def ZoneFields.take (known : ZoneFields) (name : String) (json : Json) : Reading ZoneFields :=
  match name with
  | "name" => (once known.name asText json).map fun x => { known with name := x }
  | "zone" => (once known.zone Zone.ofJson json).map fun x => { known with zone := x }
  | _ => .ok known

/-- Read the body of a request to validate a zone. -/
def validateZoneOfJson (json : Json) : Reading Request := do
  let members ← members ["name", "zone"] json
  let fields ← readMembers ZoneFields.take {} members
  return .validateZone (← required fields.name) (← required fields.zone)

/-- Read a request. -/
def ofJson (json : Json) : Reading Request := do
  let (tag, body) ← Message.tagged "method" json
  match tag with
  | "version" => (Message.asNothing body).map fun _ => .version
  | "types" => (Message.asNothing body).map fun _ => .types
  | "configure" => (Message.asField "config" Config.ofJson body).map .configure
  | "normalize" => normalizeOfJson body
  | "validate_zone" => validateZoneOfJson body
  | "render" => renderOfJson body
  | _ => .error .malformed

end Request

namespace Response

/-- The tag of a response. -/
def kind : Response → String
  | .version .. => "version"
  | .types _ => "types"
  | .configured => "configured"
  | .normalized _ => "normalized"
  | .validated => "validated"
  | .rendered _ => "rendered"
  | .error _ => "error"

/-- The members beside the tag. -/
def body : Response → List (Literal × Json)
  | .version protocol text =>
    [(some "protocol", .natural protocol.toNat), (some "version", .text text)]
  | .types handled => [(some "types", .array (handled.map RecordType.toJson))]
  | .normalized record => [(some "record", record.toJson)]
  | .rendered text => [(some "text", .text text)]
  | .error message => [(some "message", .text message)]
  | .configured | .validated => []

/-- Write a response. -/
def toJson (response : Response) : Json :=
  .object ((some "result", .text response.kind) :: response.body)

/-- The fields of an answer about versions while it is read. -/
structure VersionFields where
  protocol : Option UInt32 := none
  version : Option String := none

/-- Take one field of an answer about versions. -/
def VersionFields.take (known : VersionFields) (name : String) (json : Json) :
    Reading VersionFields :=
  match name with
  | "protocol" => (once known.protocol asWord json).map fun x => { known with protocol := x }
  | "version" => (once known.version asText json).map fun x => { known with version := x }
  | _ => .ok known

/-- Read the body of an answer about versions. -/
def versionOfJson (json : Json) : Reading Response := do
  let members ← members ["protocol", "version"] json
  let fields ← readMembers VersionFields.take {} members
  return .version (← required fields.protocol) (← required fields.version)

/-- Read a response. -/
def ofJson (json : Json) : Reading Response := do
  let (tag, body) ← Message.tagged "result" json
  match tag with
  | "version" => versionOfJson body
  | "types" => (Message.asField "types" (asList RecordType.ofJson) body).map .types
  | "configured" => (Message.asNothing body).map fun _ => .configured
  | "normalized" => (Message.asField "record" Record.ofJson body).map .normalized
  | "validated" => (Message.asNothing body).map fun _ => .validated
  | "rendered" => (Message.asField "text" asText body).map .rendered
  | "error" => (Message.asField "message" asText body).map .error
  | _ => .error .malformed

end Response

end DnsZones
