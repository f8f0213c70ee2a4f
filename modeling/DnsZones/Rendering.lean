import DnsZones.Normalization

/-!
# Rendering Zones

The text of a zone file.

A zone file begins with the zone's name and, if it has one, its default time to
live. The records follow in identifier order, each as its type's plugin writes
it; a plugin leaves a record out by writing nothing.

A zone may be rendered without having been normalized in the same run, so the
configuration is settled and the plugins are prepared once more.

## Main definitions

* `Engine.heading`: The lines before the records.
* `Engine.renderRecords`: The records' text.
* `Engine.render`: The text of a zone file.
-/

namespace DnsZones

namespace Engine

variable {σ : Type}

/-- The lines before the records. -/
def heading (name : String) (zone : Zone) : String :=
  "$ORIGIN " ++ name ++ "\n"
    ++ (match zone.ttl.bind Layout.ttlDirective with
        | some line => line ++ "\n"
        | none => "")

/-- A record's text in a zone file. An empty text takes no line. -/
def entry (text : String) : String := if text.isEmpty then "" else text ++ "\n"

/-- The text of records, each as the plugin for its type writes it, after other text. -/
def renderRecords (engine : Engine σ) (config : Config) (before : String) :
    List (String × Record) → Action σ ZoneError.Cause String
  | [], state => (.ok before, state)
  | (identifier, record) :: rest, state =>
    match engine.registry.lookup record.type with
    | none => (.error (.noPlugin identifier record.type), state)
    | some plugin =>
      match plugin.render config identifier record state with
      | (.error cause, state) => (.error (.render identifier cause), state)
      | (.ok text, state) => renderRecords engine config (before ++ entry text) rest state

/-- The text of a zone whose configuration is settled. -/
def renderUnder (engine : Engine σ) (config : Config) (name : String) (zone : Zone) :
    Action σ ZoneError.Cause String := fun state =>
  match configureEach config engine.registry.plugins state with
  | (.error cause, state) => (.error cause, state)
  | (.ok (), state) =>
    engine.renderRecords config (heading name zone) zone.records.entries state

/-- The text of a zone file. -/
def render (engine : Engine σ) (name : String) (zone : Zone) :
    Action σ ZoneError String := fun state =>
  match engine.resolveConfig zone.config with
  | .error cause => (.error ⟨name, cause⟩, state)
  | .ok config =>
    match engine.renderUnder config name zone state with
    | (.error cause, state) => (.error ⟨name, cause⟩, state)
    | (.ok text, state) => (.ok text, state)

end Engine

end DnsZones
