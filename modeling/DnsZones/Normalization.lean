import DnsZones.Registry
import DnsZones.ZoneError

/-!
# Normalizing Zones

The stages that make a definition ready to be written.

A zone passes through four stages, and the first failure ends it:

1. its configuration is settled: its own, or the one for the whole run,
2. every plugin prepares for the zone, whether or not the zone uses its types,
3. every record is normalized by the plugin for its type, in identifier order,
4. every plugin checks the zone as a whole.

The last stage is given the zone that the third one made, so no plugin ever sees
a zone in which some records are normalized and others are not. Only after it is the
zone replaced by the one that was made: a zone that fails is left as it was.

Of several zones each is taken on its own, in name order. Those that fail drop
out and leave one error each.

## Main definitions

* `Engine`: The plugins, and what holds for the whole run.
* `Engine.resolveConfig`: The first stage.
* `Engine.configureEach`, `Engine.normalizeRecords`, `Engine.validateEach`: The others.
* `Engine.normalizeInPlace`, `Engine.normalizeZone`: All four for one zone.
* `Engine.normalize`: The same for many zones.
-/

namespace DnsZones

/-- The plugins, and what holds for the whole run. -/
structure Engine (σ : Type) where
  registry : Registry σ
  /-- The configuration of zones that have none. -/
  defaults : Option Config := none
  /-- Where relative directories start. -/
  workingDirectory : Path

/-- Zones that passed a stage, and what stopped the others. -/
structure Outcome where
  /-- The zones that passed. -/
  zones : Zones := Table.empty
  /-- One error for each of the others, in name order. -/
  errors : List ZoneError := []

namespace Engine

variable {σ : Type}

/-- The configuration under which a zone is handled. -/
def resolveConfig (engine : Engine σ) (own : Option Config) : Except ZoneError.Cause Config :=
  match own.or engine.defaults with
  | none => .error .missingConfig
  | some config =>
    match config.absolute engine.workingDirectory with
    | some config => .ok config
    | none => .error (.invalidConfig .emptyPath)

/-- Have plugins prepare for a zone, up to the first that fails. -/
def configureEach (config : Config) : List (Registered σ) → Action σ ZoneError.Cause Unit
  | [], state => (.ok (), state)
  | entry :: rest, state =>
    match entry.plugin.configure config state with
    | (.error cause, state) => (.error (.configure entry.metadata.name cause), state)
    | (.ok (), state) => configureEach config rest state

/-- Have records normalized, each by the plugin for its type, up to the first failure. -/
def normalizeRecords (engine : Engine σ) (config : Config) (name : String) :
    List (String × Record) → Action σ ZoneError.Cause (Table String Record)
  | [], state => (.ok Table.empty, state)
  | (identifier, record) :: rest, state =>
    match engine.registry.lookup record.type with
    | none => (.error (.noPlugin identifier record.type), state)
    | some plugin =>
      match plugin.normalize config name identifier record state with
      | (.error cause, state) => (.error (.normalize identifier cause), state)
      | (.ok normalized, state) =>
        match normalizeRecords engine config name rest state with
        | (.error cause, state) => (.error cause, state)
        | (.ok records, state) => (.ok (records.insert identifier normalized), state)

/-- Have plugins check a whole zone, up to the first that does not accept it. -/
def validateEach (name : String) (zone : Zone) :
    List (Registered σ) → Action σ ZoneError.Cause Unit
  | [], state => (.ok (), state)
  | entry :: rest, state =>
    match entry.plugin.validateZone name zone state with
    | (.error cause, state) => (.error (.validate entry.metadata.name cause), state)
    | (.ok (), state) => validateEach name zone rest state

/-- Take one zone whose configuration is settled through the stages. -/
def normalizeUnder (engine : Engine σ) (config : Config) (name : String) (zone : Zone) :
    Action σ ZoneError.Cause Zone := fun state =>
  match configureEach config engine.registry.plugins state with
  | (.error cause, state) => (.error cause, state)
  | (.ok (), state) =>
    match engine.normalizeRecords config name zone.records.entries state with
    | (.error cause, state) => (.error cause, state)
    | (.ok records, state) =>
      let normalized : Zone := { config := some config, records := records, ttl := zone.ttl }
      match validateEach name normalized engine.registry.plugins state with
      | (.error cause, state) => (.error cause, state)
      | (.ok (), state) => (.ok normalized, state)

/-- Normalize and validate a zone in place. It is replaced once every plugin has accepted what came
    out of it, and then carries the settled configuration. -/
def normalizeInPlace (engine : Engine σ) (name : String) :
    Action (Zone × σ) ZoneError Unit := fun (zone, state) =>
  match engine.resolveConfig zone.config with
  | .error cause => (.error ⟨name, cause⟩, zone, state)
  | .ok config =>
    match engine.normalizeUnder config name zone state with
    | (.error cause, state) => (.error ⟨name, cause⟩, zone, state)
    | (.ok normalized, state) => (.ok (), normalized, state)

/-- Normalize and validate one zone, and take what stands in its place. -/
def normalizeZone (engine : Engine σ) (name : String) (zone : Zone) :
    Action σ ZoneError Zone := fun state =>
  match engine.normalizeInPlace name (zone, state) with
  | (.error error, _, state) => (.error error, state)
  | (.ok (), normalized, state) => (.ok normalized, state)

/-- Normalize zones in order. -/
def normalizeEach (engine : Engine σ) : List (String × Zone) → σ → Outcome × σ
  | [], state => ({}, state)
  | (name, zone) :: rest, state =>
    match engine.normalizeZone name zone state with
    | (.error error, state) =>
      let (outcome, state) := normalizeEach engine rest state
      ({ outcome with errors := error :: outcome.errors }, state)
    | (.ok normalized, state) =>
      let (outcome, state) := normalizeEach engine rest state
      ({ outcome with zones := outcome.zones.insert name normalized }, state)

/-- Normalize every zone; those that fail drop out. -/
def normalize (engine : Engine σ) (zones : Zones) (state : σ) : Outcome × σ :=
  engine.normalizeEach zones.entries state

end Engine

/-- What to log about a normalization: every zone that failed. -/
def Outcome.notices (outcome : Outcome) : List Notice :=
  outcome.errors.map fun _ => .normalizationFailed

end DnsZones
