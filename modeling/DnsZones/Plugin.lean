import DnsZones.Channel
import DnsZones.Layout
import DnsZones.Serial.Allocation

/-!
# Plugins

What handles the records of a type.

A plugin prepares for a zone, checks single records and fills in what they leave
out, checks whole zones, and writes records. It may keep state of its own between
calls, or change files, or fail at any time; so each of its operations is a
function on some state that the rest of the program only passes along. Nothing is
assumed about that state, which is why the stages that drive plugins hold for all
of them.

## Main definitions

* `PluginError`: Why a plugin refuses.
* `Metadata`: Where a plugin comes from.
* `Plugin`: The operations.
* `Plugin.stateless`: A plugin that neither reads nor changes the state.
-/

namespace DnsZones

/-- Why a plugin refuses. -/
inductive PluginError where
  /-- In the plugin's own words. -/
  | rejected (message : String)
  /-- The record has a fault. -/
  | fault (cause : Fault)
  /-- There is no serial number. -/
  | serial (cause : SerialError)
  /-- The exchange with the plugin failed. -/
  | transport (cause : TransportError)
  deriving DecidableEq, Repr

namespace PluginError

/-- How an error is reported. -/
def message : PluginError → String
  | rejected message => message
  | fault cause => cause.message
  | serial cause => cause.message
  | transport cause => "plugin transport: " ++ cause.message

end PluginError

/-- Where a plugin comes from. -/
structure Metadata where
  name : String
  /-- How the plugin is run. -/
  command : String
  /-- Whether the plugin is part of the program. -/
  builtIn : Bool
  deriving DecidableEq, Repr, Inhabited

namespace Metadata

/-- The metadata of a plugin that is part of the program. -/
def ofBuiltin (name : String) : Metadata := ⟨name, "Built In", true⟩

/-- The metadata of a plugin that is an executable. -/
def ofExecutable (path : Path) : Metadata := ⟨path.fileName?.getD path.text, path.text, false⟩

/-- A plugin's name and command. -/
def display (metadata : Metadata) : String := metadata.name ++ " (" ++ metadata.command ++ ")"

end Metadata

/-- An operation that may fail, on a state that it may change either way. -/
abbrev Action (σ : Type) (ε : Type) (α : Type) := σ → Except ε α × σ

/-- The operations of a plugin, on a state of type `σ`. -/
structure Plugin (σ : Type) where
  version : Action σ PluginError String
  /-- The record types that the plugin handles. -/
  types : Action σ PluginError (List RecordType)
  /-- Prepare for a zone. -/
  configure : Config → Action σ PluginError Unit
  /-- Check a record of a zone and fill in what it leaves out. The texts are the zone's name
      and the record's identifier. -/
  normalize : Config → String → String → Record → Action σ PluginError Record
  /-- Check a zone whose records are all normalized. The text is the zone's name. -/
  validateZone : String → Zone → Action σ PluginError Unit
  /-- The zone file text of a record; an empty text leaves the record out. The text is the
      record's identifier. -/
  render : Config → String → Record → Action σ PluginError String

namespace Plugin

/-- A plugin for one type that neither reads nor changes the state, and writes records in the
    usual layout. -/
def stateless {σ : Type} (version : String) (type : RecordType)
    (normalize : String → Record → Except Fault Record)
    (validateZone : String → Zone → Except PluginError Unit) : Plugin σ where
  version := fun state => (.ok version, state)
  types := fun state => (.ok [type], state)
  configure := fun _ state => (.ok (), state)
  normalize := fun _ _ identifier record state =>
    match normalize identifier record with
    | .ok normalized => (.ok normalized, state)
    | .error fault => (.error (.fault fault), state)
  validateZone := fun name zone state => (validateZone name zone, state)
  render := fun _ _ record state => (.ok (Layout.record record), state)

end Plugin

end DnsZones
