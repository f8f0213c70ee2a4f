import DnsZones.Host

/-!
# Recording Plugins

Plugins for trying out the rest of the program.

A recording plugin notes every question in the host's journal and otherwise does
what it was told beforehand: refuse, give a certain record or text, or behave like
a plugin that has nothing to say about its records.

## Main definitions

* `Recorder`: What the plugin was told.
* `Recorder.plugin`: The plugin.
-/

namespace DnsZones

/-- What a recording plugin does. -/
structure Recorder where
  /-- The name under which it notes questions. -/
  name : String
  /-- The types that it handles. -/
  types : List RecordType
  /-- The refusal to be configured. -/
  configureError : Option String := none
  /-- The refusal to normalize. -/
  normalizeError : Option String := none
  /-- The refusal to validate. -/
  validateError : Option String := none
  /-- The refusal to render. -/
  renderError : Option String := none
  /-- The record to give for every record, if it could be read. -/
  replacement : Option (Option Record) := none
  /-- The text to give for every record. -/
  renderText : Option String := none

namespace Recorder

/-- A refusal, or else a result. -/
def unlessRefused {α : Type} (refusal : Option String) (result : Except PluginError α) :
    Except PluginError α :=
  match refusal with
  | some message => .error (.rejected message)
  | none => result

/-- How many named records of the plugin's types a zone has. -/
def namedRecords (recorder : Recorder) (zone : Zone) : Nat :=
  recorder.types.foldl (fun count type =>
    count + ((zone.recordsOf type).filter fun e => !e.2.name.isEmpty).length) 0

/-- The record that the plugin gives for a record. -/
def normalized (recorder : Recorder) (identifier : String) (record : Record) :
    Except PluginError Record :=
  match recorder.replacement with
  | none => .ok (record.withDefaultName identifier)
  | some (some replacement) => .ok replacement
  | some none => .error (.rejected "bad replacement")

/-- The plugin. -/
def plugin (recorder : Recorder) : Plugin Host where
  version := fun host => (.ok "stub", host)
  types := fun host => (.ok recorder.types, host)
  configure := fun config host =>
    (unlessRefused recorder.configureError (.ok ()),
      host.note recorder.name (.array [.text "configure", config.toJson]))
  normalize := fun config zone identifier record host =>
    (unlessRefused recorder.normalizeError (recorder.normalized identifier record),
      host.note recorder.name (.array [.text "normalize", .bool config.generateSerial, .text zone,
        .text identifier]))
  validateZone := fun name zone host =>
    (unlessRefused recorder.validateError (.ok ()),
      host.note recorder.name (.array [.text "validate_zone", .text name,
        .natural (recorder.namedRecords zone)]))
  render := fun config identifier record host =>
    (unlessRefused recorder.renderError
        (.ok (recorder.renderText.getD (Layout.record record))),
      host.note recorder.name (.array [.text "render", .bool config.generateSerial,
        .text identifier]))

end Recorder

end DnsZones
