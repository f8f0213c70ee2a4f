import DnsZones.Options
import DnsZones.Output
import DnsZones.Plugin.Builtin
import DnsZones.Registry.Discovery

/-!
# A Run of the Program

What the program does with its options: read the definition, load the plugins,
generate, write.

A definition that cannot be read and plugins that cannot be loaded end the run
before any zone is looked at. After that every zone is on its own; what goes
wrong is told at the end, and the run counts as failed, but all other zone files
are written.

## Main definitions

* `DefinitionError`: Why there is no definition.
* `Report`: What a run prints and whether it succeeded.
* `Options.run`: A run.
-/

namespace DnsZones

/-- Why there is no definition. -/
inductive DefinitionError where
  /-- The file cannot be read. -/
  | file (cause : SystemError)
  /-- The text is not a definition. -/
  | unreadable
  /-- The definition is empty. -/
  | noZones
  deriving DecidableEq, Repr

namespace DefinitionError

/-- How an error is reported. -/
def message : DefinitionError → String
  | file cause => cause.message
  | unreadable => Json.errorText
  | noZones => "definition contains no zones"

end DefinitionError

/-- The zones that a definition file defines, at least one. -/
def Zones.load (store : Store) (path : Path) : Except DefinitionError Zones :=
  match store.readText path with
  | .error cause => .error (.file cause)
  | .ok text =>
    match Json.readText Zones.ofJson text with
    | .error _ => .error .unreadable
    | .ok zones => if zones.isEmpty then .error .noZones else .ok zones

/-- What a run prints and whether it succeeded. -/
structure Report where
  /-- What is printed about zones that were written. -/
  written : List String := []
  /-- What is printed about anything that went wrong. -/
  failures : List String := []
  deriving DecidableEq, Repr, Inhabited

namespace Report

/-- Whether nothing went wrong. -/
def isSuccess (report : Report) : Bool := report.failures.isEmpty

/-- The report of a run that ended early. -/
def stopped (activity error : String) : Report := { failures := [activity, error] }

/-- What to print about zone files. -/
def ofFiles : List (String × Except ZoneError Path) → Report
  | [] => {}
  | (zone, .ok path) :: rest =>
    let report := ofFiles rest
    { report with
      written := ("Zone '" ++ zone ++ "' written to " ++ path.text) :: report.written }
  | (_, .error error) :: rest =>
    let report := ofFiles rest
    { report with failures := error.message :: report.failures }

end Report

namespace Options

/-- The configuration of zones that have none. -/
def defaults (options : Options) : Config :=
  { generateSerial := options.generateSerial
    generateReverse := options.reverse
    serialDirectory := options.serials
    pluginsDirectory := options.plugins }

/-- Generate zones with the plugins of a registry, and write the zone files. -/
def generate (options : Options) (registry : Registry Host) (zones : Zones) (host : Host) :
    Report × Host :=
  let engine : Engine Host :=
    { registry := registry
      defaults := some options.defaults
      workingDirectory := host.store.workingPath }
  let (generated, host) := engine.generate zones host
  let (files, store) := Output.writeZones host.store options.output generated.texts.entries
  let report := Report.ofFiles files
  ({ report with failures := generated.errors.map (·.message) ++ report.failures },
    { host with store := store })

/-- Run the program. -/
def run (options : Options) (host : Host) : Report × Host :=
  match Zones.load host.store options.definition with
  | .error error =>
    (.stopped ("Error loading zone definition from " ++ options.definition.text ++ ":")
      error.message, host)
  | .ok zones =>
    let (builtin, _) := Registry.adoptEach {} (Builtin.plugins Serial.defaultTimeout)
    match Discovery.load builtin host options.plugins with
    | (.error error, loading) =>
      (.stopped ("Error loading plugins from " ++ options.plugins.text ++ ":") error.message,
        loading.host)
    | (.ok (), loading) => options.generate loading.registry zones loading.host

end Options

end DnsZones
