import DnsZones.Plugin

/-!
# Errors of a Zone

Why one zone is not generated.

An error names the zone it stops and says at which stage it came up; what goes
wrong with a single record names the record's identifier too. A plugin's own
words are passed on unchanged. No error concerns two zones, which is why a run
can report one zone and go on with the next.

## Main definitions

* `ReverseError`: Why reverse zones cannot be derived.
* `ZoneError.Cause`: Why a zone is not generated.
* `ZoneError`: The cause together with the zone.
* `ZoneError.message`: How an error is reported.
-/

namespace DnsZones

/-- Why no reverse zones can be derived from a zone. -/
inductive ReverseError where
  /-- An address record holds a list of values. -/
  | severalValues (identifier : String)
  /-- The value of an address record is no IPv4 address. -/
  | fault (identifier : String) (cause : Fault)
  /-- There are address records and no start of authority to copy. -/
  | noAuthority
  deriving DecidableEq, Repr

namespace ReverseError

/-- How an error is reported. -/
def message : ReverseError → String
  | severalValues identifier => "A record " ++ identifier ++ " does not have a single value"
  | fault identifier cause => "A record " ++ identifier ++ ": " ++ cause.message
  | noAuthority => "zone has no SOA record to copy"

end ReverseError

/-- Why a zone is not generated. -/
inductive ZoneError.Cause where
  /-- Neither the zone nor the run has a configuration. -/
  | missingConfig
  /-- The configuration cannot be used. -/
  | invalidConfig (cause : SystemError)
  /-- No plugin handles the type of a record. -/
  | noPlugin (identifier : String) (type : RecordType)
  /-- A plugin cannot prepare for the zone. -/
  | configure (plugin : String) (cause : PluginError)
  /-- A record cannot be normalized. -/
  | normalize (identifier : String) (cause : PluginError)
  /-- A plugin does not accept the zone as a whole. -/
  | validate (plugin : String) (cause : PluginError)
  /-- A record cannot be written. -/
  | render (identifier : String) (cause : PluginError)
  /-- Its reverse zones cannot be derived. -/
  | reverse (cause : ReverseError)
  /-- Its file cannot be put in place. -/
  | write (path : Path) (cause : SystemError)
  deriving DecidableEq

/-- What stops one zone. -/
structure ZoneError where
  zone : String
  /-- What is wrong. -/
  cause : ZoneError.Cause
  deriving DecidableEq

namespace ZoneError

/-- How an error is reported. -/
def message (error : ZoneError) : String :=
  match error.cause with
  | .missingConfig => "zone " ++ error.zone ++ " missing config"
  | .invalidConfig cause =>
    "zone " ++ error.zone ++ " has an invalid config: " ++ cause.message
  | .noPlugin identifier type =>
    "no plugin for resource record type " ++ type.tag ++ " (zone " ++ error.zone ++ ", record "
      ++ identifier ++ ")"
  | .configure plugin cause =>
    "configuring plugin " ++ plugin ++ " for zone " ++ error.zone ++ ": " ++ cause.message
  | .normalize identifier cause =>
    "normalizing record " ++ identifier ++ " in zone " ++ error.zone ++ ": " ++ cause.message
  | .validate plugin cause =>
    "validating zone " ++ error.zone ++ " with plugin " ++ plugin ++ ": " ++ cause.message
  | .render identifier cause =>
    "rendering record " ++ identifier ++ " in zone " ++ error.zone ++ ": " ++ cause.message
  | .reverse cause => "deriving reverse zones from " ++ error.zone ++ ": " ++ cause.message
  | .write path cause =>
    "writing zone " ++ error.zone ++ " to " ++ path.text ++ ": " ++ cause.message

end ZoneError

end DnsZones
