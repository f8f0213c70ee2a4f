import DnsZones.Path

/-!
# Zone Configuration

How a zone is to be generated.

A zone may carry a configuration of its own; one that does not takes the
defaults of the run.

## Main definitions

* `Config`: The settings.
* `Config.same`: Whether two configurations ask for the same, paths compared by
  their components.
* `Config.absolute`: A configuration whose serial directory does not depend on
  the working directory.
-/

namespace DnsZones

/-- The settings under which a zone is normalized and rendered. -/
structure Config where
  /-- Take serial numbers from the change index on disk. -/
  generateSerial : Bool := false
  /-- Derive reverse lookup zones from the zone's address records. -/
  generateReverse : Bool := false
  /-- The directory that holds one change index for each zone. -/
  serialDirectory : Path := ⟨"serials"⟩
  /-- The directory that holds external plugins. -/
  pluginsDirectory : Path := ⟨"plugins"⟩
  deriving DecidableEq, Repr, Inhabited

namespace Config

/-- Whether two configurations are the same, paths compared by their components. -/
def same (a b : Config) : Bool :=
  a.generateSerial == b.generateSerial && a.generateReverse == b.generateReverse
    && a.serialDirectory.same b.serialDirectory && a.pluginsDirectory.same b.pluginsDirectory

/-- A configuration whose serial directory is absolute. There is none if the directory is
    the empty path, which is below no directory. -/
def absolute (workingDirectory : Path) (config : Config) : Option Config :=
  if config.serialDirectory.text.isEmpty then none
  else
    some { config with
      serialDirectory := config.serialDirectory.absolute workingDirectory }

end Config

end DnsZones
