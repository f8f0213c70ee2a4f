/-!
# Notices

What the program logs beside its result.

A notice tells of something that does not stop the run, or repeats briefly what
did. Each has a level and one line of text.

## Main definitions

* `Notice`: The notices.
* `Notice.level`, `Notice.text`: How a notice is logged.
-/

namespace DnsZones

/-- How important a notice is. -/
inductive Level where
  | info
  /-- Probably not what was meant. -/
  | warning
  deriving DecidableEq, Repr

/-- Something worth logging. -/
inductive Notice where
  /-- A plugin takes over a type from a builtin one. -/
  | overridesBuiltin
  /-- A plugin takes over a type from another external one. -/
  | overridesExternal
  /-- A plugin handles no type. -/
  | noTypes
  /-- There is a directory among the plugins. -/
  | directorySkipped
  /-- A zone failed before it could be rendered. -/
  | normalizationFailed
  /-- A zone's reverse zones could not be derived. -/
  | notDerived
  /-- A reverse zone is given, so it is not derived. -/
  | reverseGiven
  /-- Two zones derive a record under one identifier. -/
  | duplicateIdentifier
  /-- A zone could not be rendered. -/
  | renderingFailed
  deriving DecidableEq, Repr

namespace Notice

/-- The level at which a notice is logged. -/
def level : Notice → Level
  | overridesBuiltin | directorySkipped => .info
  | _ => .warning

/-- The text of a notice. -/
def text : Notice → String
  | overridesBuiltin => "plugin overrides builtin"
  | overridesExternal => "plugin overrides another external plugin, plugin set is ambiguous"
  | noTypes => "plugin declares no record types"
  | directorySkipped => "skipping directory in plugin directory"
  | normalizationFailed => "zone failed normalization"
  | notDerived => "reverse zones not derived"
  | reverseGiven => "reverse zone is defined explicitly, not deriving it"
  | duplicateIdentifier => "duplicate record identifier in reverse zone, keeping the first"
  | renderingFailed => "zone failed to render"

end Notice

end DnsZones
