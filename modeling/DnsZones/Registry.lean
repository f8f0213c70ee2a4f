import DnsZones.Notice
import DnsZones.Plugin

/-!
# The Plugin Registry

Which plugin handles which record type.

A registry maps each type to one plugin. A plugin may be registered for several
types, and a later registration for a type replaces the earlier one. Plugins are
told apart by the identity that a registry gives to each plugin when it first
comes in, not by name: two plugins of one name are still two.

## Main definitions

* `Registered`: A plugin in a registry.
* `Registry`: The registry.
* `Registry.register`: One plugin for one type.
* `Registry.adopt`: A new plugin for some types.
* `Registry.lookup`: The plugin for a type.
* `Registry.plugins`: Every plugin once.
-/

namespace DnsZones

/-- A plugin in a registry. -/
structure Registered (σ : Type) where
  /-- Where the plugin comes from. -/
  metadata : Metadata
  /-- What tells the plugin from all others in the registry. -/
  identity : Nat
  plugin : Plugin σ

/-- The plugins by type. -/
structure Registry (σ : Type) where
  /-- The plugin for each type. -/
  entries : Table RecordType (Registered σ) := Table.empty
  /-- The identity that the next plugin gets. -/
  nextIdentity : Nat := 0

namespace Registry

variable {σ : Type}

instance : Inhabited (Registry σ) := ⟨{}⟩

/-- What to say when a plugin takes a type from another one. -/
def replacing (previous : Option (Registered σ)) (entry : Registered σ) : List Notice :=
  match previous with
  | none => []
  | some previous =>
    if previous.identity = entry.identity then []
    else if previous.metadata.builtIn then [.overridesBuiltin]
    else [.overridesExternal]

/-- Register a plugin for a type. -/
def register (registry : Registry σ) (type : RecordType) (entry : Registered σ) :
    Registry σ × List Notice :=
  ({ registry with entries := registry.entries.insert type entry },
    replacing (registry.entries.get? type) entry)

/-- Register a plugin for some types, in order. -/
def registerAll (registry : Registry σ) (entry : Registered σ) :
    List RecordType → Registry σ × List Notice
  | [] => (registry, [])
  | type :: types =>
    let (registry, notices) := registry.register type entry
    let (registry, later) := registry.registerAll entry types
    (registry, notices ++ later)

/-- Take in a new plugin and register it for some types. -/
def adopt (registry : Registry σ) (metadata : Metadata) (plugin : Plugin σ)
    (types : List RecordType) : Registry σ × List Notice :=
  { registry with nextIdentity := registry.nextIdentity + 1 }.registerAll
    ⟨metadata, registry.nextIdentity, plugin⟩ types

/-- Take in new plugins, each for one type. -/
def adoptEach (registry : Registry σ) :
    List (RecordType × String × Plugin σ) → Registry σ × List Notice
  | [] => (registry, [])
  | (type, name, plugin) :: rest =>
    let (registry, notices) := registry.adopt (.ofBuiltin name) plugin [type]
    let (registry, later) := registry.adoptEach rest
    (registry, notices ++ later)

/-- The plugin for a type, with its metadata. -/
def entry? (registry : Registry σ) (type : RecordType) : Option (Registered σ) :=
  registry.entries.get? type

/-- The plugin for a type. -/
def lookup (registry : Registry σ) (type : RecordType) : Option (Plugin σ) :=
  (registry.entry? type).map (·.plugin)

/-- The plugins of a list that have none of the given identities, each once. -/
def distinct (seen : List Nat) : List (Registered σ) → List (Registered σ)
  | [] => []
  | entry :: rest =>
    if seen.contains entry.identity then distinct seen rest
    else entry :: distinct (entry.identity :: seen) rest

/-- Every plugin once, ordered by the first type that it has. -/
def plugins (registry : Registry σ) : List (Registered σ) := distinct [] registry.entries.values

end Registry

end DnsZones
