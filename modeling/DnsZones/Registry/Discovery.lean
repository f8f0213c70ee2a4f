import DnsZones.Plugin.External
import DnsZones.Registry

/-!
# Finding External Plugins

The executables in a directory, started and registered.

Every regular file in the plugin directory that may be run is a plugin; links to
such files count, directories are passed over, and nothing below them is looked
at. Plugins are started in the order of their file names, so that which of two
plugins handles a type does not depend on how the system lists the directory. The
first plugin that cannot be started, does not agree on the version, or does not
tell its types ends the whole loading; those before it stay registered.

## Main definitions

* `LoadError`: Why plugins cannot be loaded.
* `Discovery.select`, `Discovery.candidates`: The plugins in a directory.
* `Discovery.loadListed`, `Discovery.load`: The plugins started and registered.
-/

namespace DnsZones

/-- Why plugins cannot be loaded. -/
inductive LoadError where
  /-- The directory cannot be read. -/
  | discover (path : Path) (cause : SystemError)
  /-- A plugin cannot be started. -/
  | spawn (path : Path) (cause : SystemError)
  /-- A plugin does not agree on the version. -/
  | handshake (path : Path) (cause : TransportError)
  /-- A plugin does not tell its types. -/
  | types (path : Path) (cause : PluginError)
  deriving DecidableEq, Repr

namespace LoadError

/-- How an error is reported. -/
def message : LoadError → String
  | discover path cause => "reading plugin directory " ++ path.text ++ ": " ++ cause.message
  | spawn path cause => "starting plugin " ++ path.text ++ ": " ++ cause.message
  | handshake path cause => "plugin " ++ path.text ++ " handshake failed: " ++ cause.message
  | types path cause =>
    "plugin " ++ path.text ++ " did not report its types: " ++ cause.message

end LoadError

namespace Discovery

/-- The plugins among the names in a directory, as they are listed. -/
def examine (store : Store) (directory : Path) :
    List String → Except LoadError (List String) × List Notice
  | [] => (.ok [], [])
  | name :: names =>
    match store.status (directory.join name) with
    | .error cause => (.error (.discover directory cause), [])
    | .ok (_, entry) =>
      let (found, notices) := examine store directory names
      match entry with
      | .directory => (found, .directorySkipped :: notices)
      | .file file => (if file.executable then found.map (name :: ·) else found, notices)
      | .link _ => (found, notices)

/-- Whether a name comes before another or is the same. -/
def notAfter (a b : String) : Bool := (KeyOrder.cmp a b).isLE

/-- The plugins among the names that reading a directory gave, in the order of their names. A
    directory that is missing has none. -/
def select (store : Store) (directory : Path) (listing : Except SystemError (List String)) :
    Except LoadError (List Path) × List Notice :=
  match listing with
  | .error .notFound => (.ok [], [])
  | .error cause => (.error (.discover directory cause), [])
  | .ok names =>
    let (found, notices) := examine store directory names
    (found.map fun names => (names.mergeSort notAfter).map directory.join, notices)

/-- The names in a directory. -/
def listing (store : Store) (directory : Path) : Except SystemError (List String) :=
  (store.list directory).map fun entries => entries.map (·.1)

/-- The plugins in a directory in the order of their names. -/
def candidates (store : Store) (directory : Path) : Except LoadError (List Path) × List Notice :=
  select store directory (listing store directory)

/-- The state of loading: the registry, the host and what was logged so far. -/
structure Loading where
  /-- The plugins registered so far. -/
  registry : Registry Host
  /-- The host with the programs started so far. -/
  host : Host
  /-- What was logged so far. -/
  notices : List Notice := []

/-- Start one plugin and register it for the types that it handles. -/
def loadOne (loading : Loading) (path : Path) : Except LoadError Unit × Loading :=
  match loading.host.spawn path with
  | .error cause => (.error (.spawn path cause), loading)
  | .ok (index, host) =>
    match host.handshake index with
    | (.error cause, host) => (.error (.handshake path cause), { loading with host := host })
    | (.ok version, host) =>
      let plugin := External.plugin index version
      match plugin.types host with
      | (.error cause, host) => (.error (.types path cause), { loading with host := host })
      | (.ok types, host) =>
        let (registry, notices) := loading.registry.adopt (.ofExecutable path) plugin types
        let all := if types.isEmpty then .noTypes :: notices else notices
        (.ok (), { registry := registry, host := host, notices := loading.notices ++ all })

/-- Start plugins in order, up to the first that fails. -/
def loadEach (loading : Loading) : List Path → Except LoadError Unit × Loading
  | [] => (.ok (), loading)
  | path :: paths =>
    match loadOne loading path with
    | (.error error, after) => (.error error, after)
    | (.ok (), after) => loadEach after paths

/-- Start every plugin among the names that reading a directory gave, and register it. -/
def loadListed (registry : Registry Host) (host : Host) (directory : Path)
    (listing : Except SystemError (List String)) : Except LoadError Unit × Loading :=
  match select host.store directory listing with
  | (.error error, notices) => (.error error, ⟨registry, host, notices⟩)
  | (.ok paths, notices) => loadEach ⟨registry, host, notices⟩ paths

/-- Start every plugin in a directory and register it. -/
def load (registry : Registry Host) (host : Host) (directory : Path) :
    Except LoadError Unit × Loading :=
  loadListed registry host directory (listing host.store directory)

end Discovery

end DnsZones
