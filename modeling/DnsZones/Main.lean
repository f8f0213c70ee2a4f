import DnsZones.Run
import Std.Time.Zoned

/-!
# The Program

The command line around a run.

A run is a function of the host it starts on, so this module does three things: it
looks at the files that a run may ask for, lets the run happen, and makes the
changes that came out of it. It decides nothing else.

A run may ask for the definition and for what is in the directories of plugins,
change indexes and zone files; directories of change indexes that single zones
name are looked at too. The system does not tell here who may run a file, so a
file counts as executable if it begins like a script or like compiled code. Other
programs are not started from here: an external plugin is one that ends at once.

## Main definitions

* `Snapshot.take`: The files that a run may ask for.
* `Snapshot.apply`: The changes that a run made.
* `main`: The program.
-/

namespace DnsZones

namespace Snapshot

/-- The location that a path denotes below a directory, links not regarded. -/
def locate (here : Location) (path : Path) : Location :=
  path.components.foldl (fun location step =>
    match step with
    | .root => []
    | .current => location
    | .parent => location.dropLast
    | .entry name => location ++ [name]) here

/-- The text of a location. -/
def textOf (location : Location) : String := "/" ++ "/".intercalate location

/-- Whether a file begins as a script does. -/
def looksScript (content : ByteArray) : Bool := (content.extract 0 2).toList == [35, 33]

/-- Whether a file begins as compiled code does. -/
def looksCompiled (content : ByteArray) : Bool :=
  (content.extract 0 4).toList == [127, 69, 76, 70]

/-- What is at a location. -/
def look (location : Location) : IO (Option Entry) := do
  try
    let root ← IO.FS.realPath (textOf location)
    if ← root.isDir then return some .directory
    unless ← root.pathExists do return none
    let content ← IO.FS.readBinFile root
    let compiled := looksCompiled content
    return some (.file {
      content := content
      executable := compiled || looksScript content
      program := if compiled then some .mute else none })
  catch _ => return none

/-- Take in what is at a location. -/
def add (store : Store) (location : Location) : IO Store := do
  match ← look location with
  | some entry => return if location.isEmpty then store else store.put location entry
  | none => return store

/-- Take in a location and all above it. -/
def addWithParents (store : Store) (location : Location) : IO Store :=
  (List.range (location.length + 1)).foldlM (fun store n => add store (location.take n)) store

/-- Take in a directory and what is directly inside. -/
def addDirectory (store : Store) (location : Location) : IO Store := do
  let store ← addWithParents store location
  match store.entryAt location with
  | some .directory =>
    let root ← IO.FS.realPath (textOf location)
    let entries ← root.readDir
    entries.foldlM (fun store entry => add store (location ++ [entry.fileName])) store
  | _ => return store

/-- Take in the interpreter that a script names, and the interpreter of that one. -/
def addInterpreters (here : Location) : (count : Nat) → Store → Entry → IO Store
  | count + 1, store, .file file =>
    match (Script.interpreter? file.content).bind (String.fromUTF8? ·.toByteArray) with
    | none => return store
    | some name => do
      let location := locate here ⟨name⟩
      let store ← addWithParents store location
      match store.entryAt location with
      | some interpreter => addInterpreters here count store interpreter
      | none => return store
  | _, store, _ => return store

/-- The directories of change indexes that a run may use. -/
def serialDirectories (options : Options) (store : Store) : List Path :=
  match Zones.load store options.definition with
  | .error _ => []
  | .ok zones =>
    options.serials :: zones.values.filterMap fun zone => zone.config.map (·.serialDirectory)

/-- The files that a run may ask for. -/
def take (options : Options) : IO Store := do
  let here := locate [] ⟨(← IO.currentDir).toString⟩
  let store ← addWithParents { workingDirectory := here } here
  let store ← addWithParents store (locate here options.definition)
  let directories := options.plugins :: options.output :: serialDirectories options store
  let store ← directories.foldlM (fun store path => addDirectory store (locate here path)) store
  let scripts := store.children (locate here options.plugins)
  scripts.foldlM (fun store script =>
    addInterpreters here (Store.maxInterpreters + 1) store script.2) store

/-- Whether an entry is in a store already. -/
def isUnchanged (store : Store) (location : Location) (entry : Entry) : Bool :=
  match store.entryAt location, entry with
  | some .directory, .directory => true
  | some (.file before), .file after => before.content == after.content
  | some (.link before), .link after => before == after
  | _, _ => false

/-- Put new content in place of a file, at once. -/
def replace (location : Location) (content : ByteArray) : IO Unit := do
  let target := textOf location
  IO.FS.writeBinFile (target ++ ".tmp") content
  IO.FS.rename (target ++ ".tmp") target

/-- Make the changes that a run made. A location comes after those above it. -/
def apply (before after : Store) : IO Unit :=
  after.entries.entries.forM fun (location, entry) => do
    unless isUnchanged before location entry do
      match entry with
      | .directory => IO.FS.createDirAll (textOf location)
      | .file file => replace location file.content
      | .link _ => pure ()

/-- Today's date. -/
def today : IO Date := do
  let date ← Std.Time.PlainDate.now
  return (Date.ofParts? date.year.toInt date.month.toNat date.day.toNat).getD default

end Snapshot

/-- How the program is called. -/
def usage : String :=
  "Usage: dns-zones [OPTIONS] --definition <PATH> --output <DIR>\n\n"
    ++ "Options:\n"
    ++ "  --definition <PATH>  Zone definition file (JSON)\n"
    ++ "  --output <DIR>       Directory to write zone files to\n"
    ++ "  --plugins <DIR>      Directory containing plugin executables [default: plugins]\n"
    ++ "  --serials <DIR>      Directory holding serial change indexes [default: serials]\n"
    ++ "  --generate-serial    Generate SOA serial numbers for zones without a config\n"
    ++ "  --reverse            Derive reverse lookup zones for zones without a config"

end DnsZones

open DnsZones in
/-- Generate zone files as the command line says. The exit code is 0 if everything went well,
    1 if anything failed and 2 if the command line is wrong. -/
def main (arguments : List String) : IO UInt32 := do
  match Options.ofArguments? arguments with
  | none =>
    IO.eprintln usage
    return 2
  | some options =>
    let store ← Snapshot.take options
    let (report, after) := options.run { store := store, today := ← Snapshot.today }
    Snapshot.apply store after.store
    report.failures.forM IO.eprintln
    report.written.forM IO.println
    return if report.isSuccess then 0 else 1
