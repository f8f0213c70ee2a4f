import DnsZones.Path
import DnsZones.SystemError
import DnsZones.Table

/-!
# The File Store

Files, directories and symbolic links, and the way from a path to one of them.

A store is a table from locations to entries. A location is the list of names
from the root down; it has no `.`, no `..` and no link in it, so two different
locations are two different places. The root itself has no entry and is always a
directory.

A path is resolved against a store step by step. The walk stops at the first
symbolic link and goes on along the link's target; only a bounded number of links
is followed. What a walk comes to is a `Place`: an entry, or a free name in an
existing directory, which is where a new entry can be made.

## Main definitions

* `Reply`, `Program`: What running a file does.
* `File`, `Entry`, `Store`: What a store holds.
* `Store.entryAt`: The entry at a location.
* `Store.descend`: A walk that stops at symbolic links.
* `Store.resolve`, `Store.named`: The place that a path denotes.
-/

namespace DnsZones

/-- What a program does with one request. -/
structure Reply where
  /-- The bytes it writes. -/
  bytes : ByteArray
  /-- Whether it ends after writing them. -/
  exits : Bool := false

/-- What running a file does. -/
inductive Program where
  /-- It answers requests with these replies, in order, and then ends. -/
  | answers (replies : List Reply)
  /-- It ends at once. -/
  | mute

/-- A regular file. -/
structure File where
  content : ByteArray
  /-- Whether anybody may run it. -/
  executable : Bool := false
  /-- Whether somebody holds an exclusive lock on it. -/
  locked : Bool := false
  /-- What running it does, if that is known without looking at its content. -/
  program : Option Program := none

/-- Something that a location can hold. -/
inductive Entry where
  | directory
  | file (file : File)
  | link (target : Path)

/-- The names from the root down. -/
abbrev Location := List String

/-- A file store and the directory in which relative paths start. -/
structure Store where
  /-- The entries below the root. -/
  entries : Table Location Entry := Table.empty
  workingDirectory : Location := []

/-- What a path comes to. -/
inductive Place where
  | found (location : Location) (entry : Entry)
  /-- A free name in a directory; whether a slash follows the name. -/
  | vacant (location : Location) (slash : Bool)

/-- How a walk that does not follow links ends. -/
inductive Walk where
  | arrived (place : Place)
  /-- In front of a link: where to go on, and the steps left. -/
  | redirected (start : Location) (steps : List String)
  | failed (error : SystemError)

namespace Store

/-- The entry at a location. -/
def entryAt (store : Store) (location : Location) : Option Entry :=
  if location.isEmpty then some .directory else store.entries.get? location

/-- The store with an entry at a location. -/
def put (store : Store) (location : Location) (entry : Entry) : Store :=
  { store with entries := store.entries.insert location entry }

/-- The store without the entry at a location. -/
def delete (store : Store) (location : Location) : Store :=
  { store with entries := store.entries.erase location }

/-- The largest number of bytes in a name. -/
def maxNameLength : Nat := 255

/-- The number of bytes from which on a path is too long. -/
def pathLimit : Nat := 4096

/-- The largest number of links on one way. -/
def maxLinks : Nat := 40

/-- Where the walk along a path starts. -/
def startOf (here : Location) (path : Path) : Location := if path.isAbsolute then [] else here

/-- Walk down from a directory, up to the first symbolic link. A link at the very end stops
    the walk only if it is to be followed. -/
def descend (store : Store) (follow : Bool) (here : Location) : List String → Walk
  | [] =>
    match store.entryAt here with
    | some entry => .arrived (.found here entry)
    | none => .failed .notFound
  | step :: steps =>
    if step = "" ∨ step = "." then descend store follow here steps
    else if step = ".." then descend store follow here.dropLast steps
    else if maxNameLength < step.utf8ByteSize then .failed .nameTooLong
    else
      match store.entryAt (here ++ [step]) with
      | none =>
        if steps.all (·.isEmpty) then .arrived (.vacant (here ++ [step]) (!steps.isEmpty))
        else .failed .notFound
      | some .directory => descend store follow (here ++ [step]) steps
      | some (.file file) =>
        if steps.isEmpty then .arrived (.found (here ++ [step]) (.file file))
        else .failed .notDirectory
      | some (.link target) =>
        if steps.isEmpty && !follow then .arrived (.found (here ++ [step]) (.link target))
        else .redirected (startOf here target) (target.segments ++ steps)

/-- Walk down from a directory along links, a bounded number of them. -/
def walk (store : Store) (follow : Bool) : (links : Nat) → Location → List String →
    Except SystemError Place
  | links, here, steps =>
    match store.descend follow here steps with
    | .arrived place => .ok place
    | .failed error => .error error
    | .redirected start steps =>
      match links with
      | 0 => .error .tooManyLinks
      | links + 1 => walk store follow links start steps

/-- Walk along a path. -/
def walkPath (store : Store) (follow : Bool) (path : Path) : Except SystemError Place :=
  store.walk follow maxLinks (startOf store.workingDirectory path) path.segments

/-- Whether a path has the character that no path can have. -/
def hasNul (path : Path) : Bool := path.text.toList.any (·.toNat == 0)

/-- Check a path's text, before any step is made along it. -/
def checkPath (path : Path) : Except SystemError Unit :=
  if hasNul path then .error .nulInPath
  else if path.text.isEmpty then .error .notFound
  else if pathLimit ≤ path.text.utf8ByteSize then .error .nameTooLong
  else .ok ()

/-- The place that a path denotes; a link at its end is followed if asked. -/
def resolve (store : Store) (follow : Bool) (path : Path) : Except SystemError Place :=
  match checkPath path with
  | .error error => .error error
  | .ok () => store.walkPath follow path

/-- The place that a path names: a link at its end is not followed, even if a slash comes
    after it. -/
def named (store : Store) (path : Path) : Except SystemError Place :=
  match checkPath path with
  | .error error => .error error
  | .ok () => store.walkPath false (if path.endsInName then path.withoutFinalSlashes else path)

/-- The entries directly inside a directory, by name. -/
def children (store : Store) (directory : Location) : List (String × Entry) :=
  store.entries.entries.filterMap fun e =>
    match e.1.getLast? with
    | some name => if e.1.dropLast = directory then some (name, e.2) else none
    | none => none

/-- A name longer than every other in the store, and so in use nowhere. -/
def unusedName (store : Store) : String :=
  let longest := store.entries.entries.foldl
    (fun n e => max n ((e.1.getLast?.getD "").length)) 0
  ".tmp" ++ String.ofList (List.replicate (longest + 1) 'x')

/-- The working directory as a path. -/
def workingPath (store : Store) : Path :=
  ⟨if store.workingDirectory.isEmpty then "/"
    else String.join (store.workingDirectory.map ("/" ++ ·))⟩

end Store

end DnsZones
