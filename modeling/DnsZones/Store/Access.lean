import DnsZones.Store

/-!
# Reading and Changing the Store

The operations on files that generating zones needs.

Every operation takes a path and either changes nothing and fails, or succeeds.
The one that matters most is `replaceFile`: new content is written under an
unused name first and then renamed, so that under its own name a file is either
the old one or the whole new one. If the renaming fails the unused name is freed
again. It is one step here, which fails where the tree stands against it; how the
calls of the system that it consists of may fail one by one, for any reason, is told
by `Replacing.Call`.

## Main definitions

* `Store.file`, `Store.readText`, `Store.list`: Reading.
* `Store.makeDirectory`, `Store.makeDirectories`: Directories.
* `Store.openLock`, `Store.setLocked`, `Store.isLocked`: Lock files.
* `Store.replaceFile`: A file's new content under its own name, at once.
* `Store.writeFile`, `Store.makeLink`, `Store.remove`: Changes made from outside.
-/

namespace DnsZones

namespace Store

/-- The entry that a path denotes, links followed. -/
def status (store : Store) (path : Path) : Except SystemError (Location × Entry) :=
  match store.resolve true path with
  | .ok (.found location entry) => .ok (location, entry)
  | .ok (.vacant _ _) => .error .notFound
  | .error error => .error error

/-- Whether a path denotes a directory. -/
def isDirectory (store : Store) (path : Path) : Bool :=
  match store.status path with
  | .ok (_, .directory) => true
  | _ => false

/-- The regular file that a path denotes. -/
def file (store : Store) (path : Path) : Except SystemError File :=
  match store.status path with
  | .ok (_, .file file) => .ok file
  | .ok (_, .directory) => .error .isDirectory
  | .ok (_, .link _) => .error .tooManyLinks
  | .error error => .error error

/-- The text in a file. -/
def readText (store : Store) (path : Path) : Except SystemError String :=
  match store.file path with
  | .error error => .error error
  | .ok file =>
    match String.fromUTF8? file.content with
    | some text => .ok text
    | none => .error .invalidText

/-- The location of a directory; the empty path is the working directory. -/
def directory (store : Store) (path : Path) : Except SystemError Location :=
  if path.text.isEmpty then .ok store.workingDirectory
  else
    match store.status path with
    | .ok (location, .directory) => .ok location
    | .ok _ => .error .notDirectory
    | .error error => .error error

/-- The entries of a directory by name. -/
def list (store : Store) (path : Path) : Except SystemError (List (String × Entry)) :=
  match store.status path with
  | .ok (location, .directory) => .ok (store.children location)
  | .ok _ => .error .notDirectory
  | .error error => .error error

/-- Make one directory. -/
def makeDirectory (store : Store) (path : Path) : Except SystemError Store :=
  match store.named path with
  | .ok (.found _ _) => .error .alreadyThere
  | .ok (.vacant location _) => .ok (store.put location .directory)
  | .error error => .error error

/-- Make a directory, after those above it where they are missing. The paths go from the
    directory itself upwards. Directories made before a failure stay. -/
def makeChain (store : Store) : List Path → Except SystemError Unit × Store
  | [] => (.ok (), store)
  | path :: above =>
    match store.makeDirectory path with
    | .ok made => (.ok (), made)
    | .error .notFound =>
      match store.makeChain above with
      | (.error error, after) => (.error error, after)
      | (.ok (), after) =>
        match after.makeDirectory path with
        | .ok made => (.ok (), made)
        | .error error => (if after.isDirectory path then .ok () else .error error, after)
    | .error error => (if store.isDirectory path then .ok () else .error error, store)

/-- A path and the directories above it, up to where the path starts. -/
def chain (path : Path) : List Path :=
  let steps := path.components
  let above := (List.range (steps.length - 1)).reverse.map fun n =>
    (steps.take (n + 1)).foldl (fun p step => p.join step.text) (Path.mk "")
  if path.text.isEmpty then [] else path :: above.filter fun p => p.text ≠ "/"

/-- Make a directory and those above it where they are missing. -/
def makeDirectories (store : Store) (path : Path) : Except SystemError Unit × Store :=
  store.makeChain (chain path)

/-- Open a file to lock it, making an empty one if there is none. -/
def openLock (store : Store) (path : Path) : Except SystemError (Location × Store) :=
  match store.resolve true path with
  | .ok (.found location (.file _)) => .ok (location, store)
  | .ok (.found _ _) => .error .isDirectory
  | .ok (.vacant _ true) => .error .isDirectory
  | .ok (.vacant location false) =>
    .ok (location, store.put location (.file { content := ByteArray.empty }))
  | .error error => .error error

/-- Set whether the file at a location is locked. -/
def setLocked (store : Store) (location : Location) (locked : Bool) : Store :=
  match store.entryAt location with
  | some (.file file) => store.put location (.file { file with locked := locked })
  | _ => store

/-- Whether the file at a location is locked. -/
def isLocked (store : Store) (location : Location) : Bool :=
  match store.entryAt location with
  | some (.file file) => file.locked
  | _ => false

/-- Where a file of a directory can be renamed to. Nothing is followed at the end of the
    path: a link there is replaced like a file. Only a directory can be renamed to a path
    that ends in a slash, and nothing can take the place of a directory that it is in. -/
def renameTarget (store : Store) (directory : Location) (path : Path) :
    Except SystemError Location :=
  if hasNul path then .error .invalidArgument
  else
    match store.named path with
    | .error error => .error error
    | .ok place =>
      if !path.endsInName then .error .busy
      else if path.endsInSlash then .error .notDirectory
      else
        match place with
        | .vacant location _ => .ok location
        | .found location .directory =>
          .error (if location.isPrefixOf directory then .notEmpty else .isDirectory)
        | .found location _ => .ok location

/-- An absolute path as long as the one under which a file is first written: the letters
    after `.tmp` are chosen anew every time, but there are always six. -/
def temporaryPath (store : Store) (directory : Path) : Path :=
  (store.workingPath.join directory.text).join ".tmpXXXXXX"

/-- The location of the directory in which a file is first written. -/
def temporaryDirectory (store : Store) (directory : Path) : Except SystemError Location :=
  match checkPath (store.temporaryPath directory) with
  | .error error => .error error
  | .ok () => store.directory directory

/-- Put a file with the given content under a path: write it under an unused name in the
    given directory, then rename it. -/
def replaceFile (store : Store) (directory path : Path) (content : ByteArray) :
    Except SystemError Unit × Store :=
  match store.temporaryDirectory directory with
  | .error error => (.error error, store)
  | .ok above =>
    let temporary := above ++ [store.unusedName]
    let file : Entry := .file { content := content }
    let written := store.put temporary file
    match written.renameTarget above path with
    | .error error => (.error error, written.delete temporary)
    | .ok location => (.ok (), (written.delete temporary).put location file)

/-- Write a file in place, keeping whether it may be run unless that is given. -/
def writeFile (store : Store) (path : Path) (content : ByteArray) (executable : Option Bool)
    (program : Option Program) : Except SystemError Store :=
  match store.resolve true path with
  | .ok (.found location (.file file)) =>
    .ok (store.put location (.file { file with
      content := content
      program := program
      executable := executable.getD file.executable }))
  | .ok (.found _ _) => .error .isDirectory
  | .ok (.vacant _ true) => .error .isDirectory
  | .ok (.vacant location false) =>
    .ok (store.put location (.file {
      content := content
      program := program
      executable := executable.getD false }))
  | .error error => .error error

/-- Make a symbolic link. -/
def makeLink (store : Store) (path target : Path) : Except SystemError Store :=
  match store.resolve false path with
  | .ok (.vacant location false) => .ok (store.put location (.link target))
  | .ok (.vacant _ true) => .error .notFound
  | .ok (.found _ _) => .error .alreadyThere
  | .error error => .error error

/-- Remove an entry, with everything below it. -/
def remove (store : Store) (path : Path) : Except SystemError Store :=
  match store.resolve false path with
  | .ok (.found location _) =>
    .ok { store with entries := store.entries.filter fun l _ => !location.isPrefixOf l }
  | .ok (.vacant _ _) => .error .notFound
  | .error error => .error error

end Store

end DnsZones
