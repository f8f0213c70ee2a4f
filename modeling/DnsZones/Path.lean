import DnsZones.Text

/-!
# Paths

The text of file paths, and what it denotes.

A path is kept as the text that was given, because that text shows in error
messages and in the answers of the program. What the text denotes is its list of
components: repeated slashes, a dot between slashes and a slash at the end do not
count, while `..` and a dot at the very beginning do. Two paths are the same path
when their components are.

## Main definitions

* `Path`: A path's text.
* `Path.components`: What it denotes.
* `Path.join`: A path below another.
* `Path.absolute`: A relative path below the working directory.
-/

namespace DnsZones

/-- A file path. -/
structure Path where
  /-- The text as given. -/
  text : String
  deriving DecidableEq, Repr, Inhabited

namespace Path

/-- One step of a path. -/
inductive Component where
  | root
  /-- The directory in which the path starts. -/
  | current
  /-- The directory above. -/
  | parent
  /-- An entry of a directory. -/
  | entry (name : String)
  deriving DecidableEq, Repr

/-- The texts between the slashes of a path. -/
def segments (path : Path) : List String :=
  (Text.split '/' path.text.toList).map String.ofList

/-- Whether a path starts at the root. -/
def isAbsolute (path : Path) : Bool := path.text.toList.head? == some '/'

/-- Whether a path ends in a slash. -/
def endsInSlash (path : Path) : Bool := path.text.toList.getLast? == some '/'

/-- Whether a path ends in the name of an entry, and not in `.`, `..` or the root. -/
def endsInName (path : Path) : Bool :=
  match (path.segments.filter (· ≠ "")).getLast? with
  | some step => step ≠ "." && step ≠ ".."
  | none => false

/-- A path without the slashes at its end. -/
def withoutFinalSlashes (path : Path) : Path :=
  ⟨String.ofList (path.text.toList.reverse.dropWhile (· == '/')).reverse⟩

/-- The step that a text between slashes stands for, if it stands for any. -/
def step? (segment : String) : Option Component :=
  if segment = "" ∨ segment = "." then none
  else if segment = ".." then some .parent
  else some (.entry segment)

/-- The steps of a path. -/
def components (path : Path) : List Component :=
  let steps := path.segments.filterMap step?
  if path.isAbsolute then .root :: steps
  else if path.segments.head? = some "." then .current :: steps
  else steps

/-- Whether two paths have the same components. -/
def same (p q : Path) : Bool := p.components == q.components

/-- A path below another. An absolute path stands for itself wherever it is put, and an
    empty one leaves a slash at the end. -/
def join (directory : Path) (below : String) : Path :=
  if (Path.mk below).isAbsolute then ⟨below⟩
  else if directory.text.isEmpty || directory.endsInSlash then ⟨directory.text ++ below⟩
  else ⟨directory.text ++ "/" ++ below⟩

/-- The text of one step. -/
def Component.text : Component → String
  | root => "/"
  | current => "."
  | parent => ".."
  | entry name => name

/-- A relative path as an absolute one. The working directory is put in front; a slash at
    the end stays. -/
def absolute (path workingDirectory : Path) : Path :=
  if path.isAbsolute then path
  else
    let steps := path.segments.filterMap step?
    let joined := steps.foldl (fun p step => p.join step.text) workingDirectory
    if path.endsInSlash then joined.join "" else joined

/-- The last step of a path, if it is an entry of a directory. -/
def fileName? (path : Path) : Option String :=
  match path.components.getLast? with
  | some (.entry name) => some name
  | _ => none

end Path

end DnsZones
