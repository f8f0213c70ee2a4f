import DnsZones.Store.Access

/-!
# Programs and Scripts

What is started when a file is run.

A file that may be run is a program of its own or a script. A script begins with
`#!` and the name of its interpreter, and running it runs the interpreter, which
has to be a file that may be run too. An interpreter can itself be a script; the
chain of interpreters is followed, but only so far.

Only the front of a script is read, so a name is accepted only where it cannot
have been cut off: if the line ends within the front, or if a blank or a zero
byte comes after the name. The front of a short script is filled up with zeros.

A name is a sequence of bytes and need not be text. Unlike a path that somebody
asks for, it is not checked before the walk along it begins; in particular the
empty name is the working directory.

## Main definitions

* `Script.interpreter?`: The name of a script's interpreter.
* `Store.programOf`: The program that a file stands for.
* `Store.programAt`: The program that is started when a path is run.
-/

namespace DnsZones

namespace Script

/-- The number of bytes at the front of a file that are read. -/
def frontLength : Nat := 256

/-- The front of a file, filled up with zeros. -/
def front (content : ByteArray) : List UInt8 :=
  let bytes := (content.extract 0 frontLength).toList
  bytes ++ List.replicate (frontLength - bytes.length) 0

/-- A space or a tabulator. -/
def isBlank (byte : UInt8) : Bool := byte == 32 || byte == 9

/-- A byte that cannot be in a name: a blank or zero. -/
def endsName (byte : UInt8) : Bool := isBlank byte || byte == 0

/-- A byte that cannot be in a line: a line feed or zero. -/
def endsLine (byte : UInt8) : Bool := byte == 10 || byte == 0

/-- The name in a line that is known to be whole. -/
def nameInLine? (line : List UInt8) : Option (List UInt8) :=
  match line.dropWhile isBlank with
  | [] => none
  | bytes => some (bytes.takeWhile fun byte => !isBlank byte)

/-- The name in bytes that may have been cut off at the end. The last byte can end a name but
    cannot begin one. -/
def nameInFront? (rest : List UInt8) : Option (List UInt8) :=
  let bytes := rest.dropWhile isBlank
  if bytes.length ≤ 1 then none
  else if bytes.any endsName then some (bytes.takeWhile fun byte => !endsName byte)
  else none

/-- The name of the interpreter of a script. None if the file is no script, or if the name is
    missing or may have been cut off. -/
def interpreter? (content : ByteArray) : Option (List UInt8) :=
  match front content with
  | 35 :: 33 :: rest =>
    match rest.dropWhile fun byte => !endsLine byte with
    | 10 :: _ => nameInLine? (rest.takeWhile fun byte => !endsLine byte)
    | _ => nameInFront? rest
  | _ => none

/-- The byte of a slash. -/
def slash : UInt8 := 47

/-- A step that leads nowhere, because no entry has this name. -/
def deadStep : String := String.singleton (Char.ofNat 0)

/-- The steps of a name. The name of every entry is text, so bytes that are none lead nowhere. -/
def steps (name : List UInt8) : List String :=
  (Text.split slash name).map fun bytes => (String.fromUTF8? bytes.toByteArray).getD deadStep

end Script

namespace Store

/-- What the name of an interpreter denotes. -/
def interpreter (store : Store) (name : List UInt8) : Except SystemError Entry :=
  let start := if name.head? = some Script.slash then [] else store.workingDirectory
  match store.walk true maxLinks start (Script.steps name) with
  | .ok (.found _ entry) => .ok entry
  | .ok (.vacant _ _) => .error .notFound
  | .error error => .error error

/-- The regular file that an entry is, if it may be run. -/
def executable : Entry → Except SystemError File
  | .file file => if file.executable then .ok file else .error .permissionDenied
  | _ => .error .permissionDenied

/-- The largest number of interpreters in a chain. -/
def maxInterpreters : Nat := 5

/-- The program that a file stands for: what running the file does, or the program that its
    interpreter stands for. -/
def programOf (store : Store) : (interpreters : Nat) → File → Except SystemError Program
  | interpreters, file =>
    match file.program, Script.interpreter? file.content with
    | some program, _ => .ok program
    | none, none => .error .execFormat
    | none, some name =>
      match store.interpreter name with
      | .error error => .error error
      | .ok entry =>
        match executable entry, interpreters with
        | .error error, _ => .error error
        | .ok _, 0 => .error .tooManyLinks
        | .ok file, interpreters + 1 => programOf store interpreters file

/-- The program that is started when a path is run. -/
def programAt (store : Store) (path : Path) : Except SystemError Program :=
  match store.status path with
  | .error error => .error error
  | .ok (_, entry) =>
    match executable entry with
    | .error error => .error error
    | .ok file => store.programOf maxInterpreters file

end Store

end DnsZones
