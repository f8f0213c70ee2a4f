import DnsZones.Duration
import DnsZones.Serial
import DnsZones.Store.Access

/-!
# Allocating Serial Numbers

Giving out the next serial number of a zone.

The change index of a zone is a file in the serial directory, named after the
zone. Other processes may generate the same zone at the same time, so reading and
replacing the file happen under an exclusive lock on a second file beside it. A
lock that somebody else holds is waited for, but not longer than a given time.

Whatever goes wrong, the index stays as it was: it is only ever replaced as a
whole, by the last step. That includes calls of the system that fail one by one, as
`Allocating.Call` has them.

## Main definitions

* `SerialError`: Why no serial number can be given out.
* `Serial.indexPath`, `Serial.lockPath`: The two files of a zone.
* `Serial.next`: The next serial number.
* `Serial.current`: The index as it is.
-/

namespace DnsZones

/-- Why no serial number can be given out. -/
inductive SerialError where
  /-- The serial directory cannot be made. -/
  | createDirectory (path : Path) (cause : SystemError)
  /-- Somebody else held the lock all the time. -/
  | lockTimeout (path : Path) (timeout : Duration)
  /-- The lock file cannot be opened. -/
  | lock (path : Path) (cause : SystemError)
  /-- The index cannot be read. -/
  | read (path : Path) (cause : SystemError)
  /-- The index is not a document of the right shape. -/
  | parse (path : Path)
  /-- The index cannot be replaced. -/
  | write (path : Path) (cause : SystemError)
  deriving DecidableEq, Repr

namespace SerialError

/-- How an error is reported. -/
def message : SerialError → String
  | createDirectory path cause =>
    "creating serial directory " ++ path.text ++ ": " ++ cause.message
  | lockTimeout path timeout =>
    "timed out after " ++ timeout.toText ++ " waiting for lock on " ++ path.text
  | lock path cause => "locking " ++ path.text ++ ": " ++ cause.message
  | read path cause => "reading " ++ path.text ++ ": " ++ cause.message
  | parse path => "parsing " ++ path.text ++ ": " ++ Json.errorText
  | write path cause => "writing " ++ path.text ++ ": " ++ cause.message

end SerialError

namespace Serial

/-- The file with a zone's change index. -/
def indexPath (directory : Path) (zone : String) : Path := directory.join (zone ++ ".serial")

/-- The file that is locked while the index is changed. -/
def lockPath (directory : Path) (zone : String) : Path :=
  ⟨(indexPath directory zone).text ++ ".lock"⟩

/-- How long a lock is waited for if nothing else is said. -/
def defaultTimeout : Duration := .seconds 5

/-- The index in a file; none if there is no file. -/
def readIndex (store : Store) (path : Path) : Except SerialError (Option SerialIndex) :=
  match store.readText path with
  | .error .notFound => .ok none
  | .error cause => .error (.read path cause)
  | .ok text =>
    match Json.readText SerialIndex.ofJson text with
    | .ok index => .ok (some index)
    | .error _ => .error (.parse path)

/-- The index of a zone, unchanged. -/
def current (store : Store) (directory : Path) (zone : String) :
    Except SerialError (Option SerialIndex) :=
  readIndex store (indexPath directory zone)

/-- Make the serial directory if it is missing. -/
def ensureDirectory (store : Store) (directory : Path) : Except SerialError Unit × Store :=
  if store.isDirectory directory then (.ok (), store)
  else
    match store.makeDirectories directory with
    | (.ok (), after) => (.ok (), after)
    | (.error cause, after) => (.error (.createDirectory directory cause), after)

/-- Take the exclusive lock on a file, making the file if it is missing. -/
def acquire (store : Store) (path : Path) (timeout : Duration) :
    Except SerialError Location × Store :=
  match store.openLock path with
  | .error cause => (.error (.lock path cause), store)
  | .ok (location, opened) =>
    if opened.isLocked location then (.error (.lockTimeout path timeout), opened)
    else (.ok location, opened.setLocked location true)

/-- Advance the index in a file that nobody else changes meanwhile. -/
def advanceIndex (store : Store) (today : Date) (directory path : Path) :
    Except SerialError SerialIndex × Store :=
  match readIndex store path with
  | .error error => (.error error, store)
  | .ok previous =>
    let index := SerialIndex.advance previous today.base
    match store.replaceFile directory path index.document.toUTF8 with
    | (.ok (), after) => (.ok index, after)
    | (.error cause, after) => (.error (.write path cause), after)

/-- Give out the next serial number of a zone and keep the new index. -/
def next (store : Store) (today : Date) (timeout : Duration) (directory : Path) (zone : String) :
    Except SerialError String × Store :=
  match ensureDirectory store directory with
  | (.error error, after) => (.error error, after)
  | (.ok (), store) =>
    match acquire store (lockPath directory zone) timeout with
    | (.error error, after) => (.error error, after)
    | (.ok lock, store) =>
      match advanceIndex store today directory (indexPath directory zone) with
      | (.ok index, after) => (.ok index.serial, after.setLocked lock false)
      | (.error error, after) => (.error error, after.setLocked lock false)

end Serial

end DnsZones
