import DnsZones.Generation
import DnsZones.Store.Access

/-!
# Writing Zone Files

Zone files in the output directory.

Each zone has a file of its own, named after the zone. A file is put in place as
a whole or not at all.

## Main definitions

* `Output.writeZone`: One zone file.
* `Output.writeZones`: The files of a whole run.
-/

namespace DnsZones

namespace Output

/-- Write a zone file. Gives its path. -/
def writeZone (store : Store) (directory : Path) (zone text : String) :
    Except ZoneError Path × Store :=
  let path := directory.join zone
  match store.replaceFile directory path text.toUTF8 with
  | (.ok (), after) => (.ok path, after)
  | (.error cause, after) => (.error ⟨zone, .write path cause⟩, after)

/-- Write zone files in order. Gives for each zone its path or what went wrong. -/
def writeZones (store : Store) (directory : Path) :
    List (String × String) → List (String × Except ZoneError Path) × Store
  | [] => ([], store)
  | (zone, text) :: rest =>
    let (result, store) := writeZone store directory zone text
    let (results, store) := writeZones store directory rest
    ((zone, result) :: results, store)

end Output

end DnsZones
