import DnsZones.Rendering
import DnsZones.Reverse

/-!
# Generating Zones

From definitions to the text of zone files.

All given zones are normalized first. Those that ask for it then yield reverse
zones; what several zones derive under one name is put together, the first in
name order having the say, and a reverse zone that is given is not derived at
all. The derived zones are normalized like the others, and finally everything is
rendered in name order.

A zone that fails at any stage is reported and gets no text, except that a zone
whose reverse zones cannot be derived is still rendered itself. No failure stops
another zone.

## Main definitions

* `Derivation`: Reverse zones derived so far.
* `Derivation.ofZones`: The reverse zones of many zones.
* `Generated`: The texts, the errors and what was logged.
* `Engine.generate`: The whole way.
-/

namespace DnsZones

/-- Reverse zones derived so far. -/
structure Derivation where
  zones : Zones := Table.empty
  /-- What stopped a derivation, in the order in which it came up. -/
  errors : List ZoneError := []
  notices : List Notice := []

namespace Derivation

/-- Put the records of a reverse zone into one that was derived before. Its own start of
    authority stays, and so does any record under an identifier that is taken. -/
def merge (existing : Zone) : List (String × Record) → Zone × List Notice
  | [] => (existing, [])
  | (identifier, record) :: rest =>
    if record.type = .soa then merge existing rest
    else if existing.records.contains identifier then
      let (merged, notices) := merge existing rest
      (merged, .duplicateIdentifier :: notices)
    else merge (existing.insert identifier record) rest

/-- Take in one reverse zone, unless a zone of its name is given. -/
def add (given : Zones) (derivation : Derivation) (name : String) (zone : Zone) : Derivation :=
  if given.contains name then
    { derivation with notices := derivation.notices ++ [.reverseGiven] }
  else
    match derivation.zones.get? name with
    | none => { derivation with zones := derivation.zones.insert name zone }
    | some existing =>
      let (merged, notices) := merge existing zone.records.entries
      { derivation with
        zones := derivation.zones.insert name merged
        notices := derivation.notices ++ notices }

/-- Whether a zone asks for its reverse zones. -/
def isWanted (zone : Zone) : Bool :=
  match zone.config with
  | some config => config.generateReverse
  | none => false

/-- Take in the reverse zones of one zone, if it asks for them. -/
def addSource (given : Zones) (derivation : Derivation) (name : String) (zone : Zone) :
    Derivation :=
  if isWanted zone then
    match Reverse.derive name zone with
    | .error error =>
      { derivation with
        errors := derivation.errors ++ [error]
        notices := derivation.notices ++ [.notDerived] }
    | .ok zones =>
      zones.entries.foldl (fun derivation e => derivation.add given e.1 e.2) derivation
  else derivation

/-- The reverse zones of many zones. -/
def ofZones (zones : Zones) : Derivation :=
  zones.entries.foldl (fun derivation e => derivation.addSource zones e.1 e.2) {}

end Derivation

/-- The result of a whole run. -/
structure Generated where
  /-- The text of zone files by zone name. -/
  texts : Table String String := Table.empty
  /-- What stopped zones, in the order in which it came up. -/
  errors : List ZoneError := []
  notices : List Notice := []

namespace Generated

/-- Whether no zone failed. -/
def isSuccess (generated : Generated) : Bool := generated.errors.isEmpty

end Generated

namespace Engine

variable {σ : Type}

/-- Render zones in order. -/
def renderEach (engine : Engine σ) : List (String × Zone) → σ → Generated × σ
  | [], state => ({}, state)
  | (name, zone) :: rest, state =>
    match engine.render name zone state with
    | (.error error, state) =>
      let (generated, state) := renderEach engine rest state
      ({ generated with
          errors := error :: generated.errors
          notices := .renderingFailed :: generated.notices }, state)
    | (.ok text, state) =>
      let (generated, state) := renderEach engine rest state
      ({ generated with texts := generated.texts.insert name text }, state)

/-- Generate every zone and the reverse zones that are asked for. -/
def generate (engine : Engine σ) (zones : Zones) (state : σ) : Generated × σ :=
  let (given, state) := engine.normalize zones state
  let derivation := Derivation.ofZones given.zones
  let (derived, state) := engine.normalize derivation.zones state
  let (rendered, state) := engine.renderEach (derived.zones.mergeOver given.zones).entries state
  ({ rendered with
      errors := given.errors ++ derivation.errors ++ derived.errors ++ rendered.errors
      notices := given.notices ++ derivation.notices ++ derived.notices ++ rendered.notices },
    state)

end Engine

end DnsZones
