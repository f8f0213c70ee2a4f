import DnsZones.Json.Reader
import DnsZones.Table

/-!
# Shapes of JSON

How a JSON value is read as something in particular.

A value with fields is an object with a member for each field, in any order, or
an array of the fields in the order of their declaration. Either way it becomes
one list of members, and the members are taken one by one, so that of several
faults the first in the text is reported. Members with unknown names are passed
over unread. A field may occur once; the entries of a table may repeat a key, and
the last one stays.

There are only two ways to fail. A value does not have the shape asked for, or it
has the shape of a record and gives a value in two forms at once; the second is a
mistake in the zone definition and is told apart.

## Main definitions

* `Unreadable`: Why a value cannot be read.
* `asText`, `asBool`, `asWord`, `asList`, `asTable`: Plain shapes.
* `members`: The members of a value with fields.
* `once`: A field that may occur once.
* `readText`: A whole text read as a shape.
-/

namespace DnsZones

namespace Json

/-- Why a value cannot be read as what was asked for. -/
inductive Unreadable where
  /-- It does not have the shape. -/
  | malformed
  /-- It is a record with a single value and a list of values. -/
  | conflict
  deriving DecidableEq, Repr

/-- How a text that cannot be read is reported inside another message. -/
def errorText : String := "<json error>"

/-- The outcome of reading. -/
abbrev Reading := Except Unreadable

/-- Read a text. -/
def asText : Json → Reading String
  | .string (some s) => .ok s
  | _ => .error .malformed

/-- Read a truth value. -/
def asBool : Json → Reading Bool
  | .bool b => .ok b
  | _ => .error .malformed

/-- Read a 32 bit unsigned integer. -/
def asWord : Json → Reading UInt32
  | .number (.integer (.ofNat n)) =>
    if n < UInt32.size then .ok (UInt32.ofNat n) else .error .malformed
  | _ => .error .malformed

/-- Read a value that may be null. -/
def asOptional {α : Type} (read : Json → Reading α) : Json → Reading (Option α)
  | .null => .ok none
  | json => (read json).map some

/-- Read the items of a list in order. -/
def readItems {α : Type} (read : Json → Reading α) : List Json → Reading (List α)
  | [] => .ok []
  | item :: items =>
    match read item with
    | .error e => .error e
    | .ok value => (readItems read items).map (value :: ·)

/-- Read an array of items of one kind. -/
def asList {α : Type} (read : Json → Reading α) : Json → Reading (List α)
  | .array items => readItems read items
  | _ => .error .malformed

/-- Read entries in order into a table. -/
def readEntries {α : Type} (read : Json → Reading α) (table : Table String α) :
    List (Literal × Json) → Reading (Table String α)
  | [] => .ok table
  | (none, _) :: _ => .error .malformed
  | (some key, json) :: rest =>
    match read json with
    | .error e => .error e
    | .ok value => readEntries read (table.insert key value) rest

/-- Read an object as a table; of two members with one name the last stays. -/
def asTable {α : Type} (read : Json → Reading α) : Json → Reading (Table String α)
  | .object members => readEntries read Table.empty members
  | _ => .error .malformed

/-- The members of a value whose fields are known. In an array the fields stand in the given
    order; the last ones may be missing, and there must be no more. -/
def members (fields : List String) : Json → Reading (List (Literal × Json))
  | .object members => .ok members
  | .array items =>
    .ok ((fields.map some).zip items
      ++ (items.drop fields.length).map (fun _ => (none, .cut)))
  | _ => .error .malformed

/-- A field that may occur once: read it unless it was read before. -/
def once {α : Type} (before : Option α) (read : Json → Reading α) (json : Json) :
    Reading (Option α) :=
  match before with
  | some _ => .error .malformed
  | none => (read json).map some

/-- Take members one by one into what is known of a value with fields. -/
def readMembers {α : Type} (take : α → String → Json → Reading α) (known : α) :
    List (Literal × Json) → Reading α
  | [] => .ok known
  | (none, _) :: _ => .error .malformed
  | (some name, json) :: rest =>
    match take known name json with
    | .error e => .error e
    | .ok known => readMembers take known rest

/-- A field that has to be there. -/
def required {α : Type} : Option α → Reading α
  | some value => .ok value
  | none => .error .malformed

/-- Read a whole text as a shape. What is wrong inside the value comes before anything that
    follows the value. -/
def readText {α : Type} (read : Json → Reading α) (text : String) : Reading α :=
  let document := Document.read text
  match read document.value with
  | .error e => .error e
  | .ok value => if document.complete then .ok value else .error .malformed

end Json

end DnsZones
