/-!
# JSON Documents

The values that JSON text denotes, and their compact text.

Definitions, change indexes and the messages to plugins are JSON. Three details
of the text have to survive reading, and each has its place in `Json`:

* The members of an object keep their order and may repeat a name. Whether a
  repeated name is an error or replaces the earlier member depends on what the
  object stands for, so the reader does not decide it.
* A string may contain an escape for half of a surrogate pair. Such a literal
  denotes no text, but a member that nobody asks for may still hold one.
* A text may break off or go wrong in the middle. `cut` stands where it does, so
  that what comes before can be examined first, in the order of the text.

## Main definitions

* `Json`: The values.
* `Json.write`: The text of a value without white space.
* `Json.isPlain`: What may be held before it is known what it stands for.
-/

namespace DnsZones

/-- The text that a string literal denotes; none if it has half of a surrogate pair. -/
abbrev Literal := Option String

/-- A JSON number, as far as the program tells numbers apart. -/
inductive Number where
  /-- An integer of 64 bits and a sign, written without fraction and exponent and not as a
      negative zero. -/
  | integer (n : Int)
  /-- Any other number, and whether double precision can hold it. -/
  | other (isFinite : Bool)
  deriving DecidableEq, Repr

/-- A JSON value. -/
inductive Json where
  /-- The literal `null`. -/
  | null
  /-- The literals `true` and `false`. -/
  | bool (b : Bool)
  | number (n : Number)
  | string (literal : Literal)
  /-- An array. -/
  | array (items : List Json)
  /-- An object, its members in the order of the text. -/
  | object (members : List (Literal × Json))
  /-- The place where the text stops being JSON. -/
  | cut
  deriving Repr, Inhabited

namespace Json

/-- The string that denotes a text. -/
def text (s : String) : Json := .string (some s)

/-- The number that denotes a natural number. -/
def natural (n : Nat) : Json := .number (.integer n)

/-- One digit of a hexadecimal numeral. -/
def hexDigit (n : Nat) : Char := Nat.digitChar n

/-- A character inside a string literal. Quotes, backslashes and control characters are
    escaped, the usual ones by a letter. -/
def escape (c : Char) : String :=
  if c = '"' then "\\\""
  else if c = '\\' then "\\\\"
  else if c = '\n' then "\\n"
  else if c = '\r' then "\\r"
  else if c = '\t' then "\\t"
  else if c.toNat = 8 then "\\b"
  else if c.toNat = 12 then "\\f"
  else if c.toNat < 32 then
    "\\u00" ++ String.ofList [hexDigit (c.toNat / 16), hexDigit (c.toNat % 16)]
  else String.singleton c

/-- A text's string literal, written after other text. -/
def writeString (before s : String) : String :=
  (s.foldl (fun out c => if c = '"' ∨ c = '\\' ∨ c.toNat < 32 then out ++ escape c else out.push c)
    (before.push '"')).push '"'

mutual

/-- A value's text, written after other text. No number but an integer is ever written. -/
def writeAfter (before : String) : Json → String
  | null => before ++ "null"
  | bool b => before ++ (if b then "true" else "false")
  | number (.integer n) => before ++ toString n
  | number (.other _) => before ++ "0"
  | string literal => writeString before (literal.getD "")
  | array items => (writeItems (before.push '[') true items).push ']'
  | object members => (writeMembers (before.push '\x7b') true members).push '\x7d'
  | cut => before

/-- The items of an array with commas between them. -/
def writeItems (before : String) (isFirst : Bool) : List Json → String
  | [] => before
  | item :: items =>
    writeItems (writeAfter (if isFirst then before else before.push ',') item) false items

/-- The members of an object with commas between them. -/
def writeMembers (before : String) (isFirst : Bool) : List (Literal × Json) → String
  | [] => before
  | (name, value) :: members =>
    let named := writeString (if isFirst then before else before.push ',') (name.getD "")
    writeMembers (writeAfter (named.push ':') value) false members

end

/-- The text of a value, without white space. -/
def write (json : Json) : String := writeAfter "" json

mutual

/-- Whether a value can be held whole before it is known what it stands for: its text is
    complete, every string and name denotes a text, every number is finite, and arrays
    and objects are nested at most so deep. -/
def isPlain : (depth : Nat) → Json → Bool
  | _, null => true
  | _, bool _ => true
  | _, number (.integer _) => true
  | _, number (.other isFinite) => isFinite
  | _, string literal => literal.isSome
  | 0, array _ => false
  | depth + 1, array items => arePlain depth items
  | 0, object _ => false
  | depth + 1, object members => membersArePlain depth members
  | _, cut => false

/-- Whether all items of an array can be held whole. -/
def arePlain : (depth : Nat) → List Json → Bool
  | _, [] => true
  | depth, item :: items => isPlain depth item && arePlain depth items

/-- Whether all members of an object can be held whole. -/
def membersArePlain : (depth : Nat) → List (Literal × Json) → Bool
  | _, [] => true
  | depth, (name, value) :: members =>
    name.isSome && isPlain depth value && membersArePlain depth members

end

end Json

end DnsZones
