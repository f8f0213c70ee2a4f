import DnsZones.Fault
import DnsZones.Text

/-!
# Domain Names

The syntax of domain names, and names relative to a zone.

A name is a sequence of labels with dots between them and, when it is absolute,
one more dot at the end. The rules are those for host names: a label has 1 to 63
letters, digits and hyphens, and begins and ends with a letter or a digit; the
whole text, dots included, has at most 255 bytes.

Inside a zone a name may also be the sign `@`, which stands for the zone itself,
and a name without a dot at its end is relative to the zone.

## Main definitions

* `Name.labels`: The labels of a name's text.
* `Name.isValid`: The syntax of names.
* `Name.isFullyQualified`: A valid absolute name with two labels or more.
* `Name.check`, `Name.checkOrOrigin`: The same, reporting what is not a name.
* `Name.qualify`: A name as an absolute name under a zone.
-/

namespace DnsZones

namespace Name

/-- The sign that stands for the zone itself. -/
def origin : String := "@"

/-- The largest number of characters in a label. -/
def maxLabelLength : Nat := 63

/-- The largest number of bytes in a name. -/
def maxLength : Nat := 255

/-- The ASCII letters and digits. -/
def isLetterOrDigit (c : Char) : Bool :=
  ('a'.toNat ≤ c.toNat && c.toNat ≤ 'z'.toNat) || ('A'.toNat ≤ c.toNat && c.toNat ≤ 'Z'.toNat)
    || ('0'.toNat ≤ c.toNat && c.toNat ≤ '9'.toNat)

/-- The characters of a label. -/
def isLabelChar (c : Char) : Bool := isLetterOrDigit c || c == '-'

/-- The syntax of one label. -/
def isLabel (label : List Char) : Bool :=
  !label.isEmpty && label.length ≤ maxLabelLength && label.head? != some '-'
    && label.getLast? != some '-' && label.all isLabelChar

/-- A name's characters without the one dot that may end it. -/
def withoutFinalDot (cs : List Char) : List Char :=
  if cs.getLast? = some '.' then cs.dropLast else cs

/-- The labels of a name, in the order in which they are written. -/
def labels (name : String) : List (List Char) := Text.split '.' (withoutFinalDot name.toList)

/-- The syntax of names: labels with single dots between them, perhaps one at the end. -/
def isValid (name : String) : Bool :=
  name.utf8ByteSize ≤ maxLength && (labels name).all isLabel

/-- A valid name, or the sign for the zone itself. -/
def isValidOrOrigin (name : String) : Bool := name == origin || isValid name

/-- Whether a text ends in a dot. -/
def isAbsolute (name : String) : Bool := name.toList.getLast? == some '.'

/-- A valid name that ends in a dot and has at least two labels. -/
def isFullyQualified (name : String) : Bool :=
  isValid name && isAbsolute name && 2 ≤ name.toList.count '.'

/-- Accept only names. -/
def check (name : String) : Except Fault Unit :=
  if isValid name then .ok () else .error (.invalidName name)

/-- Accept only names and the sign for the zone itself. -/
def checkOrOrigin (name : String) : Except Fault Unit :=
  if isValidOrOrigin name then .ok () else .error (.invalidName name)

/-- A name as an absolute name under a zone. -/
def qualify (name zone : String) : String :=
  if name = origin then Text.trimEndDots zone ++ "."
  else if isAbsolute name then name
  else name ++ "." ++ Text.trimEndDots zone ++ "."

end Name

end DnsZones
