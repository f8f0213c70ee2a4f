import DnsZones.Name

/-!
# Mailbox Names

Email addresses in the form in which a start of authority record holds them.

The record has a domain name where the administrator's address belongs. The name
is the local part, with a backslash before each of its dots so that it reads as
one label, then the domain, then the dot of an absolute name:
`first.last@example.com` becomes `first\.last.example.com.`. A text without `@`
is taken to be in that form already, and only gains the dot.

## Main definitions

* `Mailbox.encode`: The name that stands for an address.
-/

namespace DnsZones

namespace Mailbox

/-- A local part as one label: a backslash before every dot. -/
def escape : List Char → List Char
  | [] => []
  | c :: cs => if c = '.' then '\\' :: '.' :: escape cs else c :: escape cs

/-- Text that ends in a dot, by adding one if it has none. -/
def withFinalDot (text : String) : String :=
  if Name.isAbsolute text then text else text ++ "."

/-- The name for an address whose surrounding white space is gone. -/
def encodeTrimmed (address : String) : Except Fault String :=
  let localPart := address.toList.takeWhile (· != '@')
  match address.toList.dropWhile (· != '@') with
  | [] => if address.isEmpty then .error (.invalidEmail address) else .ok (withFinalDot address)
  | _ :: domain =>
    if localPart.isEmpty || !Name.isValid (String.ofList domain) then
      .error (.invalidEmail address)
    else
      .ok (withFinalDot (String.ofList (escape localPart ++ '.' :: domain)))

/-- The domain name that stands for an administrator's email address. -/
def encode (address : String) : Except Fault String := encodeTrimmed (Text.trim address)

end Mailbox

end DnsZones
