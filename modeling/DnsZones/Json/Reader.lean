import DnsZones.Json
import DnsZones.Json.Scaled

/-!
# Reading JSON

From text to `Json`, by the grammar of RFC 8259.

Reading has two steps: the characters are grouped into tokens, and the tokens
into a value. Both go on to the end of the text or to the first thing that the
grammar does not allow. In the second case the value holds `cut` at that place,
and in every array and object around it, after what was read before.

The second step keeps its own stack of unfinished arrays and objects instead of
recursing, so text may be nested to any depth.

## Main definitions

* `Token`: The tokens.
* `tokens`: The tokens of a text.
* `Document.read`: The value of a text, and whether it is the whole text.
-/

namespace DnsZones

namespace Json

/-- A token of JSON text. -/
inductive Token where
  /-- A bracket, a brace, a comma or a colon. -/
  | mark (c : Char)
  | text (literal : Literal)
  /-- A number or one of the words. -/
  | scalar (value : Json)
  /-- Anything else. -/
  | invalid
  deriving Inhabited

/-- White space between tokens. -/
def isSpace (c : Char) : Bool := c == ' ' || c == '\t' || c == '\n' || c == '\r'

/-- The value of a hexadecimal digit. -/
def hexValue? (c : Char) : Option Nat :=
  if '0'.toNat ≤ c.toNat ∧ c.toNat ≤ '9'.toNat then some (c.toNat - '0'.toNat)
  else if 'a'.toNat ≤ c.toNat ∧ c.toNat ≤ 'f'.toNat then some (c.toNat - 'a'.toNat + 10)
  else if 'A'.toNat ≤ c.toNat ∧ c.toNat ≤ 'F'.toNat then some (c.toNat - 'A'.toNat + 10)
  else none

/-- The number written by four hexadecimal digits. -/
def hexWord? (a b c d : Char) : Option Nat :=
  match hexValue? a, hexValue? b, hexValue? c, hexValue? d with
  | some a, some b, some c, some d => some (((a * 16 + b) * 16 + c) * 16 + d)
  | _, _, _, _ => none

/-- What one letter after a backslash stands for. -/
def unescape? : Char → Option Char
  | '"' => some '"'
  | '\\' => some '\\'
  | '/' => some '/'
  | 'b' => some (Char.ofNat 8)
  | 'f' => some (Char.ofNat 12)
  | 'n' => some '\n'
  | 'r' => some '\r'
  | 't' => some '\t'
  | _ => none

/-- A piece of a string literal. -/
inductive Piece where
  | char (c : Char)
  /-- A unit of UTF-16, written as an escape. -/
  | unit (n : Nat)

/-- The first half of a surrogate pair. -/
def isLeading (n : Nat) : Bool := 0xD800 ≤ n && n ≤ 0xDBFF

/-- The second half of a surrogate pair. -/
def isTrailing (n : Nat) : Bool := 0xDC00 ≤ n && n ≤ 0xDFFF

/-- The text that pieces denote, after other text. Both halves of a surrogate pair must be
    written, one directly after the other. -/
def assemble (before : String) : List Piece → Literal
  | [] => some before
  | .char c :: pieces => assemble (before.push c) pieces
  | .unit n :: pieces =>
    if isTrailing n then none
    else if isLeading n then
      match pieces with
      | .unit m :: pieces =>
        if isTrailing m then
          assemble (before.push (Char.ofNat (0x10000 + (n - 0xD800) * 0x400 + (m - 0xDC00)))) pieces
        else none
      | _ => none
    else assemble (before.push (Char.ofNat n)) pieces

/-- Read a string literal after its opening quote: the pieces, last first, and the rest. -/
def readPieces (read : List Piece) : List Char → Option (List Piece × List Char)
  | [] => none
  | '"' :: cs => some (read, cs)
  | '\\' :: 'u' :: a :: b :: c :: d :: cs =>
    match hexWord? a b c d with
    | some n => readPieces (.unit n :: read) cs
    | none => none
  | '\\' :: c :: cs =>
    match unescape? c with
    | some e => readPieces (.char e :: read) cs
    | none => none
  | c :: cs => if c.toNat < 32 ∨ c = '\\' then none else readPieces (.char c :: read) cs

/-- Whether a character is an ASCII digit. -/
def isDigit (c : Char) : Bool := '0'.toNat ≤ c.toNat && c.toNat ≤ '9'.toNat

/-- The values of ASCII digits. -/
def digitValues (digits : List Char) : List Nat := digits.map fun c => c.toNat - '0'.toNat

/-- The integer part of a number: one zero, or digits that do not begin with one. -/
def readInteger? : List Char → Option (List Char × List Char)
  | '0' :: cs => some (['0'], cs)
  | cs =>
    match cs.takeWhile isDigit with
    | [] => none
    | digits => some (digits, cs.dropWhile isDigit)

/-- The fraction of a number, empty if there is none. -/
def readFraction? : List Char → Option (List Char × List Char)
  | '.' :: cs =>
    match cs.takeWhile isDigit with
    | [] => none
    | digits => some (digits, cs.dropWhile isDigit)
  | cs => some ([], cs)

/-- The digits of an exponent after its sign. -/
def readExponentDigits? (isNegative : Bool) (cs : List Char) :
    Option (Option (Bool × List Char) × List Char) :=
  match cs.takeWhile isDigit with
  | [] => none
  | digits => some (some (isNegative, digits), cs.dropWhile isDigit)

/-- The exponent of a number, if it has one: whether it is negative, and its digits. -/
def readExponent? : List Char → Option (Option (Bool × List Char) × List Char)
  | 'e' :: '-' :: cs | 'E' :: '-' :: cs => readExponentDigits? true cs
  | 'e' :: '+' :: cs | 'E' :: '+' :: cs => readExponentDigits? false cs
  | 'e' :: cs | 'E' :: cs => readExponentDigits? false cs
  | cs => some (none, cs)

/-- The number that a numeral without fraction and exponent denotes: an integer unless it is a
    negative zero or does not fit the significand. -/
def integral (isNegative : Bool) (scaled : Scaled) : Number :=
  if scaled.exponent ≠ 0 then .other scaled.isFinite
  else if isNegative then
    if scaled.significand = 0 then .other true else .integer (-scaled.significand)
  else .integer scaled.significand

/-- Read a number after its sign. -/
def readNumber? (isNegative : Bool) (cs : List Char) : Option (Number × List Char) :=
  match readInteger? cs with
  | none => none
  | some (integer, cs) =>
    match readFraction? cs with
    | none => none
    | some (fraction, cs) =>
      match readExponent? cs with
      | none => none
      | some (exponent, cs) =>
        let (isInverse, power) := exponent.getD (false, [])
        let scaled := Scaled.ofDigits (digitValues integer) (digitValues fraction) isInverse
          (digitValues power)
        if fraction.isEmpty && exponent.isNone then some (integral isNegative scaled, cs)
        else some (.other scaled.isFinite, cs)

/-- The token at the front of a text that does not begin with white space. -/
def readToken : List Char → Token × List Char
  | '"' :: cs =>
    match readPieces [] cs with
    | some (pieces, cs) => (.text (assemble "" pieces.reverse), cs)
    | none => (.invalid, cs)
  | 'n' :: 'u' :: 'l' :: 'l' :: cs => (.scalar .null, cs)
  | 't' :: 'r' :: 'u' :: 'e' :: cs => (.scalar (.bool true), cs)
  | 'f' :: 'a' :: 'l' :: 's' :: 'e' :: cs => (.scalar (.bool false), cs)
  | '-' :: cs =>
    match readNumber? true cs with
    | some (n, cs) => (.scalar (.number n), cs)
    | none => (.invalid, cs)
  | c :: cs =>
    if c = '[' ∨ c = ']' ∨ c = '\x7b' ∨ c = '\x7d' ∨ c = ',' ∨ c = ':' then (.mark c, cs)
    else
      match readNumber? false (c :: cs) with
      | some (n, cs) => (.scalar (.number n), cs)
      | none => (.invalid, cs)
  | [] => (.invalid, [])

/-- Read tokens, last first, until the text ends or has no token. Each token takes at least
    one character, so as many steps as there are characters are enough. -/
def readTokens (read : List Token) : (steps : Nat) → List Char → List Token
  | 0, _ => read
  | steps + 1, cs =>
    match cs.dropWhile isSpace with
    | [] => read
    | cs =>
      match readToken cs with
      | (.invalid, _) => .invalid :: read
      | (token, cs) => readTokens (token :: read) steps cs

/-- The tokens of a text. -/
def tokens (text : String) : List Token :=
  let cs := text.toList
  (readTokens [] cs.length cs).reverse

/-- An array or object that is not finished. -/
inductive Frame where
  /-- An array with its items so far, last first. -/
  | array (items : List Json)
  /-- An object with its members so far, last first, and the name of the member being read. -/
  | object (members : List (Literal × Json)) (name : Literal)

/-- What may come next. -/
inductive Expected where
  | value
  /-- The first item of an array, or its end. -/
  | item
  /-- A name after these members, or for the first one the end of the object. -/
  | name (members : List (Literal × Json)) (isFirst : Bool)
  /-- The colon after a name. -/
  | colon (members : List (Literal × Json)) (name : Literal)
  /-- What follows a value. -/
  | next (value : Json)

/-- The value around an inner one when the text goes wrong there. -/
def cutOff (inner : Json) : List Frame → Json
  | [] => inner
  | .array items :: frames => cutOff (.array (.cut :: inner :: items).reverse) frames
  | .object members name :: frames =>
    cutOff (.object ((none, .cut) :: (name, inner) :: members).reverse) frames

/-- The value when the text goes wrong at a place where something was expected. -/
def cutAt (frames : List Frame) : Expected → Json
  | .value => cutOff .cut frames
  | .item => cutOff (.array [.cut]) frames
  | .name members _ => cutOff (.object ((none, .cut) :: members).reverse) frames
  | .colon members name =>
    cutOff (.object ((none, .cut) :: (name, .cut) :: members).reverse) frames
  | .next value => cutOff value frames

/-- The value of a text, and whether the text is nothing but that value. -/
structure Document where
  value : Json
  /-- Whether the whole text was read. -/
  complete : Bool

/-- Read a value from tokens. -/
def readValue : List Token → Expected → List Frame → Document
  | [], .next value, [] => ⟨value, true⟩
  | [], expected, frames => ⟨cutAt frames expected, false⟩
  | token :: tokens, .value, frames =>
    match token with
    | .scalar value => readValue tokens (.next value) frames
    | .text literal => readValue tokens (.next (.string literal)) frames
    | .mark '[' => readValue tokens .item frames
    | .mark '\x7b' => readValue tokens (.name [] true) frames
    | _ => ⟨cutAt frames .value, false⟩
  | token :: tokens, .item, frames =>
    match token with
    | .scalar value => readValue tokens (.next value) (.array [] :: frames)
    | .text literal => readValue tokens (.next (.string literal)) (.array [] :: frames)
    | .mark '[' => readValue tokens .item (.array [] :: frames)
    | .mark '\x7b' => readValue tokens (.name [] true) (.array [] :: frames)
    | .mark ']' => readValue tokens (.next (.array [])) frames
    | _ => ⟨cutAt frames .item, false⟩
  | token :: tokens, .name members isFirst, frames =>
    match token with
    | .text literal => readValue tokens (.colon members literal) frames
    | .mark '\x7d' =>
      if isFirst then readValue tokens (.next (.object [])) frames
      else ⟨cutAt frames (.name members isFirst), false⟩
    | _ => ⟨cutAt frames (.name members isFirst), false⟩
  | token :: tokens, .colon members name, frames =>
    match token with
    | .mark ':' => readValue tokens .value (.object members name :: frames)
    | _ => ⟨cutAt frames (.colon members name), false⟩
  | token :: tokens, .next value, frames =>
    match token, frames with
    | .mark ',', .array items :: frames =>
      readValue tokens .value (.array (value :: items) :: frames)
    | .mark ']', .array items :: frames =>
      readValue tokens (.next (.array (value :: items).reverse)) frames
    | .mark ',', .object members name :: frames =>
      readValue tokens (.name ((name, value) :: members) false) frames
    | .mark '\x7d', .object members name :: frames =>
      readValue tokens (.next (.object ((name, value) :: members).reverse)) frames
    | _, frames => ⟨cutAt frames (.next value), false⟩

/-- Read a text. -/
def Document.read (text : String) : Document := readValue (tokens text) .value []

end Json

end DnsZones
