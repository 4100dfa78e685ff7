import Correlator.Json.Value
import Correlator.Text.Octets

/-!
# Writing JSON

The text of a value, without blanks: the fields of an object in the order in which they stand, a
text in quotes with only quotes, backslashes and control characters escaped, and a double with
the fewest digits that read back.

* `Json.doubles`: the layout of doubles.
* `Json.writeText`: a text in quotes.
* `Json.write`, `Json.render`: the text of a value.
-/

namespace Correlator.Json

/-- Doubles are written without an exponent from `1e-5` up to, but not at, `1e16`. -/
def doubles : Layout := ⟨-5, 16, ['+']⟩

/-- A character inside quotes. -/
def escape (c : Char) : List Char :=
  if c = '"' then ['\\', '"']
  else if c = '\\' then ['\\', '\\']
  else if c = '\x08' then ['\\', 'b']
  else if c = '\x0c' then ['\\', 'f']
  else if c = '\n' then ['\\', 'n']
  else if c = '\r' then ['\\', 'r']
  else if c = '\t' then ['\\', 't']
  else if c.toNat < 0x20 then
    ['\\', 'u', '0', '0', Octets.hexDigit (c.toNat / 16), Octets.hexDigit (c.toNat % 16)]
  else [c]

/-- A text in quotes. -/
def writeText (s : String) : List Char :=
  '"' :: (s.toList.flatMap escape ++ ['"'])

mutual

/-- The text of a value. -/
def write : Json → List Char
  | .null => ['n', 'u', 'l', 'l']
  | .bool true => ['t', 'r', 'u', 'e']
  | .bool false => ['f', 'a', 'l', 's', 'e']
  | .int n => Decimal.intChars n
  | .float x => x.write doubles
  | .str s => writeText s
  | .arr [] => ['[', ']']
  | .arr (j :: js) => '[' :: (write j ++ writeItems js)
  | .obj [] => ['\x7b', '\x7d']
  | .obj ((k, j) :: rest) => '\x7b' :: (writeText k ++ ':' :: (write j ++ writeFields rest))

/-- The items of an array after the first, and the bracket that closes it. -/
def writeItems : List Json → List Char
  | [] => [']']
  | j :: js => ',' :: (write j ++ writeItems js)

/-- The fields of an object after the first, and the brace that closes it. -/
def writeFields : List (String × Json) → List Char
  | [] => ['\x7d']
  | (k, j) :: rest => ',' :: (writeText k ++ ':' :: (write j ++ writeFields rest))

end

/-- The text of a value. -/
def render (j : Json) : String := String.ofList (write j)

end Correlator.Json
