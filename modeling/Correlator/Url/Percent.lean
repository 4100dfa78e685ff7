import Correlator.Text.Octets

/-!
# Percent encoding

* `Percent.encode`: a text in which the characters of a class, and all beyond ASCII, are written
  byte by byte as `%` and two hexadecimal digits.
* `Percent.decode`: the bytes of a text in which such triples stand for single bytes.
* `Percent.control`, `Percent.query`, …: the classes for the parts of a URL.
-/

namespace Correlator.Percent

/-- The upper-case hexadecimal digit of a number below sixteen. -/
def upperHexDigit (n : Nat) : Char :=
  if n < 10 then Char.ofNat (48 + n) else Char.ofNat (55 + n)

/-- A byte as a percent sign and two digits. -/
def triple (b : UInt8) : List Char :=
  ['%', upperHexDigit (b.toNat / 16), upperHexDigit (b.toNat % 16)]

/-- A character, in triples if it belongs to the class. -/
def encodeChar (set : Char → Bool) (c : Char) : List Char :=
  if set c then (String.utf8EncodeChar c).flatMap triple else [c]

/-- A text, the characters of the class in triples. -/
def encode (set : Char → Bool) (cs : List Char) : List Char := cs.flatMap (encodeChar set)

/-- The bytes that a text stands for. A percent sign that no two digits follow is itself. -/
def decode : List Char → Octets
  | [] => []
  | [c] => String.utf8EncodeChar c
  | [c, d] => String.utf8EncodeChar c ++ String.utf8EncodeChar d
  | c :: d :: e :: rest =>
    if c = '%' then
      match Octets.hexValue? d, Octets.hexValue? e with
      | some x, some y => UInt8.ofNat (16 * x + y) :: decode rest
      | _, _ => String.utf8EncodeChar c ++ decode (d :: e :: rest)
    else String.utf8EncodeChar c ++ decode (d :: e :: rest)

/-! ## Classes -/

/-- Control characters and everything beyond ASCII. -/
def control (c : Char) : Bool := c.toNat < 0x20 || 0x7E < c.toNat

/-- What is encoded in a fragment. -/
def fragment (c : Char) : Bool := control c || c ∈ [' ', '"', '<', '>', '\x60']

/-- What is encoded in a query. -/
def query (c : Char) : Bool := control c || c ∈ [' ', '"', '#', '<', '>']

/-- What is encoded in the query of a URL with a special scheme. -/
def specialQuery (c : Char) : Bool := query c || c = '\''

/-- What is encoded in a path. -/
def path (c : Char) : Bool := fragment c || c ∈ ['#', '?', '\x7b', '\x7d']

/-- What is encoded in a user name and a password. -/
def userinfo (c : Char) : Bool :=
  path c || c ∈ ['/', ':', ';', '=', '@', '[', '\\', ']', '^', '|']

end Correlator.Percent
