/-!
# Octets

Byte strings, and the two ways in which text stands for them.

* `Octets`: a byte string.
* `ofString`: the UTF-8 bytes of a text.
* `toHex`, `ofHex?`: two lower-case hexadecimal digits a byte, and back.
-/

namespace Correlator

/-- A byte string. -/
abbrev Octets := List UInt8

namespace Octets

/-- The UTF-8 bytes of a text. -/
def ofString (s : String) : Octets := s.toUTF8.toList

/-- The lower-case hexadecimal digit of a number below sixteen. -/
def hexDigit (n : Nat) : Char :=
  if n < 10 then Char.ofNat (48 + n) else Char.ofNat (87 + n)

/-- The value of a hexadecimal digit of either case. -/
def hexValue? (c : Char) : Option Nat :=
  if '0' ≤ c ∧ c ≤ '9' then some (c.toNat - 48)
  else if 'a' ≤ c ∧ c ≤ 'f' then some (c.toNat - 87)
  else if 'A' ≤ c ∧ c ≤ 'F' then some (c.toNat - 55)
  else none

/-- Two lower-case hexadecimal digits for each byte. -/
def toHex (bs : Octets) : String :=
  String.ofList (bs.flatMap fun b => [hexDigit (b.toNat / 16), hexDigit (b.toNat % 16)])

/-- The bytes that pairs of hexadecimal digits stand for. -/
def ofHexChars? : List Char → Option Octets
  | [] => some []
  | [_] => none
  | a :: b :: rest =>
    match hexValue? a, hexValue? b, ofHexChars? rest with
    | some x, some y, some bs => some (UInt8.ofNat (16 * x + y) :: bs)
    | _, _, _ => none

/-- The bytes that a text of hexadecimal digits stands for. -/
def ofHex? (s : String) : Option Octets := ofHexChars? s.toList

/-- A byte string written `n` times over. -/
def replicate (n : Nat) (bs : Octets) : Octets := (List.replicate n bs).flatten

end Octets

end Correlator
