import Correlator.Text.Octets

/-!
# Reading bytes as text

A decoder that turns any byte string into text. Bytes that are no UTF-8 do not stop it: each
maximal part that begins a character and then breaks off, and each byte that can begin none,
becomes one replacement character.

* `Decoder`, `Decoder.feed`: what is known of an unfinished character, and the effect of one more
  byte on it.
* `Utf8.decode`: the text of a byte string.
* `Utf8.text?`: the text of a byte string that is well formed.

The decoder reads one byte at a time, so the text does not depend on how the bytes were cut into
chunks on their way (`Decoder.run_append`).
-/

namespace Correlator

/-- The character that stands for bytes that are no text. -/
def replacement : Char := '\uFFFD'

/-- A character that has begun: its bits so far, how many bytes are to come, and the range in
which the next one has to lie. -/
structure Unfinished where
  bits : Nat
  wanted : Nat
  low : UInt8
  high : UInt8

/-- The text read so far, last character first, and the character that is under way. -/
structure Decoder where
  read : List Char
  partial? : Option Unfinished

namespace Decoder

/-- Nothing has been read. -/
def start : Decoder := ⟨[], none⟩

/-- The character that a byte begins: complete, unfinished, or none at all. -/
def lead (read : List Char) (b : UInt8) : Decoder :=
  let n := b.toNat
  if n < 0x80 then ⟨Char.ofNat n :: read, none⟩
  else if n < 0xC2 then ⟨replacement :: read, none⟩
  else if n < 0xE0 then ⟨read, some ⟨n - 0xC0, 1, 0x80, 0xBF⟩⟩
  else if n == 0xE0 then ⟨read, some ⟨0, 2, 0xA0, 0xBF⟩⟩
  else if n == 0xED then ⟨read, some ⟨0xD, 2, 0x80, 0x9F⟩⟩
  else if n < 0xF0 then ⟨read, some ⟨n - 0xE0, 2, 0x80, 0xBF⟩⟩
  else if n == 0xF0 then ⟨read, some ⟨0, 3, 0x90, 0xBF⟩⟩
  else if n < 0xF4 then ⟨read, some ⟨n - 0xF0, 3, 0x80, 0xBF⟩⟩
  else if n == 0xF4 then ⟨read, some ⟨4, 3, 0x80, 0x8F⟩⟩
  else ⟨replacement :: read, none⟩

/-- One more byte: it goes on with the character under way, or ends it as one replacement
character and begins the next. -/
def feed (d : Decoder) (b : UInt8) : Decoder :=
  match d.partial? with
  | none => lead d.read b
  | some u =>
    if u.low ≤ b ∧ b ≤ u.high then
      let bits := 64 * u.bits + (b.toNat - 0x80)
      if u.wanted ≤ 1 then ⟨Char.ofNat bits :: d.read, none⟩
      else ⟨d.read, some ⟨bits, u.wanted - 1, 0x80, 0xBF⟩⟩
    else lead (replacement :: d.read) b

/-- The effect of a byte string. -/
def run (d : Decoder) (bs : Octets) : Decoder := bs.foldl feed d

/-- Bytes that come in two chunks read as they do in one. -/
theorem run_append (d : Decoder) (as bs : Octets) : d.run (as ++ bs) = (d.run as).run bs :=
  List.foldl_append

/-- The text read, once no byte is to come: a character that broke off is replaced. -/
def finish (d : Decoder) : List Char :=
  match d.partial? with
  | none => d.read.reverse
  | some _ => (replacement :: d.read).reverse

end Decoder

namespace Utf8

/-- The text of a byte string; what is no UTF-8 in it is replaced. -/
def decode (bs : Octets) : List Char := (Decoder.start.run bs).finish

/-- The UTF-8 bytes of a text. -/
def encode (cs : List Char) : Octets := cs.flatMap String.utf8EncodeChar

/-- The text whose UTF-8 bytes these are, if they are those of a text. -/
def text? (bs : Octets) : Option String :=
  let cs := decode bs
  if encode cs = bs then some (String.ofList cs) else none

end Utf8

end Correlator
