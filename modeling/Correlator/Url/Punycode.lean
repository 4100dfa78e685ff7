/-!
# Punycode

Labels of a host name that stand for text beyond ASCII: characters of the ASCII range first, then
digits that tell, one after another, which other characters go where.

* `Punycode.decode?`: the characters that a text stands for, by their numbers.
* `Punycode.encode`: the text that stands for characters.
* `Punycode.mark`: how a label begins that claims to be encoded.

A digit goes on with a number or ends it. Where it ends, and how much the next one weighs, depends
on a bias that adapts to the numbers before.
-/

namespace Correlator.Punycode

/-- The number of digits. -/
def base : Nat := 36

/-- The value of a digit: letters first, then the decimal digits. -/
def digit? (c : Char) : Option Nat :=
  if 'a' ≤ c ∧ c ≤ 'z' then some (c.toNat - 97)
  else if '0' ≤ c ∧ c ≤ '9' then some (c.toNat - 22)
  else none

/-- The least digit that goes on with a number, at a position that weighs `k`. -/
def threshold (k bias : Nat) : Nat := min (max (k - bias) 1) 26

/-- A change brought down into the range of the last step, and the weight that this adds. -/
def reduce (weight change : Nat) : Nat × Nat :=
  if 455 < change then reduce (weight + base) (change / 35) else (weight, change)
termination_by change
decreasing_by omega

/-- The bias after a number that changed the place by `change`, with `count` characters so far. -/
def adapt (change count : Nat) (first : Bool) : Nat :=
  let change := if first then change / 700 else change / 2
  let (weight, change) := reduce 0 (change + change / count)
  weight + base * change / (change + 38)

/-- What has been read: the characters so far, the last number and the place behind its character,
and the number that is under way. -/
structure Decoder where
  read : List Nat
  code : Nat
  place : Nat
  bias : Nat
  sum : Nat
  /-- The weight of the next digit. -/
  weight : Nat
  position : Nat

/-- Whether no number is under way. -/
def Decoder.isWhole (d : Decoder) : Bool := d.position == base

/-- Whether a number is that of a character. -/
def isCharacter (n : Nat) : Bool := n < 0xD800 || (0xDFFF < n && n < 0x110000)

/-- One more digit. -/
def Decoder.step (d : Decoder) (c : Char) : Option Decoder := do
  let digit ← digit? c
  let sum := d.sum + digit * d.weight
  let t := threshold d.position d.bias
  if t ≤ digit then
    return { d with sum, weight := d.weight * (base - t), position := d.position + base }
  else
    let count := d.read.length + 1
    let code := d.code + sum / count
    let place := sum % count
    if !isCharacter code then none
    else
      return {
        read := d.read.take place ++ code :: d.read.drop place
        code
        place := place + 1
        bias := adapt (sum - d.place) count (d.place == 0)
        sum := place + 1
        weight := 1
        position := base }

/-- The text before and after the last hyphen; all of it is after if there is nothing before. -/
def cutAtHyphen (cs : List Char) : List Char × List Char :=
  let after := (cs.reverse.takeWhile fun c => c ≠ '-').reverse
  let before := (cs.take (cs.length - after.length)).dropLast
  if before.isEmpty then ([], cs) else (before, after)

/-- The characters that a text stands for. -/
def decode? (cs : List Char) : Option (List Nat) :=
  let (plain, digits) := cutAtHyphen cs
  match digits.foldlM Decoder.step ⟨plain.map Char.toNat, 128, 0, 72, 0, 1, base⟩ with
  | some d => if d.isWhole then some d.read else none
  | none => none

/-! ## Encoding -/

/-- The digit of a value. -/
def digit (n : Nat) : Char := Char.ofNat (if n < 26 then 97 + n else 22 + n)

/-- The digits of a number. -/
def digits (bias position n : Nat) : List Char :=
  let t := threshold position bias
  if n < t then [digit n]
  else digit (t + (n - t) % (base - t)) :: digits bias (position + base) ((n - t) / (base - t))
termination_by n
decreasing_by
  have hpos : 0 < threshold position bias := by
    unfold threshold
    omega
  exact Nat.lt_of_le_of_lt (Nat.div_le_self _ _) (by omega)

/-- What has been written: the digits so far, the change since the last character, and the number of
characters that are written. -/
structure Encoder where
  written : List Char
  change : Nat
  bias : Nat
  count : Nat

/-- One look at a character, while those with a number are written; `plain` were there before. -/
def Encoder.look (plain number : Nat) (e : Encoder) (n : Nat) : Encoder :=
  if n < number then { e with change := e.change + 1 }
  else if n = number then
    { written := e.written ++ digits e.bias base e.change
      change := 0
      bias := adapt e.change (e.count + 1) (e.count == plain)
      count := e.count + 1 }
  else e

/-- The characters with the given numbers are written, least number first; all that are less than
`next` have been. -/
def Encoder.write (ns : List Nat) (plain next : Nat) (e : Encoder) : List Nat → Encoder
  | [] => e
  | number :: rest =>
    let e := { e with change := e.change + (number - next) * (e.count + 1) }
    let e := ns.foldl (look plain number) e
    write ns plain (number + 1) { e with change := e.change + 1 } rest

/-- The text that stands for characters. -/
def encode (ns : List Nat) : List Char :=
  let plain := ns.filter (· < 128)
  let numbers := ((ns.filter (128 ≤ ·)).mergeSort (· ≤ ·)).eraseDups
  let before := if plain.isEmpty then [] else plain.map Char.ofNat ++ ['-']
  before ++ (Encoder.write ns plain.length 128 ⟨[], 0, 72, plain.length⟩ numbers).written

/-! ## Labels -/

/-- How a label begins that claims to be encoded. -/
def mark : List Char := ['x', 'n', '-', '-']

end Correlator.Punycode
