import Correlator.Text.Cut
import Correlator.Url.Punycode

/-!
# Names beyond ASCII

The name of a host in the form in which it is looked up: capitals are folded, wide forms and stops
are brought back to those of ASCII, and labels that hold anything else are encoded.

* `Folding.ranges`: the characters beyond ASCII that a name may hold here, and what becomes of them.
* `Folding.fold?`: what becomes of one character.
* `Folding.isLabel`: whether a label that claims to be encoded is. What it stands for has to hold a
  character beyond ASCII, and nothing that would be folded.
* `Folding.resolve?`: the form of a name.

The ranges are those of the alphabets whose letters stand for themselves wherever they are: Latin,
Greek, Cyrillic and Armenian letters, kana, Han and Hangul. A name with any other character, such as
a mark that joins the letter before it or a letter that is written from right to left, is not
resolved; it counts as invalid. What an encoded label stands for is only looked at as far as it is
of these ranges.
-/

namespace Correlator.Folding

/-- What becomes of the characters of a range. -/
inductive Treatment
  | kept
  | dropped
  /-- The range is moved to where another one begins. -/
  | moved (first : Nat)
  /-- Each capital is followed by its small letter; the first character is a capital. -/
  | paired
  deriving DecidableEq, Repr

/-- Characters from a first to a last one. -/
structure Range where
  first : Nat
  last : Nat
  treatment : Treatment

/-- Letters of Latin alphabets. -/
def latin : List Range :=
  [⟨0xAA, 0xAA, .moved 0x61⟩, ⟨0xAD, 0xAD, .dropped⟩, ⟨0xB5, 0xB5, .moved 0x3BC⟩,
    ⟨0xB7, 0xB7, .kept⟩, ⟨0xBA, 0xBA, .moved 0x6F⟩, ⟨0xC0, 0xD6, .moved 0xE0⟩,
    ⟨0xD7, 0xD7, .kept⟩, ⟨0xD8, 0xDE, .moved 0xF8⟩, ⟨0xDF, 0xFF, .kept⟩, ⟨0x100, 0x12F, .paired⟩,
    ⟨0x131, 0x131, .kept⟩, ⟨0x134, 0x137, .paired⟩, ⟨0x138, 0x138, .kept⟩,
    ⟨0x139, 0x13E, .paired⟩, ⟨0x141, 0x148, .paired⟩, ⟨0x14A, 0x177, .paired⟩,
    ⟨0x178, 0x178, .moved 0xFF⟩, ⟨0x179, 0x17E, .paired⟩, ⟨0x17F, 0x17F, .moved 0x73⟩,
    ⟨0x1A0, 0x1A5, .paired⟩, ⟨0x1AF, 0x1B0, .paired⟩, ⟨0x1CD, 0x1DC, .paired⟩,
    ⟨0x1DE, 0x1EF, .paired⟩, ⟨0x1F8, 0x21F, .paired⟩, ⟨0x222, 0x233, .paired⟩,
    ⟨0x1E00, 0x1E95, .paired⟩, ⟨0x1EA0, 0x1EFF, .paired⟩]

/-- Greek, Cyrillic and Armenian letters. -/
def eastern : List Range :=
  [⟨0x386, 0x386, .moved 0x3AC⟩, ⟨0x388, 0x38A, .moved 0x3AD⟩, ⟨0x38C, 0x38C, .moved 0x3CC⟩,
    ⟨0x38E, 0x38F, .moved 0x3CD⟩, ⟨0x390, 0x390, .kept⟩, ⟨0x391, 0x3A1, .moved 0x3B1⟩,
    ⟨0x3A3, 0x3AB, .moved 0x3C3⟩, ⟨0x3AC, 0x3CE, .kept⟩, ⟨0x400, 0x40F, .moved 0x450⟩,
    ⟨0x410, 0x42F, .moved 0x430⟩, ⟨0x430, 0x45F, .kept⟩, ⟨0x460, 0x481, .paired⟩,
    ⟨0x48A, 0x4BF, .paired⟩, ⟨0x4C0, 0x4C0, .moved 0x4CF⟩, ⟨0x4C1, 0x4CE, .paired⟩,
    ⟨0x4CF, 0x4CF, .kept⟩, ⟨0x4D0, 0x52F, .paired⟩, ⟨0x531, 0x556, .moved 0x561⟩,
    ⟨0x559, 0x586, .kept⟩]

/-- Kana, Han and Hangul, with their stops, and the wide forms of what is in ASCII. -/
def wide : List Range :=
  [⟨0x3002, 0x3002, .moved 0x2E⟩, ⟨0x3003, 0x3029, .kept⟩, ⟨0x3041, 0x3096, .kept⟩,
    ⟨0x309D, 0x309E, .kept⟩, ⟨0x30A0, 0x30FE, .kept⟩, ⟨0x3400, 0x4DBF, .kept⟩,
    ⟨0x4E00, 0x9FFF, .kept⟩, ⟨0xAC00, 0xD7A3, .kept⟩, ⟨0xFF01, 0xFF20, .moved 0x21⟩,
    ⟨0xFF21, 0xFF3A, .moved 0x61⟩, ⟨0xFF3B, 0xFF5E, .moved 0x5B⟩, ⟨0xFF61, 0xFF61, .moved 0x2E⟩]

/-- The characters beyond ASCII that a name may hold. -/
def ranges : List Range := latin ++ eastern ++ wide

/-- The range that a character is of. -/
def range? (n : Nat) : Option Range := ranges.find? fun r => r.first ≤ n && n ≤ r.last

/-- What becomes of a character of a range. -/
def Range.fold (r : Range) (n : Nat) : List Nat :=
  match r.treatment with
  | .kept => [n]
  | .dropped => []
  | .moved first => [first + (n - r.first)]
  | .paired => [if (n - r.first) % 2 = 0 then n + 1 else n]

/-- What becomes of a character, if a name may hold it. -/
def fold? (c : Char) : Option (List Char) :=
  if c.toNat < 128 then some [c.toLower]
  else (range? c.toNat).map fun r => (r.fold c.toNat).map Char.ofNat

/-- Whether an encoded label may stand for a character. -/
def isSettled (n : Nat) : Bool :=
  match range? n with
  | some r => r.fold n = [n]
  | none => n < 127 || 160 ≤ n

/-- Whether a label is what it claims to be. -/
def isLabel (cs : List Char) : Bool :=
  if Punycode.mark.isPrefixOf cs then
    match Punycode.decode? (cs.drop Punycode.mark.length) with
    | some ns => ns.any (128 ≤ ·) && ns.all isSettled
    | none => false
  else true

/-- The form of a label that has been folded. -/
def label? (cs : List Char) : Option (List Char) :=
  if cs.all fun c => c.toNat < 128 then if isLabel cs then some cs else none
  else if Punycode.mark.isPrefixOf cs then none
  else some (Punycode.mark ++ Punycode.encode (cs.map Char.toNat))

/-- The form of a name, if it can be resolved. -/
def resolve? (name : List Char) : Option (List Char) := do
  let folded ← name.mapM fold?
  let labels ← (Text.splitAt '.' folded.flatten).mapM label?
  return ['.'].intercalate labels

end Correlator.Folding
