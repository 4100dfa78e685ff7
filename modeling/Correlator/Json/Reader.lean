import Correlator.Json.Writer

/-!
# Reading JSON

A reader of the value that a text begins with, which gives back the rest of the text.

* `Json.maxDepth`: how deep arrays and objects may be nested.
* `Json.readNumber`: whole numbers of 64 bits stay whole; any other number is a double, and one
  beyond the range of the doubles is refused.
* `Json.readText`: a text in quotes.
* `Json.read`: a value.
* `Json.skip`: a value that nobody asks for. Its form is checked, but neither its depth, nor the
  range of its numbers, nor whether its escapes stand for characters.
* `Json.parse?`: the value that a whole text stands for.

The readers of values run on an allowance of calls. Each call reads at least one character before
the next, so the length of the text is enough.
-/

namespace Correlator.Json

/-- The rest of a text after the blanks at its beginning. -/
def skipBlanks : List Char → List Char :=
  List.dropWhile fun c => c = ' ' || c = '\n' || c = '\t' || c = '\r'

/-- Arrays and objects may be nested to this depth. -/
def maxDepth : Nat := 127

/-! ## Numbers -/

/-- The largest number of 64 bits. -/
def maxWord : Nat := Nat.pow 2 64 - 1

/-- The digits that a text begins with, and its rest. -/
def digitsOf (cs : List Char) : List Char × List Char :=
  (cs.takeWhile Char.isDigit, cs.dropWhile Char.isDigit)

/-- A significand as far as it fits 64 bits, and the number of digits that were left out. -/
def significand (m : Nat) : List Char → Nat × Nat
  | [] => (m, 0)
  | c :: cs =>
    let m' := 10 * m + (c.toNat - 48)
    if maxWord < m' then (m, (c :: cs).length) else significand m' cs

/-- `10 ^ n` as a machine number. -/
def powerOfTen (n : Nat) : Float := Float.ofScientific 1 false n

/-- The double `m * 10 ^ e`, by one rounding of `m` and one for each scaling by at most
`10 ^ 308`; `none` if it is too large. -/
def scale? (m : Nat) (e : Int) : Option Float :=
  if 0 ≤ e then
    if 308 < e then (if m = 0 then some 0.0 else none)
    else
      let x := Float.ofNat m * powerOfTen e.toNat
      if x.isInf then none else some x
  else
    some (shrink (Float.ofNat m) (-e).toNat (((-e).toNat / 308) + 1))
where
  /-- Division by `10 ^ n`, in steps of at most `10 ^ 308`. -/
  shrink (x : Float) (n : Nat) : Nat → Float
    | 0 => x
    | steps + 1 =>
      if n ≤ 308 then x / powerOfTen n
      else if x == 0.0 then x
      else shrink (x / powerOfTen 308) (n - 308) steps

/-- The largest exponent that is taken as it stands. -/
def maxExponent : Nat := Nat.pow 2 31 - 1

/-- The exponent part of a number: what it adds to the exponent, or `none` if there is no digit,
and the rest. An exponent that is too large is given as its sign alone. -/
def readExponent (cs : List Char) : Option ((Int ⊕ Bool) × List Char) :=
  let (positive, cs) := match cs with
    | '+' :: cs => (true, cs)
    | '-' :: cs => (false, cs)
    | cs => (true, cs)
  let (ds, rest) := digitsOf cs
  if ds.isEmpty then none
  else
    let e := ds.foldl (fun n c => 10 * n + (c.toNat - 48)) 0
    if maxExponent < e then some (.inr positive, rest)
    else some (.inl (if positive then (e : Int) else -(e : Int)), rest)

/-- The double with a significand, an exponent and perhaps a written exponent still to come. -/
def finishDouble (negative : Bool) (m : Nat) (e : Int) (cs : List Char) :
    Option (Json × List Char) :=
  let signed (x : Float) : Json := .float (.ofFloat (if negative then -x else x))
  let marked := match cs with
    | 'e' :: cs => some cs
    | 'E' :: cs => some cs
    | _ => none
  match marked with
  | none => (scale? m e).map fun x => (signed x, cs)
  | some cs =>
    match readExponent cs with
    | none => none
    | some (.inl added, rest) => (scale? m (e + added)).map fun x => (signed x, rest)
    | some (.inr positive, rest) =>
      if positive && m != 0 then none else some (signed 0.0, rest)

/-- A number after its sign. -/
def readUnsigned (negative : Bool) (cs : List Char) : Option (Json × List Char) :=
  let (ds, rest) := digitsOf cs
  if ds.isEmpty || (ds.head? == some '0' && 1 < ds.length) then none
  else
    let (m, left) := significand 0 ds
    match rest with
    | '.' :: rest =>
      let (fs, rest) := digitsOf rest
      if fs.isEmpty then none
      else
        let (m', left') := significand m fs
        finishDouble negative m' ((left : Int) - (fs.length - left' : Nat)) rest
    | 'e' :: _ => finishDouble negative m left rest
    | 'E' :: _ => finishDouble negative m left rest
    | _ =>
      if 0 < left then finishDouble negative m left rest
      else if !negative then some (.int m, rest)
      else if m = 0 || Nat.pow 2 63 < m then
        some (.float (.ofFloat (-(Float.ofNat m))), rest)
      else some (.int (-(m : Int)), rest)

/-- The number that a text begins with. -/
def readNumber : List Char → Option (Json × List Char)
  | '-' :: cs => readUnsigned true cs
  | cs => readUnsigned false cs

/-! ## Texts -/

/-- The number that four hexadecimal digits stand for. -/
def readHex4 : List Char → Option (Nat × List Char)
  | a :: b :: c :: d :: rest =>
    match Octets.hexValue? a, Octets.hexValue? b, Octets.hexValue? c, Octets.hexValue? d with
    | some a, some b, some c, some d => some (4096 * a + 256 * b + 16 * c + d, rest)
    | _, _, _, _ => none
  | _ => none

/-- The character that an escape stands for, after its backslash. A character beyond the first
65536 is written as two escapes. -/
def readEscape : List Char → Option (Char × List Char)
  | '"' :: cs => some ('"', cs)
  | '\\' :: cs => some ('\\', cs)
  | '/' :: cs => some ('/', cs)
  | 'b' :: cs => some ('\x08', cs)
  | 'f' :: cs => some ('\x0c', cs)
  | 'n' :: cs => some ('\n', cs)
  | 'r' :: cs => some ('\r', cs)
  | 't' :: cs => some ('\t', cs)
  | 'u' :: cs =>
    match readHex4 cs with
    | none => none
    | some (n, rest) =>
      if 0xDC00 ≤ n ∧ n < 0xE000 then none
      else if 0xD800 ≤ n ∧ n < 0xDC00 then
        match rest with
        | '\\' :: 'u' :: rest =>
          match readHex4 rest with
          | some (l, rest) =>
            if 0xDC00 ≤ l ∧ l < 0xE000 then
              some (Char.ofNat (0x10000 + (n - 0xD800) * 1024 + (l - 0xDC00)), rest)
            else none
          | none => none
        | _ => none
      else some (Char.ofNat n, rest)
  | _ => none

/-- A text after its opening quote, up to and without the closing one. -/
def readQuoted (read : List Char) : Nat → List Char → Option (String × List Char)
  | 0, _ => none
  | _ + 1, [] => none
  | fuel + 1, c :: cs =>
    if c = '"' then some (String.ofList read.reverse, cs)
    else if c = '\\' then
      match readEscape cs with
      | some (d, rest) => readQuoted (d :: read) fuel rest
      | none => none
    else if c.toNat < 0x20 then none
    else readQuoted (c :: read) fuel cs

/-- A text after its opening quote. -/
def readText (cs : List Char) : Option (String × List Char) :=
  readQuoted [] (cs.length + 1) cs

/-! ## Values -/

/-- The rest of a text after a word. -/
def readWord (word : List Char) (j : Json) (cs : List Char) : Option (Json × List Char) :=
  if word.isPrefixOf cs then some (j, cs.drop word.length) else none

/-- A key and the colon after it. -/
def readKey (cs : List Char) : Option (String × List Char) :=
  match skipBlanks cs with
  | '"' :: cs =>
    match readText cs with
    | some (k, rest) =>
      match skipBlanks rest with
      | ':' :: rest => some (k, rest)
      | _ => none
    | none => none
  | _ => none

mutual

/-- The value that a text begins with; `depth` more arrays and objects may be opened. -/
def readValue (depth : Nat) : Nat → List Char → Option (Json × List Char)
  | 0, _ => none
  | fuel + 1, cs =>
    match skipBlanks cs with
    | [] => none
    | 'n' :: cs => readWord ['u', 'l', 'l'] .null cs
    | 't' :: cs => readWord ['r', 'u', 'e'] (.bool true) cs
    | 'f' :: cs => readWord ['a', 'l', 's', 'e'] (.bool false) cs
    | '"' :: cs => (readText cs).map fun (s, rest) => (.str s, rest)
    | '[' :: cs =>
      if depth = 0 then none
      else
        match skipBlanks cs with
        | ']' :: rest => some (.arr [], rest)
        | cs => (readItems (depth - 1) fuel cs).map fun (js, rest) => (.arr js, rest)
    | '\x7b' :: cs =>
      if depth = 0 then none
      else
        match skipBlanks cs with
        | '\x7d' :: rest => some (.obj [], rest)
        | cs => (readFields (depth - 1) fuel cs).map fun (fs, rest) => (ofPairs fs, rest)
    | cs => readNumber cs

/-- The items of an array, up to and without the bracket that closes it. -/
def readItems (depth : Nat) : Nat → List Char → Option (List Json × List Char)
  | 0, _ => none
  | fuel + 1, cs =>
    match readValue depth fuel cs with
    | none => none
    | some (j, rest) =>
      match skipBlanks rest with
      | ',' :: rest => (readItems depth fuel rest).map fun (js, rest) => (j :: js, rest)
      | ']' :: rest => some ([j], rest)
      | _ => none

/-- The fields of an object, up to and without the brace that closes it. -/
def readFields (depth : Nat) : Nat → List Char → Option (List (String × Json) × List Char)
  | 0, _ => none
  | fuel + 1, cs =>
    match readKey cs with
    | none => none
    | some (k, rest) =>
      match readValue depth fuel rest with
      | none => none
      | some (j, rest) =>
        match skipBlanks rest with
        | ',' :: rest => (readFields depth fuel rest).map fun (fs, rest) => ((k, j) :: fs, rest)
        | '\x7d' :: rest => some ([(k, j)], rest)
        | _ => none

end

/-- An allowance that is enough for any text of this length. -/
def allowance (cs : List Char) : Nat := 2 * cs.length + 2

/-- The value that a text begins with, `depth` levels deep at most. -/
def read (depth : Nat) (cs : List Char) : Option (Json × List Char) :=
  readValue depth (allowance cs) cs

/-- The value that a whole text stands for. -/
def parse? (s : String) : Option Json :=
  match read maxDepth s.toList with
  | some (j, rest) => if (skipBlanks rest).isEmpty then some j else none
  | none => none

/-! ## Values that nobody asks for -/

/-- The rest of a text after the quoted text whose opening quote has been read. -/
def skipQuoted : List Char → Option (List Char)
  | [] => none
  | '"' :: cs => some cs
  | ['\\'] => none
  | '\\' :: 'u' :: a :: b :: c :: d :: cs =>
    if (Octets.hexValue? a).isSome && (Octets.hexValue? b).isSome && (Octets.hexValue? c).isSome &&
      (Octets.hexValue? d).isSome then skipQuoted cs else none
  | '\\' :: c :: cs =>
    if c ∈ ['"', '\\', '/', 'b', 'f', 'n', 'r', 't'] then skipQuoted cs else none
  | c :: cs => if c.toNat < 0x20 then none else skipQuoted cs

/-- The rest of a text after the number that it begins with. -/
def skipNumber (cs : List Char) : Option (List Char) :=
  let cs := match cs with
    | '-' :: cs => cs
    | cs => cs
  let (ds, rest) := digitsOf cs
  if ds.isEmpty || (ds.head? == some '0' && 1 < ds.length) then none
  else
    let afterPoint := match rest with
      | '.' :: rest =>
        let (fs, rest) := digitsOf rest
        if fs.isEmpty then none else some rest
      | rest => some rest
    match afterPoint with
    | none => none
    | some ('e' :: rest) => (readExponent rest).map (·.2)
    | some ('E' :: rest) => (readExponent rest).map (·.2)
    | some rest => some rest

mutual

/-- The rest of a text after the value that it begins with. -/
def skipValue : Nat → List Char → Option (List Char)
  | 0, _ => none
  | fuel + 1, cs =>
    match skipBlanks cs with
    | [] => none
    | 'n' :: cs => (readWord ['u', 'l', 'l'] .null cs).map (·.2)
    | 't' :: cs => (readWord ['r', 'u', 'e'] .null cs).map (·.2)
    | 'f' :: cs => (readWord ['a', 'l', 's', 'e'] .null cs).map (·.2)
    | '"' :: cs => skipQuoted cs
    | '[' :: cs =>
      match skipBlanks cs with
      | ']' :: rest => some rest
      | cs => skipItems fuel cs
    | '\x7b' :: cs =>
      match skipBlanks cs with
      | '\x7d' :: rest => some rest
      | cs => skipFields fuel cs
    | cs => skipNumber cs

/-- The rest of a text after the items of an array and the bracket that closes it. -/
def skipItems : Nat → List Char → Option (List Char)
  | 0, _ => none
  | fuel + 1, cs =>
    match skipValue fuel cs with
    | none => none
    | some rest =>
      match skipBlanks rest with
      | ',' :: rest => skipItems fuel rest
      | ']' :: rest => some rest
      | _ => none

/-- The rest of a text after the fields of an object and the brace that closes it. -/
def skipFields : Nat → List Char → Option (List Char)
  | 0, _ => none
  | fuel + 1, cs =>
    match skipBlanks cs with
    | '"' :: cs =>
      match skipQuoted cs with
      | none => none
      | some rest =>
        match skipBlanks rest with
        | ':' :: rest =>
          match skipValue fuel rest with
          | none => none
          | some rest =>
            match skipBlanks rest with
            | ',' :: rest => skipFields fuel rest
            | '\x7d' :: rest => some rest
            | _ => none
        | _ => none
    | _ => none

end

/-- The rest of a text after the value that it begins with; the value itself is not looked at. -/
def skip (cs : List Char) : Option (List Char) := skipValue (allowance cs) cs

end Correlator.Json
