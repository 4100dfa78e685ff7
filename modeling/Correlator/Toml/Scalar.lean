import Correlator.Json.Reader

/-!
# Scalars of TOML

Each reader takes the scalar that a text begins with and gives back the rest.

* `Toml.readString`: the four kinds of strings.
* `Toml.readNumber`: integers of 64 bits in four bases, and floats.
* `Toml.readDateTime`: dates, times, and both. A date or time stands for an object with its text
  in a field of its own, so it is no text where a text is asked for.
* `Toml.readBool`.
-/

namespace Correlator.Toml

/-! ## Blanks and line ends -/

/-- The rest of a text after the blanks that it begins with. -/
def skipSpace : List Char → List Char := List.dropWhile fun c => c = ' ' || c = '\t'

/-- The rest of a text after the line end that it begins with. -/
def newline? : List Char → Option (List Char)
  | '\n' :: cs => some cs
  | '\r' :: '\n' :: cs => some cs
  | _ => none

/-- A character of a comment. -/
def isCommentChar (c : Char) : Bool := c = '\t' || 0x20 ≤ c.toNat

/-- The rest of a text after the comment that it begins with, if it does. -/
def skipComment : List Char → List Char
  | '#' :: cs => cs.dropWhile isCommentChar
  | cs => cs

/-! ## Strings -/

/-- A character that may stand in a string as it is, quotes and backslashes apart. -/
def isStringChar (c : Char) : Bool := c = '\t' || (0x20 ≤ c.toNat && c.toNat != 0x7F)

/-- The character of a number of `n` hexadecimal digits. -/
def readScalarValue (n : Nat) (cs : List Char) : Option (Char × List Char) :=
  let ds := cs.take n
  let value? := ds.foldl (fun v? c =>
    match v?, Octets.hexValue? c with
    | some v, some d => some (16 * v + d)
    | _, _ => none) (some 0)
  if ds.length < n then none
  else
    match value? with
    | some v =>
      if v.isValidChar then some (Char.ofNat v, cs.drop n) else none
    | none => none

/-- The character that an escape stands for, after its backslash. -/
def readEscape : List Char → Option (Char × List Char)
  | 'b' :: cs => some ('\x08', cs)
  | 't' :: cs => some ('\t', cs)
  | 'n' :: cs => some ('\n', cs)
  | 'f' :: cs => some ('\x0c', cs)
  | 'r' :: cs => some ('\r', cs)
  | '"' :: cs => some ('"', cs)
  | '\\' :: cs => some ('\\', cs)
  | 'u' :: cs => readScalarValue 4 cs
  | 'U' :: cs => readScalarValue 8 cs
  | _ => none

/-- A basic string after its opening quote. -/
def readBasic (read : List Char) : Nat → List Char → Option (String × List Char)
  | 0, _ => none
  | _ + 1, [] => none
  | fuel + 1, c :: cs =>
    if c = '"' then some (String.ofList read.reverse, cs)
    else if c = '\\' then
      match readEscape cs with
      | some (d, rest) => readBasic (d :: read) fuel rest
      | none => none
    else if isStringChar c then readBasic (c :: read) fuel cs
    else none

/-- A literal string after its opening quote. -/
def readLiteral (cs : List Char) : Option (String × List Char) :=
  let inside := cs.takeWhile fun c => isStringChar c && c != '\''
  match cs.drop inside.length with
  | '\'' :: rest => some (String.ofList inside, rest)
  | _ => none

/-- The rest of a text after the blanks and line ends that it begins with. -/
def skipBlankLines : List Char → List Char
  | ' ' :: cs => skipBlankLines cs
  | '\t' :: cs => skipBlankLines cs
  | '\n' :: cs => skipBlankLines cs
  | '\r' :: '\n' :: cs => skipBlankLines cs
  | cs => cs

/-- The rest of a text after an escaped line end and the blanks and line ends that follow it. -/
def skipEscapedNewline? (cs : List Char) : Option (List Char) :=
  (newline? (skipSpace cs)).map skipBlankLines

/-- A multi-line string after its opening quotes; `escapes` tells whether a backslash is special.
One or two quotes may stand in it, also right before the three that close it. -/
def readMultiline (quote : Char) (escapes : Bool) (read : List Char) :
    Nat → List Char → Option (String × List Char)
  | 0, _ => none
  | _ + 1, [] => none
  | fuel + 1, c :: cs =>
    if c = quote then
      let run := ((c :: cs).takeWhile (· == quote)).length
      if run < 3 then readMultiline quote escapes (c :: read) fuel cs
      else
        let extra := min (run - 3) 2
        some (String.ofList (List.replicate extra quote ++ read).reverse,
          (c :: cs).drop (extra + 3))
    else if c = '\\' && escapes then
      match skipEscapedNewline? cs with
      | some rest => readMultiline quote escapes read fuel rest
      | none =>
        match readEscape cs with
        | some (d, rest) => readMultiline quote escapes (d :: read) fuel rest
        | none => none
    else
      match newline? (c :: cs) with
      | some rest => readMultiline quote escapes ('\n' :: read) fuel rest
      | none => if isStringChar c then readMultiline quote escapes (c :: read) fuel cs else none

/-- The string that a text begins with, of any kind. -/
def readString (cs : List Char) : Option (String × List Char) :=
  let afterBreak (cs : List Char) := (newline? cs).getD cs
  match cs with
  | '"' :: '"' :: '"' :: cs =>
    readMultiline '"' true [] (cs.length + 1) (afterBreak cs)
  | '"' :: cs => readBasic [] (cs.length + 1) cs
  | '\'' :: '\'' :: '\'' :: cs =>
    readMultiline '\'' false [] (cs.length + 1) (afterBreak cs)
  | '\'' :: cs => readLiteral cs
  | _ => none

/-! ## Numbers -/

/-- Digits of a class, of which any two may have a bar between them: the digits without bars. -/
def readDigits (isDigit : Char → Bool) : List Char → Option (List Char × List Char)
  | [] => none
  | c :: cs => if isDigit c then more [c] cs else none
where
  /-- The digits that follow. -/
  more (read : List Char) : List Char → Option (List Char × List Char)
    | '_' :: c :: cs => if isDigit c then more (c :: read) cs else none
    | ['_'] => none
    | c :: cs => if isDigit c then more (c :: read) cs else some (read.reverse, c :: cs)
    | [] => some (read.reverse, [])

/-- A sign and what follows it. -/
def readSign : List Char → Bool × List Char
  | '-' :: cs => (true, cs)
  | '+' :: cs => (false, cs)
  | cs => (false, cs)

/-- The digits of a decimal whole number: a zero stands alone. -/
def readWhole : List Char → Option (List Char × List Char)
  | '0' :: cs => some (['0'], cs)
  | cs => readDigits Char.isDigit cs

/-- The number that digits stand for. -/
def digitsValue (base : Nat) (ds : List Char) : Nat :=
  ds.foldl (fun n c => base * n + (Octets.hexValue? c).getD 0) 0

/-- An integer of 64 bits. -/
def integer? (negative : Bool) (n : Nat) : Option Json :=
  if negative then (if n ≤ Nat.pow 2 63 then some (.int (-(n : Int))) else none)
  else if n < Nat.pow 2 63 then some (.int n)
  else none

/-- The exponent that a text begins with, after its mark. -/
def readExponent (cs : List Char) : Option (Int × List Char) :=
  let (negative, cs) := readSign cs
  match readDigits Char.isDigit cs with
  | some (ds, rest) =>
    let n : Int := digitsValue 10 ds
    some (if negative then -n else n, rest)
  | none => none

/-- An exponent beyond which every number is either zero or too large. -/
def farExponent : Nat := 100000

/-- The float `m * 10 ^ e`; one that is too large is refused unless it is negative. -/
def float? (negative : Bool) (m : Nat) (e : Int) : Option Json :=
  let e := max (-(farExponent : Int)) (min farExponent e)
  let x := Float.ofScientific m (e < 0) e.natAbs
  let x := if negative then -x else x
  if x.isInf && !negative then none else some (.float (.ofFloat x))

/-- What follows the whole digits of a decimal number: a fraction, an exponent, or neither. -/
def readDecimal (negative : Bool) (whole : List Char) (cs : List Char) :
    Option (Json × List Char) :=
  let fraction : Option (Option (List Char) × List Char) := match cs with
    | '.' :: rest => (readDigits Char.isDigit rest).map fun (ds, rest) => (some ds, rest)
    | cs => some (none, cs)
  match fraction with
  | none => none
  | some (fs?, rest) =>
    let fs := fs?.getD []
    let m := digitsValue 10 (whole ++ fs)
    let exponent : Option (Option Int × List Char) := match rest with
      | 'e' :: rest => (readExponent rest).map fun (e, rest) => (some e, rest)
      | 'E' :: rest => (readExponent rest).map fun (e, rest) => (some e, rest)
      | rest => some (none, rest)
    match exponent with
    | none => none
    | some (e?, rest) =>
      if fs?.isNone && e?.isNone then (integer? negative m).map fun j => (j, rest)
      else (float? negative m (e?.getD 0 - fs.length)).map fun j => (j, rest)

/-- The number that a text begins with. -/
def readNumber (cs : List Char) : Option (Json × List Char) :=
  let based (base : Nat) (isDigit : Char → Bool) (cs : List Char) : Option (Json × List Char) :=
    match readDigits isDigit cs with
    | some (ds, rest) => (integer? false (digitsValue base ds)).map fun j => (j, rest)
    | none => none
  match cs with
  | '0' :: 'x' :: cs => based 16 (fun c => (Octets.hexValue? c).isSome) cs
  | '0' :: 'o' :: cs => based 8 (fun c => '0' ≤ c && c ≤ '7') cs
  | '0' :: 'b' :: cs => based 2 (fun c => c = '0' || c = '1') cs
  | cs =>
    let (negative, cs) := readSign cs
    match cs with
    | 'i' :: 'n' :: 'f' :: rest =>
      some (.float (.ofFloat (if negative then -1.0 / 0.0 else 1.0 / 0.0)), rest)
    | 'n' :: 'a' :: 'n' :: rest => some (.float (.ofFloat (0.0 / 0.0)), rest)
    | cs =>
      match readWhole cs with
      | some (ds, rest) => readDecimal negative ds rest
      | none => none

/-- The truth value that a text begins with. -/
def readBool (cs : List Char) : Option (Json × List Char) :=
  match cs with
  | 't' :: 'r' :: 'u' :: 'e' :: rest => some (.bool true, rest)
  | 'f' :: 'a' :: 'l' :: 's' :: 'e' :: rest => some (.bool false, rest)
  | _ => none

/-! ## Dates and times -/

/-- Exactly `n` decimal digits, as a number that lies between two bounds. -/
def readFixed (n low high : Nat) (cs : List Char) : Option (Nat × List Char) :=
  let ds := cs.take n
  if ds.length = n ∧ ds.all Char.isDigit then
    let v := digitsValue 10 ds
    if low ≤ v ∧ v ≤ high then some (v, cs.drop n) else none
  else none

/-- The number of days of a month. -/
def daysOf (year month : Nat) : Nat :=
  if month = 2 then
    if year % 4 = 0 ∧ (year % 100 ≠ 0 ∨ year % 400 = 0) then 29 else 28
  else if month ∈ [4, 6, 9, 11] then 30
  else 31

/-- The rest of a text after a character. -/
def after? (c : Char) : List Char → Option (List Char)
  | d :: cs => if d = c then some cs else none
  | [] => none

/-- The rest of a text after the date that it begins with. -/
def skipDate (cs : List Char) : Option (List Char) := do
  let (year, cs) ← readFixed 4 0 9999 cs
  let cs ← after? '-' cs
  let (month, cs) ← readFixed 2 1 12 cs
  let cs ← after? '-' cs
  let (_, cs) ← readFixed 2 1 (daysOf year month) cs
  return cs

/-- The rest of a text after the time of day that it begins with. -/
def skipTime (cs : List Char) : Option (List Char) := do
  let (_, cs) ← readFixed 2 0 23 cs
  let cs ← after? ':' cs
  let (_, cs) ← readFixed 2 0 59 cs
  let cs ← after? ':' cs
  let (_, cs) ← readFixed 2 0 60 cs
  match cs with
  | '.' :: c :: cs =>
    if c.isDigit then return cs.dropWhile Char.isDigit else none
  | cs => return cs

/-- The rest of a text after the offset from universal time that it begins with. -/
def skipOffset (cs : List Char) : Option (List Char) :=
  match cs with
  | 'Z' :: cs => some cs
  | 'z' :: cs => some cs
  | '+' :: cs => hours cs
  | '-' :: cs => hours cs
  | _ => none
where
  /-- The rest of a text after hours and minutes. -/
  hours (cs : List Char) : Option (List Char) := do
    let (_, cs) ← readFixed 2 0 23 cs
    let cs ← after? ':' cs
    let (_, cs) ← readFixed 2 0 59 cs
    return cs

/-- The rest of a text after the date, time, or both that it begins with. -/
def skipDateTime (cs : List Char) : Option (List Char) :=
  match skipDate cs with
  | none => skipTime cs
  | some rest =>
    let time? := match rest with
      | 'T' :: cs => skipTime cs
      | 't' :: cs => skipTime cs
      | ' ' :: cs => skipTime cs
      | _ => none
    match time? with
    | none => some rest
    | some rest => some ((skipOffset rest).getD rest)

/-- The field that holds the text of a date or time. -/
def dateTimeField := "$date-time"

/-- The date or time that a text begins with. -/
def readDateTime (cs : List Char) : Option (Json × List Char) :=
  (skipDateTime cs).map fun rest =>
    (.obj [(dateTimeField, .str (String.ofList (cs.take (cs.length - rest.length))))], rest)

end Correlator.Toml
