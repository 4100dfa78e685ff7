import Correlator.Toml.Scalar
import Correlator.Toml.Tree

/-!
# Reading TOML

* `Toml.readKey`: a dotted key.
* `Toml.readValue`: a value; arrays may span lines, tables in one piece may not.
* `Toml.parse?`: the object that a document stands for, if it is one.
-/

namespace Correlator.Toml

/-- Arrays and tables in one piece are nested less deeply than this, and keys have fewer parts. -/
def depthLimit : Nat := 80

/-! ## Keys -/

/-- A character of a bare key. -/
def isBareChar (c : Char) : Bool := c.isAlphanum || c = '_' || c = '-'

/-- One part of a key. -/
def readKeyPart (cs : List Char) : Option (String × List Char) :=
  match cs with
  | '"' :: cs => readBasic [] (cs.length + 1) cs
  | '\'' :: cs => readLiteral cs
  | cs =>
    let bare := cs.takeWhile isBareChar
    if bare.isEmpty then none else some (String.ofList bare, cs.drop bare.length)

/-- The parts of a key, with blanks around them. -/
def readKeyParts : Nat → List Char → Option (List String × List Char)
  | 0, _ => none
  | fuel + 1, cs =>
    match readKeyPart (skipSpace cs) with
    | none => none
    | some (part, rest) =>
      match skipSpace rest with
      | '.' :: rest => (readKeyParts fuel rest).map fun (parts, rest) => (part :: parts, rest)
      | rest => some ([part], rest)

/-- A dotted key. -/
def readKey (cs : List Char) : Option (List String × List Char) :=
  match readKeyParts (cs.length + 1) cs with
  | some (parts, rest) => if parts.length < depthLimit then some (parts, rest) else none
  | none => none

/-! ## Values -/

/-- The rest of a text after blanks, comments and line ends. -/
def skipFiller : Nat → List Char → List Char
  | 0, cs => cs
  | fuel + 1, cs =>
    let cs := skipSpace cs
    match cs with
    | '#' :: _ => skipFiller fuel (skipComment cs)
    | cs =>
      match newline? cs with
      | some rest => skipFiller fuel rest
      | none => cs

/-- The rest of a text after blanks, comments and line ends. -/
def skipLines (cs : List Char) : List Char := skipFiller (cs.length + 1) cs

/-- The value that a text begins with, be it a date, a number or a truth value. -/
def readScalar (cs : List Char) : Option (Json × List Char) :=
  match cs with
  | [] => none
  | c :: _ =>
    if c = 't' ∨ c = 'f' then readBool cs
    else if c.isDigit then
      match readDateTime cs with
      | some found => some found
      | none => readNumber cs
    else if c ∈ ['+', '-', 'i', 'n'] then readNumber cs
    else none

mutual

/-- The value that a text begins with, inside of `depth` arrays and tables. -/
def readValue (depth : Nat) : Nat → List Char → Option (Json × List Char)
  | 0, _ => none
  | fuel + 1, cs =>
    match cs with
    | '[' :: cs =>
      if depthLimit ≤ depth + 1 then none
      else (readItems (depth + 1) fuel cs).map fun (js, rest) => (.arr js, rest)
    | '\x7b' :: cs =>
      if depthLimit ≤ depth + 1 then none
      else
        match skipSpace cs with
        | '\x7d' :: rest => some (.obj [], rest)
        | cs => (readPairs (depth + 1) [] fuel cs).map fun (fields, rest) =>
            (Json.ofPairs (fieldsToJson fields), rest)
    | '"' :: _ => (readString cs).map fun (s, rest) => (.str s, rest)
    | '\'' :: _ => (readString cs).map fun (s, rest) => (.str s, rest)
    | cs => readScalar cs

/-- The items of an array, up to and without the bracket that closes it. -/
def readItems (depth : Nat) : Nat → List Char → Option (List Json × List Char)
  | 0, _ => none
  | fuel + 1, cs =>
    match skipLines cs with
    | ']' :: rest => some ([], rest)
    | cs =>
      match readValue depth fuel cs with
      | none => none
      | some (j, rest) =>
        match skipLines rest with
        | ',' :: rest => (readItems depth fuel rest).map fun (js, rest) => (j :: js, rest)
        | ']' :: rest => some ([j], rest)
        | _ => none

/-- The pairs of a table in one piece, after those that have been read, up to and without the
brace that closes it. -/
def readPairs (depth : Nat) (read : Fields) : Nat → List Char → Option (Fields × List Char)
  | 0, _ => none
  | fuel + 1, cs =>
    match readKey cs with
    | none => none
    | some (path, rest) =>
      match rest with
      | '=' :: rest =>
        match readValue depth fuel (skipSpace rest) with
        | none => none
        | some (j, rest) =>
          match path.getLast? with
          | none => none
          | some k =>
            match addPair path.dropLast k j read with
            | none => none
            | some read =>
              match skipSpace rest with
              | ',' :: rest => readPairs depth read fuel rest
              | '\x7d' :: rest => some (read, rest)
              | _ => none
      | _ => none

end

/-! ## Documents -/

/-- The rest of a text after the end of a line: blanks, perhaps a comment, and the line end or the
end of the text. -/
def skipLineEnd (cs : List Char) : Option (List Char) :=
  match skipComment (skipSpace cs) with
  | [] => some []
  | cs => newline? cs

/-- The key of a header, up to and without the brackets that close it. -/
def readHeader (closing cs : List Char) : Option (List String × List Char) :=
  match readKey cs with
  | some (path, rest) =>
    if closing.isPrefixOf rest then some (path, rest.drop closing.length) else none
  | none => none

/-- What one line, or a pair that spans several, makes of a draft. -/
def readLine (d : Draft) (cs : List Char) : Option (Draft × List Char) :=
  match cs with
  | '[' :: '[' :: cs =>
    match readHeader [']', ']'] cs with
    | some (path, rest) =>
      match d.openItem path, skipLineEnd rest with
      | some d, some rest => some (d, rest)
      | _, _ => none
    | none => none
  | '[' :: cs =>
    match readHeader [']'] cs with
    | some (path, rest) =>
      match d.openTable path, skipLineEnd rest with
      | some d, some rest => some (d, rest)
      | _, _ => none
    | none => none
  | cs =>
    match readKey cs with
    | some (path, '=' :: rest) =>
      match readValue 0 (2 * rest.length + 2) (skipSpace rest) with
      | some (j, rest) =>
        match path.getLast?, skipLineEnd rest with
        | some k, some rest =>
          (addPair path.dropLast k j d.fields).map fun fields => ({ d with fields }, rest)
        | _, _ => none
      | none => none
    | _ => none

/-- What the lines of a text make of a draft. -/
def readLines (d : Draft) : Nat → List Char → Option Draft
  | 0, _ => none
  | fuel + 1, cs =>
    match skipLines cs with
    | [] => some d
    | cs =>
      match readLine d cs with
      | some (d, rest) => readLines d fuel rest
      | none => none

/-- The object that a document stands for. -/
def parse? (s : String) : Option Json :=
  let cs := match s.toList with
    | '\uFEFF' :: cs => cs
    | cs => cs
  match readLines .start (cs.length + 1) cs with
  | some d => d.close.map fun fields => Json.ofPairs (fieldsToJson fields)
  | none => none

end Correlator.Toml
