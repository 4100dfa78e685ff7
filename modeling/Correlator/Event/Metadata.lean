import Correlator.Event.Endpoint
import Correlator.Json.Reader
import Correlator.Key

/-!
# Metadata

The attributes of an event: values by name, in an order of their own. A name keeps the place of
its first insertion, and its value is the last that was written.

* `Metadata.ofDeclared`: names paired with the values at the same positions.
* `Metadata.insert`, `Metadata.get?`, `Metadata.names`.
* `Metadata.withEndpoint`, `Metadata.withDownloadPath`: what the protocol and a download add.
* `Metadata.project`: the attributes with given names, in the order of those names.
* `Metadata.text?`: the text of an attribute.
* `Metadata.render`, `Metadata.parse?`: the written form, and back.

A name that is asked for but absent is recorded with the value `null`, so every declared name is
present.
-/

namespace Correlator

/-- Values by name, in the order of first insertion. -/
structure Metadata where
  entries : List (String × Json)
  deriving Inhabited

namespace Metadata

/-! ## Names that the protocol fills in -/

/-- The method of the message. -/
def methodName := "HTTP_METHOD"

/-- The host it goes to. -/
def hostName := "HTTP_HOST"

/-- The port, as a number. -/
def portName := "HTTP_PORT"

/-- The protocol. -/
def protocolName := "PROTOCOL"

/-- The path. -/
def pathName := "TO"

/-- The status of a response, as a text. -/
def statusName := "HTTP_STATUS_CODE"

/-- Where the body was written. -/
def downloadPathName := "download.path"

/-- The id under which a request waits for its reply. -/
def messageIdName := "message.id"

/-! ## Reading and writing single attributes -/

/-- No attributes. -/
def empty : Metadata := ⟨[]⟩

/-- The attribute names in order. -/
def names (m : Metadata) : List String := m.entries.map (·.1)

/-- The value of an attribute. -/
def get? (m : Metadata) (name : String) : Option Json := m.entries.lookup name

/-- Whether there is an attribute of this name, be its value `null`. -/
def contains (m : Metadata) (name : String) : Bool := (m.get? name).isSome

/-- Entries with one value set: in place if the name is there, else at the end. -/
def put (name : String) (value : Json) : List (String × Json) → List (String × Json)
  | [] => [(name, value)]
  | (n, v) :: rest => if n = name then (n, value) :: rest else (n, v) :: put name value rest

/-- Metadata with one attribute set. -/
def insert (m : Metadata) (name : String) (value : Json) : Metadata :=
  ⟨put name value m.entries⟩

/-- Metadata with several attributes set, one after the other. -/
def insertAll (m : Metadata) (pairs : List (String × Json)) : Metadata :=
  pairs.foldl (fun m (name, value) => m.insert name value) m

/-- The metadata that a list of pairs stands for. -/
def ofPairs (pairs : List (String × Json)) : Metadata := empty.insertAll pairs

/-- The text of an attribute: a string as it is, any other value in its written form, and none
for `null`. -/
def text? (m : Metadata) (name : String) : Option String :=
  match m.get? name with
  | none => none
  | some .null => none
  | some (.str s) => some s
  | some j => some j.render

/-! ## Metadata as a whole -/

/-- Names paired with the values at the same positions, `null` where there is none. -/
def ofDeclared : List String → List Json → Metadata :=
  go empty
where
  /-- The same, after the attributes that are there already. -/
  go (m : Metadata) : List String → List Json → Metadata
    | [], _ => m
    | name :: names, [] => go (m.insert name .null) names []
    | name :: names, v :: vs => go (m.insert name v) names vs

/-- The fields that the protocol fills in; the status only of a response. -/
def endpointFields (e : Endpoint) : List (String × Json) :=
  [(methodName, .str e.method), (hostName, .str e.host), (portName, .int e.port),
    (protocolName, .str e.protocol), (pathName, .str e.path)] ++
  match e.status? with
  | some status => [(statusName, .str (Key.statusText status))]
  | none => []

/-- Metadata with the facts of an endpoint. -/
def withEndpoint (m : Metadata) (e : Endpoint) : Metadata := m.insertAll (endpointFields e)

/-- Metadata with the place where the body of a response was written. -/
def withDownloadPath (m : Metadata) (path : String) : Metadata :=
  m.insert downloadPathName (.str path)

/-- The attributes with the given names, in their order; what is absent is `null`. -/
def project (m : Metadata) (names : List String) : Metadata :=
  ofPairs (names.map fun name => (name, (m.get? name).getD .null))

/-- Equality: the same names with equal values, in any order. -/
def same (m m' : Metadata) : Bool :=
  m.entries.length == m'.entries.length &&
    m.entries.all fun (name, value) =>
      match m'.get? name with
      | some value' => value.same value'
      | none => false

/-! ## Written form -/

/-- The field under which the entries stand in the written form. -/
def entriesField := "entries"

/-- The written form: an object with the entries, in their order, in one field. -/
def render (m : Metadata) : String :=
  (Json.obj [(entriesField, .obj m.entries)]).render

/-- Entries that a text begins with, after the brace that opens them. -/
def readEntries (depth : Nat) (cs : List Char) : Option (Metadata × List Char) :=
  match Json.skipBlanks cs with
  | '\x7b' :: cs =>
    if depth = 0 then none
    else
      match Json.skipBlanks cs with
      | '\x7d' :: rest => some (empty, rest)
      | cs => (Json.readFields (depth - 1) (Json.allowance cs) cs).map fun (fs, rest) =>
          (ofPairs fs, rest)
  | _ => none

/-- The fields of a written form up to and without the brace that closes it. The entries have to
stand there once; other fields are not looked at. -/
def readForm (found : Option Metadata) : Nat → List Char → Option (Metadata × List Char)
  | 0, _ => none
  | fuel + 1, cs =>
    match Json.readKey cs with
    | none => none
    | some (key, rest) =>
      let read : Option (Option Metadata × List Char) :=
        if key = entriesField then
          if found.isSome then none
          else (readEntries (Json.maxDepth - 1) rest).map fun (m, rest) => (some m, rest)
        else (Json.skip rest).map fun rest => (found, rest)
      match read with
      | none => none
      | some (found, rest) =>
        match Json.skipBlanks rest with
        | ',' :: rest => readForm found fuel rest
        | '\x7d' :: rest => found.map fun m => (m, rest)
        | _ => none

/-- The metadata that a text stands for. The entries may also stand alone in an array. -/
def parse? (s : String) : Option Metadata :=
  let read : Option (Metadata × List Char) :=
    match Json.skipBlanks s.toList with
    | '\x7b' :: cs =>
      match Json.skipBlanks cs with
      | '\x7d' :: _ => none
      | cs => readForm none (cs.length + 1) cs
    | '[' :: cs =>
      match readEntries (Json.maxDepth - 1) cs with
      | some (m, rest) =>
        match Json.skipBlanks rest with
        | ']' :: rest => some (m, rest)
        | _ => none
      | none => none
    | _ => none
  match read with
  | some (m, rest) => if (Json.skipBlanks rest).isEmpty then some m else none
  | none => none

end Metadata

end Correlator
