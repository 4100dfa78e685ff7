import Correlator.Json.Value

/-!
# Tables in the making

While a document is read, its tables are kept with the way in which they came about, since that
decides who may add to them.

* `Toml.Node`: a value, a table, or an array of tables.
* `Toml.descend`: work on the table at a path, making the tables on the way that are not there.
* `Toml.addPair`: a value under a dotted key.
* `Toml.openTable`, `Toml.openItem`, `Toml.close`: what the headers of tables do.
* `Toml.Node.value`: the value that a node stands for.
-/

namespace Correlator.Toml

/-- A part of a document. -/
inductive Node
  /-- A value; an array or table that is written in one piece is closed. -/
  | value (j : Json)
  /-- A table: whether it came about only on the way to another one, and whether it did so in a
  dotted key. -/
  | table (implied dotted : Bool) (fields : List (String × Node))
  /-- An array of tables, last table first. -/
  | tables (items : List (List (String × Node)))
  deriving Inhabited

/-- The fields of a table. -/
abbrev Fields := List (String × Node)

/-- Fields with one of them set. -/
def putNode (k : String) (n : Node) : Fields → Fields
  | [] => [(k, n)]
  | (k', n') :: rest => if k' = k then (k, n) :: rest else (k', n') :: putNode k n rest

/-- Work on the fields of the table at a path. In a dotted key, only tables that came about on
the way may be entered. The work is told whether the table comes from a dotted key. -/
def descend (dotted : Bool) (work : Bool → Fields → Option Fields) :
    List String → Bool → Fields → Option Fields
  | [], isDotted, fields => work isDotted fields
  | k :: path, _, fields =>
    match fields.lookup k with
    | none => (descend dotted work path dotted []).map fun inner =>
        putNode k (.table true dotted inner) fields
    | some (.value _) => none
    | some (.tables []) => none
    | some (.tables (item :: items)) => (descend dotted work path false item).map fun item =>
        putNode k (.tables (item :: items)) fields
    | some (.table implied isDotted inner) =>
      if dotted && !implied then none
      else (descend dotted work path isDotted inner).map fun inner =>
        putNode k (.table implied isDotted inner) fields

/-- Fields with a value under a dotted key, which must not be there yet. A table that a header
has made takes no dotted keys from outside. -/
def addPair (path : List String) (k : String) (j : Json) (fields : Fields) : Option Fields :=
  descend true (fun isDotted fields =>
    if isDotted == path.isEmpty then none
    else if (fields.lookup k).isSome then none
    else some (fields ++ [(k, .value j)])) path false fields

/-- A document and the table that is under way: its path, whether it is an item of an array of
tables, and its fields. -/
structure Draft where
  root : Fields
  path : List String
  isItem : Bool
  fields : Fields

/-- Nothing has been read. -/
def Draft.start : Draft := ⟨[], [], false, []⟩

/-- The document with the table under way put at its place. -/
def Draft.close (d : Draft) : Option Fields :=
  match d.path.getLast? with
  | none => some d.fields
  | some k =>
    descend false (fun _ parent =>
      if d.isItem then
        match parent.lookup k with
        | some (.tables items) => some (putNode k (.tables (d.fields :: items)) parent)
        | none => some (putNode k (.tables [d.fields]) parent)
        | _ => none
      else
        match parent.lookup k with
        | none => some (putNode k (.table false false d.fields) parent)
        | some (.table true _ _) => some (putNode k (.table false false d.fields) parent)
        | _ => none) d.path.dropLast false d.root

/-- The draft after the header of a table: the table must not be there, unless it only came about
on the way to one of its own tables. -/
def Draft.openTable (d : Draft) (path : List String) : Option Draft := do
  let root ← d.close
  let k ← path.getLast?
  -- the way is made first, then the fields that are there already are moved to the new table
  let root ← descend false (fun _ parent => some parent) path.dropLast false root
  match node? path root with
  | none => return ⟨root, path, false, []⟩
  | some (.table true false fields) =>
    let root ← descend false (fun _ parent => some (parent.filter fun (k', _) => k' != k))
      path.dropLast false root
    return ⟨root, path, false, fields⟩
  | some _ => none
where
  /-- The node at a path. -/
  node? : List String → Fields → Option Node
    | [], _ => none
    | [k], fields => fields.lookup k
    | k :: path, fields =>
      match fields.lookup k with
      | some (.table _ _ inner) => node? path inner
      | some (.tables (item :: _)) => node? path item
      | _ => none

/-- The draft after the header of an item of an array of tables. -/
def Draft.openItem (d : Draft) (path : List String) : Option Draft := do
  let root ← d.close
  let k ← path.getLast?
  let root ← descend false (fun _ parent =>
    match parent.lookup k with
    | none => some parent
    | some (.tables _) => some parent
    | _ => none) path.dropLast false root
  return ⟨root, path, true, []⟩

mutual

/-- The value that a node stands for. -/
def Node.toJson : Node → Json
  | .value j => j
  | .table _ _ fields => Json.ofPairs (fieldsToJson fields)
  | .tables items => .arr (itemsToJson items).reverse

/-- The values of fields. -/
def fieldsToJson : List (String × Node) → List (String × Json)
  | [] => []
  | (k, n) :: rest => (k, n.toJson) :: fieldsToJson rest

/-- The values of tables. -/
def itemsToJson : List (List (String × Node)) → List Json
  | [] => []
  | fields :: rest => Json.ofPairs (fieldsToJson fields) :: itemsToJson rest

end

end Correlator.Toml
