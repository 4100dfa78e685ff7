import Correlator.Decimal.Layout

/-!
# JSON values

* `Json`: a JSON value. Whole numbers and doubles are told apart, so that `1` and `1.0` differ.
* `Json.ofPairs`: the object with the given fields; its keys come in the order of their code
  points, and of a key that is given twice the last value counts.
* `Json.same`: equality, in which the two zeros of the doubles are one number.
-/

namespace Correlator

/-- A JSON value. -/
inductive Json
  | null
  | bool (b : Bool)
  | int (n : Int)
  | float (x : Double)
  | str (s : String)
  | arr (items : List Json)
  | obj (fields : List (String × Json))
  deriving Repr, Inhabited

namespace Json

/-- Fields in the order of their keys, with one of them set. -/
def putField (k : String) (v : Json) : List (String × Json) → List (String × Json)
  | [] => [(k, v)]
  | (k', v') :: rest =>
    if k = k' then (k, v) :: rest
    else if k < k' then (k, v) :: (k', v') :: rest
    else (k', v') :: putField k v rest

/-- The object with the given fields; of equal keys the last counts. -/
def ofPairs (pairs : List (String × Json)) : Json :=
  .obj (pairs.foldl (fun fields (k, v) => putField k v fields) [])

mutual

/-- Equality of values; doubles are compared as numbers. -/
def same : Json → Json → Bool
  | .null, .null => true
  | .bool a, .bool b => a == b
  | .int m, .int n => m == n
  | .float x, .float y => x.sameNumber y
  | .str s, .str t => s == t
  | .arr xs, .arr ys => sameItems xs ys
  | .obj xs, .obj ys => sameFields xs ys
  | _, _ => false

/-- Equality of the items of two arrays. -/
def sameItems : List Json → List Json → Bool
  | [], [] => true
  | x :: xs, y :: ys => same x y && sameItems xs ys
  | _, _ => false

/-- Equality of the fields of two objects. -/
def sameFields : List (String × Json) → List (String × Json) → Bool
  | [], [] => true
  | (k, x) :: xs, (l, y) :: ys => k == l && same x y && sameFields xs ys
  | _, _ => false

end

instance : BEq Json := ⟨same⟩

/-- The value of a field of an object. -/
def field? (j : Json) (k : String) : Option Json :=
  match j with
  | .obj fields => fields.lookup k
  | _ => none

mutual

/-- A value with every text in it, keys included, replaced. -/
def mapText (f : String → String) : Json → Json
  | .str s => .str (f s)
  | .arr items => .arr (mapTextItems f items)
  | .obj fields => .obj (mapTextFields f fields)
  | j => j

/-- The items of an array with every text replaced. -/
def mapTextItems (f : String → String) : List Json → List Json
  | [] => []
  | j :: js => mapText f j :: mapTextItems f js

/-- The fields of an object with every text replaced. -/
def mapTextFields (f : String → String) : List (String × Json) → List (String × Json)
  | [] => []
  | (k, j) :: rest => (f k, mapText f j) :: mapTextFields f rest

end

end Json

end Correlator
