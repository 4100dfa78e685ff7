/-!
# Correlation keys

The address of a registered listener: the id of the sink or source that owns it, and perhaps a
refinement, such as the status of the responses that it takes.

* `Key.plain`, `Key.refined`, `Key.forStatus`: the keys of an owner.
* `Key.text`: `owner`, or `owner[refinement]`.

Keys are equal only if both of their parts are. Their texts do not tell all of them apart: an
owner id may itself read like the text of another key.
-/

namespace Correlator

/-- The address of a registered listener. -/
structure Key where
  owner : String
  refinement? : Option String
  deriving DecidableEq, Repr, Inhabited

namespace Key

/-- The key of any response for an owner. -/
def plain (owner : String) : Key := ⟨owner, none⟩

/-- The key of the responses with one refinement. -/
def refined (owner refinement : String) : Key := ⟨owner, some refinement⟩

/-- The decimal text of a status. -/
def statusText (status : Nat) : String := String.ofList (Nat.toDigits 10 status)

/-- The key of the responses with one status. -/
def forStatus (owner : String) (status : Nat) : Key := refined owner (statusText status)

/-- Whether the key has a refinement. -/
def isRefined (k : Key) : Bool := k.refinement?.isSome

/-- The key without its refinement. -/
def unrefined (k : Key) : Key := plain k.owner

/-- The text of a key. -/
def text (k : Key) : String :=
  match k.refinement? with
  | some r => k.owner ++ "[" ++ r ++ "]"
  | none => k.owner

@[simp] theorem unrefined_plain (owner : String) : (plain owner).unrefined = plain owner := rfl

@[simp] theorem unrefined_refined (owner r : String) : (refined owner r).unrefined = plain owner :=
  rfl

end Key

end Correlator
