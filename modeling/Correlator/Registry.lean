import Correlator.Fault

/-!
# Registries

A table of listeners by correlation key. A key is taken at most once, and whoever registered a
listener is the only one who can remove it.

* `Listener`: a handler with the pipeline that registered it.
* `Registry.register`: a listener under a free key.
* `Registry.lookup?`, `Registry.resolve?`: the listener of a key, and of a response: first with its
  refinement, then without.
* `Registry.unregister?`: a listener taken out on behalf of its owner. The handler is given back,
  since it is disconnected only after it has left the table.
-/

namespace Correlator

/-- A registered handler: its key, the pipeline that registered it, and whether it expects
downloaded files. -/
structure Listener (α : Type) where
  key : Key
  owner : String
  download : Bool
  handler : α
  deriving Repr

/-- Listeners by key. -/
structure Registry (α : Type) where
  listeners : List (Listener α)
  deriving Repr

namespace Registry

/-- No listeners. -/
def empty : Registry α := ⟨[]⟩

instance : Inhabited (Registry α) := ⟨empty⟩

/-- The keys that are taken. -/
def keys (r : Registry α) : List Key := r.listeners.map (·.key)

/-- The number of listeners. -/
def size (r : Registry α) : Nat := r.listeners.length

/-- The listener of exactly this key. -/
def lookup? (r : Registry α) (k : Key) : Option (Listener α) :=
  r.listeners.find? fun l => l.key = k

/-- Whether the key is taken. -/
def contains (r : Registry α) (k : Key) : Bool := (r.lookup? k).isSome

/-- The registry with one more listener, unless its key is taken. -/
def register (r : Registry α) (l : Listener α) : Except Fault (Registry α) :=
  if r.contains l.key then .error (.duplicate l.key) else .ok ⟨r.listeners ++ [l]⟩

/-- The listener of a response: the one of the refined key, or else of the owner alone. -/
def resolve? (r : Registry α) (owner : String) (refinement? : Option String) :
    Option (Listener α) :=
  match refinement? with
  | some refinement =>
    match r.lookup? (.refined owner refinement) with
    | some l => some l
    | none => r.lookup? (.plain owner)
  | none => r.lookup? (.plain owner)

/-- The listener that is taken out and the registry without it, if the pipeline owns it. -/
def unregister? (r : Registry α) (k : Key) (pipeline : String) :
    Option (Listener α × Registry α) :=
  match r.lookup? k with
  | some l =>
    if l.owner = pipeline then some (l, ⟨r.listeners.filter fun l => l.key ≠ k⟩) else none
  | none => none

end Registry

end Correlator
