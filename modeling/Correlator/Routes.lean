import Correlator.Fault

/-!
# Routes

Which handler serves which path of the inbound listener.

* `Routes.bind`: a handler at a free path.
* `Routes.unbind?`: a path given up on behalf of the pipeline that bound it.
* `Routes.get?`: the handler at a path.
-/

namespace Correlator

/-- A path, the pipeline that bound it, and what serves it. -/
structure Route (α : Type) where
  path : String
  owner : String
  handler : α
  deriving Repr

/-- Handlers by path. -/
structure Routes (α : Type) where
  routes : List (Route α)
  deriving Repr

namespace Routes

/-- No routes. -/
def empty : Routes α := ⟨[]⟩

instance : Inhabited (Routes α) := ⟨empty⟩

/-- The paths that are bound. -/
def paths (r : Routes α) : List String := r.routes.map (·.path)

/-- The number of routes. -/
def size (r : Routes α) : Nat := r.routes.length

/-- The route of a path. -/
def find? (r : Routes α) (path : String) : Option (Route α) :=
  r.routes.find? fun route => route.path = path

/-- The handler at a path. -/
def get? (r : Routes α) (path : String) : Option α := (r.find? path).map (·.handler)

/-- The routes with one more, unless its path is bound. -/
def bind (r : Routes α) (path owner : String) (handler : α) : Except Fault (Routes α) :=
  if (r.find? path).isSome then
    .error (.configuration ("inbound path '" ++ path ++ "' is already bound"))
  else .ok ⟨r.routes ++ [⟨path, owner, handler⟩]⟩

/-- The routes without a path, if the pipeline bound it. -/
def unbind? (r : Routes α) (path owner : String) : Option (Routes α) :=
  match r.find? path with
  | some route =>
    if route.owner = owner then some ⟨r.routes.filter fun route => route.path ≠ path⟩ else none
  | none => none

end Routes

end Correlator
