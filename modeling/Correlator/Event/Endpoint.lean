/-!
# Endpoints

* `Endpoint`: the facts that the protocol knows of a message: its method, where it is going, and
  the status if it is a response.
-/

namespace Correlator

/-- Where a message comes from or goes to, as far as the protocol knows. -/
structure Endpoint where
  method : String
  host : String
  port : Nat
  protocol : String
  path : String
  status? : Option Nat
  deriving DecidableEq, Repr, Inhabited

/-- The endpoint of a response with the given status. -/
def Endpoint.withStatus (e : Endpoint) (status : Nat) : Endpoint :=
  { e with status? := some status }

end Correlator
