import Correlator.Body
import Correlator.Event.Endpoint
import Correlator.Header.Block
import Correlator.Url.Basic

/-!
# Messages and replies

* `Message`: a request that came in, or a response that came back.
* `Request`: a request that goes out.
* `Reply`: what is written back to a waiting request.
* `Status.isValid`: the statuses that a reply may have.
-/

namespace Correlator

/-- A request that came in, or a response that came back. -/
structure Message where
  endpoint : Endpoint
  headers : List HeaderField
  body : Body
  deriving Inhabited

/-- A request that goes out. -/
structure Request where
  method : String
  url : Url
  headers : List HeaderField
  body : Octets

/-- The endpoint of a request that goes out. -/
def Request.endpoint (r : Request) : Endpoint :=
  ⟨r.method, r.url.hostText, r.url.portOrDefault?.getD 0, r.url.schemeText, r.url.pathText, none⟩

/-- What is written back to a waiting request. -/
structure Reply where
  status : Nat
  headers : List HeaderField
  body : Octets
  deriving DecidableEq, Repr, Inhabited

/-- A status has three digits. -/
def Status.isValid (status : Nat) : Bool := 100 ≤ status && status ≤ 999

/-- A reply with nothing but a status and a short text. -/
def Reply.plain (status : Nat) (text : String) : Reply := ⟨status, [], Octets.ofString text⟩

end Correlator
