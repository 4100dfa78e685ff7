import Correlator.Event.Basic
import Correlator.Message
import Correlator.Meter

/-!
# Dispatch

What becomes of a request that came in: its body is read, and it goes to the consumer as an event
with the declared attributes.

* `Dispatch.seed`: the values that the attributes are taken from: what the caller gives, and the
  headers where the caller gives nothing.
* `Dispatch.event`: the event of a payload.
* `Dispatch.conclude`: what follows from the reading of the body.
* `Dispatch.run`: a whole dispatch.
-/

namespace Correlator

/-- What became of a request's body. -/
inductive DispatchOutcome
  | forwarded
  | emptyPayload
  | readFailed
  deriving DecidableEq, Repr

/-- A request to be dispatched: the declared attributes, the values given besides the headers, and
where the request came in. -/
structure Dispatch where
  attributes : List String
  given : Metadata
  endpoint : Endpoint
  headers : List HeaderField
  deriving Inhabited

namespace Dispatch

/-- Metadata with a header, unless there is a value of this name or the header is no text. -/
def addHeader (m : Metadata) (h : HeaderField) : Metadata :=
  match HeaderValue.text? h.value with
  | some text => if m.contains h.name then m else m.insert h.name (.str text)
  | none => m

/-- The values that the attributes are taken from. -/
def seed (d : Dispatch) : Metadata := d.headers.foldl addHeader d.given

/-- The event of a payload. -/
def event (d : Dispatch) (payload : String) : Event :=
  ⟨payload, (d.seed.project d.attributes).withEndpoint d.endpoint⟩

/-- What follows from the reading of the body: the outcome, the event to be forwarded, and the
counter that moves. -/
def conclude (d : Dispatch) (read : Except Fault String) :
    DispatchOutcome × Option Event × Option Series :=
  match read with
  | .error _ => (.readFailed, none, some (.eventsDropped .readFailed))
  | .ok payload =>
    if payload.isEmpty then (.emptyPayload, none, some (.eventsDropped .emptyPayload))
    else (.forwarded, some (d.event payload), none)

/-- A whole dispatch of a request with its body. -/
def run (d : Dispatch) (body : Body) (limit : Nat) :
    DispatchOutcome × Option Event × Option Series :=
  d.conclude (body.payload limit)

end Dispatch

end Correlator
