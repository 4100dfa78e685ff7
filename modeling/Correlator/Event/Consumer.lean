import Correlator.Event.Basic

/-!
# Consumers

* `Consumer`: who takes the events of a source or a sink. A consumer that fails on an event does not
  take it, and whatever hands it the event fails with it.
* `Consumer.steady`: a consumer that takes every event.
-/

namespace Correlator

/-- Who takes events: its name, and on which of them it fails. -/
structure Consumer where
  name : String
  fails : Event → Bool
  deriving Inhabited

/-- A consumer that never fails. -/
def Consumer.steady (name : String) : Consumer := ⟨name, fun _ => false⟩

end Correlator
