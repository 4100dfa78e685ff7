import Correlator.Key

/-!
# Faults

What can go wrong while elements are set up and messages pass through them.

* `Fault`: the causes.
* `Fault.message`: the text of a fault.
* `Fault.mayRetry`: whether the sender may try again.
-/

namespace Correlator

/-- A cause of failure. -/
inductive Fault
  /-- A parameter of an element is missing or invalid. -/
  | configuration (reason : String)
  /-- A listener is registered under the key already. -/
  | duplicate (key : Key)
  /-- The request could not be delivered, or its response was not obtained. -/
  | unavailable (url reason : String)
  /-- The request could not be built. -/
  | invalidRequest (reason : String)
  /-- The payload of a message could not be read. -/
  | payload (reason : String)
  /-- The worker pool was closed before the job could run. -/
  | poolClosed
  /-- The task that was to resolve a send ended without doing so. -/
  | aborted
  /-- There is no room for so many headers, and whoever makes a block of them breaks down. -/
  | overflow
  deriving DecidableEq, Repr, Inhabited

namespace Fault

/-- The text of a fault. -/
def message : Fault → String
  | .configuration reason => "Configuration error: " ++ reason
  | .duplicate key => "There is a connection already established for " ++ key.text
  | .unavailable url reason => "Connection unavailable for " ++ url ++ ": " ++ reason
  | .invalidRequest reason => "Invalid request: " ++ reason
  | .payload reason => "Payload error: " ++ reason
  | .poolClosed => "Worker pool closed"
  | .aborted => "Delivery task aborted"
  | .overflow => "size overflows MAX_SIZE"

/-- Whether the sender may try again: only a connection that was not to be had may come later. -/
def mayRetry : Fault → Bool
  | .unavailable _ _ => true
  | _ => false

end Fault

end Correlator
