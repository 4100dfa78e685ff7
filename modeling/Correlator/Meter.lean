import Correlator.Key

/-!
# Meters

Counters of what passes through, and one gauge.

* `Series`: a counter or gauge with its label.
* `Meter.count`, `Meter.set`: a counter moved on by one, a gauge set.
* `Meter.readings`: the value of each series that was ever touched, in the order of their texts.
-/

namespace Correlator

/-- Why an event was dropped. -/
inductive DropReason
  | emptyPayload
  | readFailed
  | missingMessageId
  deriving DecidableEq, Repr

/-- The label of a reason. -/
def DropReason.label : DropReason → String
  | .emptyPayload => "empty_payload"
  | .readFailed => "read_failed"
  | .missingMessageId => "missing_message_id"

/-- A counter or gauge. -/
inductive Series
  /-- Requests sent by a sink. -/
  | requestsSent (sink : String)
  /-- Sends to a URL that had no response. -/
  | sendFailures (url : String)
  /-- Responses of a status that reached a consumer. -/
  | responsesDelivered (status : Nat)
  /-- Responses and replies for an owner that nobody was there for. -/
  | lookupMisses (owner : String)
  /-- Events that were dropped. -/
  | eventsDropped (reason : DropReason)
  /-- Requests that came in at a path. -/
  | inboundRequests (path : String)
  /-- Slots of the worker pool that are taken. -/
  | poolInUse
  deriving DecidableEq, Repr

namespace Series

/-- A name with one label. -/
def labelled (name label value : String) : String :=
  name ++ "\x7b" ++ label ++ "=" ++ value ++ "\x7d"

/-- The text of a series. -/
def text : Series → String
  | .requestsSent sink => labelled "bridge_requests_sent_total" "sink" sink
  | .sendFailures url => labelled "bridge_send_failures_total" "url" url
  | .responsesDelivered status =>
    labelled "bridge_responses_delivered_total" "status" (Key.statusText status)
  | .lookupMisses owner => labelled "bridge_lookup_miss_total" "owner" owner
  | .eventsDropped reason => labelled "bridge_events_dropped_total" "reason" reason.label
  | .inboundRequests path => labelled "bridge_inbound_requests_total" "path" path
  | .poolInUse => "bridge_worker_pool_in_use\x7b\x7d"

end Series

/-- The values of the series that were touched. -/
structure Meter where
  values : List (Series × Nat)
  deriving Repr

namespace Meter

/-- Nothing was touched. -/
def zero : Meter := ⟨[]⟩

instance : Inhabited Meter := ⟨zero⟩

/-- The value of a series. -/
def value (m : Meter) (s : Series) : Nat := (m.values.lookup s).getD 0

/-- Values with one of them changed. -/
def alter (s : Series) (f : Nat → Nat) : List (Series × Nat) → List (Series × Nat)
  | [] => [(s, f 0)]
  | (s', n) :: rest => if s' = s then (s', f n) :: rest else (s', n) :: alter s f rest

/-- A counter moved on by one. -/
def count (m : Meter) (s : Series) : Meter := ⟨alter s (· + 1) m.values⟩

/-- A gauge set. -/
def set (m : Meter) (s : Series) (n : Nat) : Meter := ⟨alter s (fun _ => n) m.values⟩

/-- The values in the order of the texts of their series. -/
def readings (m : Meter) : List (String × Nat) :=
  (m.values.map fun (s, n) => (s.text, n)).mergeSort fun a b => a.1 ≤ b.1

end Meter

end Correlator
