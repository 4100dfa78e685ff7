import Correlator.Event.Basic
import Correlator.Message
import Correlator.Meter
import Correlator.Registry
import Correlator.Send

/-!
# Delivery

What becomes of the response to a send: its body is read, or saved to a file, and it goes as an
event to the sender's own consumer or to the listener of its status.

* `DeliveryTarget`: where the event goes.
* `Delivery`: what a send keeps for its response.
* `Delivery.begin`: the response's body about to be taken in.
* `Delivery.conclude`: what follows once it was.
* `Delivery.route`: who takes the event, if anybody does.
* `Delivery.run`: a whole delivery.

A connection that failed is counted by its URL, a body that cannot be read as a dropped event. A
file that cannot be written is counted nowhere.
-/

namespace Correlator

/-- Where the event of a response goes. -/
inductive DeliveryTarget (α : Type)
  /-- To the sender's own consumer. -/
  | direct (consumer : α)
  /-- To the listener of the owner and the response's status. -/
  | registered (owner : String)
  deriving Repr

/-- What a send keeps for its response. -/
structure Delivery (α : Type) where
  url : String
  target : DeliveryTarget α
  /-- The attributes that the event carries on. -/
  metadata : Metadata
  /-- The file that the body is saved to. -/
  download? : Option String
  limit : Nat

/-- What follows from a response. -/
inductive DeliveryStep (α : Type)
  /-- The send is resolved, and perhaps a counter moves. -/
  | resolved (state : SendState) (moved? : Option Series)
  /-- An event is to be handed on. -/
  | hand (status : Nat) (event : Event)

namespace Delivery

/-- The status of a message; one without counts as zero. -/
def statusOf (e : Endpoint) : Nat := e.status?.getD 0

/-- The state of a send whose request failed. -/
def refuse (d : Delivery α) (fault : Fault) : SendState × Series :=
  (.failed fault, .sendFailures d.url)

/-- The body of the response about to be taken in. -/
def begin (d : Delivery α) (files : FileTree) : Except Fault Intake × FileTree :=
  match d.download? with
  | some path => Intake.saving files path
  | none => (.ok (.collecting d.limit), files)

/-- The metadata of the event. -/
def metadataFor (d : Delivery α) (e : Endpoint) : Metadata :=
  let m := d.metadata.withEndpoint e
  match d.download? with
  | some path => m.withDownloadPath path
  | none => m

/-- What follows once the body was taken in. The payload of a download is the file's path. -/
def conclude (d : Delivery α) (e : Endpoint) (result : Except Fault Taken) : DeliveryStep α :=
  let hand (payload : String) : DeliveryStep α :=
    if payload.isEmpty then
      .resolved (.delivered (statusOf e) .emptyPayload) (some (.eventsDropped .emptyPayload))
    else .hand (statusOf e) ⟨payload, d.metadataFor e⟩
  match d.download?, result with
  | some _, .error fault => .resolved (.failed fault) none
  | none, .error fault => .resolved (.failed fault) (some (.eventsDropped .readFailed))
  | some path, .ok _ => hand path
  | none, .ok (.text payload) => hand payload
  | none, .ok (.saved _) => hand ""

/-- Who takes an event: the sender's own consumer, or the listener of the status. -/
def route (d : Delivery α) (registry : Registry β) (status : Nat) : Option (α ⊕ β) :=
  match d.target with
  | .direct consumer => some (.inl consumer)
  | .registered owner =>
    (registry.resolve? owner (some (Key.statusText status))).map fun l => .inr l.handler

/-- The state of a send whose event was taken, or was not because nobody listens, and the counter
that moves. -/
def settled (d : Delivery α) (status : Nat) (taken : Bool) : SendState × Series :=
  if taken then (.delivered status .consumed, .responsesDelivered status)
  else
    match d.target with
    | .registered owner => (.delivered status .noListener, .lookupMisses owner)
    | .direct _ => (.delivered status .consumed, .responsesDelivered status)

/-! ## Whole deliveries -/

/-- What came of a whole delivery: the state of the send, the event that was handed on with who
took it, the counter that moved, and the files. -/
structure Report (α β : Type) where
  state : SendState
  handed? : Option ((α ⊕ β) × Event)
  moved? : Option Series
  files : FileTree

/-- What follows from a step, where whoever is handed an event takes it. -/
def report (d : Delivery α) (registry : Registry β) (files : FileTree) :
    DeliveryStep α → Report α β
  | .resolved state moved? => ⟨state, none, moved?, files⟩
  | .hand status e =>
    let taker? := d.route registry status
    let (state, moved) := d.settled status taker?.isSome
    ⟨state, taker?.map fun taker => (taker, e), some moved, files⟩

/-- A whole delivery: of a response with its body, or of the fault that came instead. -/
def run (d : Delivery α) (registry : Registry β) (files : FileTree)
    (result : Except Fault Message) : Report α β :=
  match result with
  | .error fault =>
    let (state, moved) := d.refuse fault
    ⟨state, none, some moved, files⟩
  | .ok message =>
    match d.begin files with
    | (.error fault, files) => d.report registry files (d.conclude message.endpoint (.error fault))
    | (.ok intake, files) =>
      let (taken, files) := intake.runThrough files message.body
      d.report registry files (d.conclude message.endpoint taken)

end Delivery

end Correlator
