import Correlator.Delivery
import Correlator.Element.Basic

/-!
# What sinks make of events

* `RequestSink.request`: the request that stands for an event.
* `RequestSink.delivery`: what is kept of the event for the response.
* `ResponseSink.reply?`: the id of the waiting request that an event answers, and the reply.

Each template is filled in from the event, and what comes out is read as it would have been read
at first. An event without a message id answers nothing, whatever else is wrong with it.
-/

namespace Correlator

/-- What a text stands for: what was read of it at first, or what it says for an event. -/
def readFor (read : String → Except Fault α) (static? : Option α) (template : String)
    (e : Event) : Except Fault α :=
  match static? with
  | some a => .ok a
  | none => read (Template.render template e)

namespace RequestSink

/-- The request that stands for an event. -/
def request (s : RequestSink) (e : Event) : Except Fault Request := do
  let url ← readFor readUrl s.url? s.config.url e
  let headers ← readFor Listing.read s.headers? s.config.headers e
  let body := Octets.ofString e.payload
  let fields ← Block.make headers s.config.mapping? body.length
  return ⟨s.method, url, fields, body⟩

/-- The file that the body of the response is saved to. -/
def downloadPath? (s : RequestSink) (e : Event) : Option String :=
  if s.config.download then s.config.downloadPath?.map fun path => Template.render path e
  else none

/-- Where the event of the response goes. -/
def target (s : RequestSink) : DeliveryTarget Consumer :=
  match s.consumer? with
  | some consumer => .direct consumer
  | none => .registered s.config.sinkId

/-- What is kept of an event for the response to its request. -/
def delivery (s : RequestSink) (e : Event) (url : Url) (limit : Nat) : Delivery Consumer :=
  ⟨url.text, s.target, e.metadata.project s.config.attributes, s.downloadPath? e, limit⟩

/-- The fault of a sink that is not active. -/
def notReady (s : RequestSink) : Fault :=
  .configuration ("sink '" ++ s.config.sinkId ++ "' is not initialized")

end RequestSink

namespace ResponseSink

/-- The id of the request that an event answers, and the reply; none if the event has no id. -/
def reply? (s : ResponseSink) (e : Event) : Except Fault (Option (String × Reply)) := do
  let id := Template.render s.config.messageId e
  if id.isEmpty then return none
  let headers ← readFor Listing.read s.headers? s.config.headers e
  let body := Octets.ofString e.payload
  let fields ← Block.make headers s.config.mapping? body.length
  return some (id, ⟨s.config.status, fields, body⟩)

/-- The fault of a sink that is not active. -/
def notReady (s : ResponseSink) : Fault :=
  .configuration ("response sink for '" ++ s.config.sourceId ++ "' is not initialized")

end ResponseSink

/-- The fault of an element that takes no events. -/
def Element.takesNoEvents (e : Element) : Fault :=
  .invalidRequest (e.kind.name ++ " '" ++ e.id ++ "' does not accept events")

end Correlator
