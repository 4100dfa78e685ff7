import Correlator.Dispatch
import Correlator.Event.Consumer

/-!
# Exchanges

Where the requests of one source wait for their replies. A call is made for each request: it parks
an id, checks that the exchange is open, waits for the job that dispatches the request, and then
for a reply or the end of its time.

* `Exchange.park`, `Exchange.checkOpen`, `Exchange.joined`, `Exchange.hangUp`: the steps of calls.
* `Exchange.leave`, `Exchange.letGo`, `Exchange.giveUp`: the steps of a call whose time has run out;
  `Exchange.expire`: the same at a stroke, for all of them.
* `Exchange.reply`: a reply for a parked id.
* `Exchange.close`, `Exchange.drain`, `Exchange.disconnect`: the end of an exchange.

Whoever takes an id out of the table of parked ids decides what becomes of its call, so a call is
answered once. But a call that leaves has looked for a reply for the last time before it takes its
id out: whoever takes the id out in between can still send a reply, and nobody will look at it.

A call parks before it checks, and an exchange is closed before it is drained: a call that parks
during the drain is either drained or sees that the exchange is closed.
-/

namespace Correlator

/-- How the job that dispatches a request came to its end. -/
inductive DispatchEnd
  | ran (outcome : DispatchOutcome)
  /-- The consumer failed. -/
  | crashed
  /-- The pool was closed before the job could run. -/
  | turnedAway
  deriving DecidableEq, Repr

/-- Where a call stands. -/
inductive CallPhase
  /-- Parked, and about to check that the exchange is open. -/
  | parked
  /-- Waiting for the job that dispatches the request. -/
  | dispatching
  /-- Waiting for a reply until the deadline. -/
  | waiting (deadline : Nat)
  /-- Its time was seen to have run out, and it looks for no reply any more; its id is to be taken
  out. As long as it holds its end, a reply can still be sent to it. -/
  | leaving (holds : Bool)
  | answered (reply : Reply)
  /-- The client hung up. -/
  | gone
  deriving DecidableEq, Repr

/-- A request that waits for its reply. -/
structure Call where
  id : String
  phase : CallPhase
  /-- A reply that came before the call was ready for it. -/
  early? : Option Reply
  deriving DecidableEq, Repr

/-- The requests of a source. -/
structure Exchange where
  /-- The attributes that the events of the source carry. -/
  attributes : List String
  consumer : Consumer
  isOpen : Bool
  /-- The table of parked ids. -/
  parked : List String
  calls : List Call

namespace Call

/-- A call gets the reply that was taken for it. -/
def take (c : Call) (reply : Reply) : Call :=
  match c.phase with
  | .parked => { c with early? := some reply }
  | .dispatching => { c with early? := some reply }
  | .waiting _ => { c with phase := .answered reply }
  | .leaving _ => c
  | .answered _ => c
  | .gone => c

/-- A call whose request went to the consumer: it has its reply already, or waits for it. -/
def await (c : Call) (deadline : Nat) : Call :=
  match c.early? with
  | some reply => { c with phase := .answered reply }
  | none => { c with phase := .waiting deadline }

/-- Whether a call waits for its job. -/
def isDispatching (c : Call) : Bool := c.phase = .dispatching

/-- Whether the time of a call has run out. -/
def isLate (c : Call) (now : Nat) : Bool :=
  match c.phase with
  | .waiting deadline => deadline ≤ now
  | _ => false

/-- Whether a reply can be sent to a call. -/
def isThere (c : Call) : Bool := c.phase ≠ .gone && c.phase ≠ .leaving false

/-- Whether a call looks for no reply any more, since its time has run out. -/
def isLeaving (c : Call) : Bool :=
  match c.phase with
  | .leaving _ => true
  | _ => false

/-- The reply that a call was answered with. -/
def answer? (c : Call) : Option Reply :=
  match c.phase with
  | .answered reply => some reply
  | _ => none

end Call

/-! ## Replies of the exchange itself -/

/-- The source was stopped. -/
def Reply.sourceStopped : Reply := .plain 503 "Source stopped"

/-- There was no reply in time. -/
def Reply.timedOut : Reply := .plain 504 "No response within timeout"

/-- The reply to a request that is not to be replied to by anybody else. -/
def DispatchEnd.rejection? : DispatchEnd → Option Reply
  | .ran .forwarded => none
  | .ran .emptyPayload => some (.plain 400 "Empty payload")
  | .ran .readFailed => some (.plain 400 "Unreadable payload")
  | .crashed => some (.plain 500 "Dispatch failed")
  | .turnedAway => some .sourceStopped

namespace Exchange

/-- An open exchange without calls. -/
def new (attributes : List String) (consumer : Consumer) : Exchange :=
  ⟨attributes, consumer, true, [], []⟩

/-- The call of an id. -/
def call? (x : Exchange) (id : String) : Option Call := x.calls.find? fun c => c.id = id

/-- The exchange with the call of an id changed. -/
def alter (x : Exchange) (id : String) (f : Call → Call) : Exchange :=
  { x with calls := x.calls.map fun c => if c.id = id then f c else c }

/-- The exchange without a parked id. -/
def withdraw (x : Exchange) (id : String) : Exchange :=
  { x with parked := x.parked.filter fun id' => id' ≠ id }

/-- A call answered by the exchange itself; its id is parked no longer. -/
def conclude (x : Exchange) (id : String) (reply : Reply) : Exchange :=
  (x.withdraw id).alter id fun c => { c with phase := .answered reply }

/-! ## Steps of calls -/

/-- A new call parks its id. -/
def park (x : Exchange) (id : String) : Exchange :=
  { x with parked := x.parked ++ [id], calls := x.calls ++ [⟨id, .parked, none⟩] }

/-- A parked call checks that the exchange is open, and goes on to be dispatched. -/
def checkOpen (x : Exchange) (id : String) : Exchange :=
  if x.isOpen then x.alter id fun c => { c with phase := .dispatching }
  else x.conclude id .sourceStopped

/-- A call is told how its job ended. -/
def joined (x : Exchange) (id : String) (ended : DispatchEnd) (deadline : Nat) : Exchange :=
  if (x.call? id).any Call.isDispatching then
    match ended.rejection? with
    | some reply => x.conclude id reply
    | none => x.alter id fun c => c.await deadline
  else x

/-- A call sees that its time has run out, and looks for no reply any more. -/
def leave (x : Exchange) (id : String) : Exchange :=
  x.alter id fun c => { c with phase := .leaving true }

/-- A call that leaves lets go of its end: no reply can be sent to it any more. -/
def letGo (x : Exchange) (id : String) : Exchange :=
  x.alter id fun c => { c with phase := .leaving false }

/-- A call that leaves takes its id out, and is answered. -/
def giveUp (x : Exchange) (id : String) : Exchange := x.conclude id .timedOut

/-- The calls whose time has run out are answered. -/
def expire (x : Exchange) (now : Nat) : Exchange :=
  (x.calls.filter fun c => c.isLate now).foldl (fun x c => x.giveUp c.id) x

/-- The client of a call hangs up. -/
def hangUp (x : Exchange) (id : String) : Exchange :=
  x.alter id fun c => { c with phase := .gone }

/-! ## Replies and the end -/

/-- A reply for an id, and whether it was sent to a call. -/
def reply (x : Exchange) (id : String) (r : Reply) : Exchange × Bool :=
  if x.parked.contains id then
    ((x.withdraw id).alter id fun c => c.take r, (x.call? id).any Call.isThere)
  else (x, false)

/-- No more calls are let in. -/
def close (x : Exchange) : Exchange := { x with isOpen := false }

/-- A parked id is taken out, and its call told that the source was stopped. -/
def drain (x : Exchange) (id : String) : Exchange := (x.reply id .sourceStopped).1

/-- The end of an exchange: it is closed, and then every id that is parked is taken out. -/
def disconnect (x : Exchange) : Exchange := x.close.parked.foldl drain x.close

end Exchange

end Correlator
