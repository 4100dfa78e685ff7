import Correlator.Clock
import Correlator.Element.Publishing
import Correlator.Gates
import Correlator.Pipeline
import Correlator.Pool

/-!
# Bridges

What the pipelines of a process share, and everything that is under way in it.

* `Answer`: what a request that goes out is answered with.
* `Send`: a request that goes out, from its publication until its response was dealt with.
* `Inbound`: a request that came in, from its arrival until it was dispatched.
* `Task`: what the pool runs and what waits at gates.
* `Bridge`: all of it, with a clock that stands still unless it is moved on.
* `Bridge.deadline`: when the time of a request ends that begins to wait now.

A bridge also keeps what it has handed out and nobody has looked at yet: events to consumers, and
requests to the network.
-/

namespace Correlator

/-! ## Requests that go out -/

/-- How a request that goes out ends. -/
inductive AnswerOutcome
  | response (status? : Option Nat) (headers : List HeaderField) (body : Body)
  | fails (fault : Fault)
  /-- Whoever was to carry the request breaks down. -/
  | crashes

/-- What a request that goes out is answered with, once a gate lets the answer through. -/
structure Answer where
  hold? : Option String
  outcome : AnswerOutcome

/-- The answer to a request for which none was prepared. -/
def Answer.standard : Answer :=
  ⟨none, .response (some 200) [] [.chunk (Octets.ofString "ok")]⟩

instance : Inhabited Answer := ⟨.standard⟩

/-- A request that goes out. -/
structure Send where
  request : Request
  delivery : Delivery Consumer
  answer : Answer
  /-- The body of the response, as far as it is still to be taken in. -/
  reading? : Option (Intake × Body)
  handle : SendHandle

/-- The response to a request that goes out, or why there is none. -/
def Send.result (s : Send) : Except Fault Message :=
  match s.answer.outcome with
  | .response status? headers body =>
    .ok ⟨{ s.request.endpoint with status? := status? }, headers, body⟩
  | .fails fault => .error fault
  | .crashes => .error .aborted

/-! ## Requests that come in -/

/-- A request that came in. -/
structure Inbound where
  /-- The number of the exchange that it waits at. -/
  exchange : Nat
  /-- The id that it waits under. -/
  id : String
  dispatch : Dispatch
  /-- What has been taken in of its body, and what is still to be. -/
  intake : Intake
  rest : Body

namespace MessageId

/-- The number of digits of the last part of an id. -/
def width : Nat := 12

/-- The id with a number. No two numbers have one id. -/
def ofNumber (n : Nat) : String :=
  let digits := Nat.toDigits 16 n
  "00000000-0000-4000-8000-" ++
    String.ofList (List.replicate (width - digits.length) '0' ++ digits)

end MessageId

/-! ## Bridges -/

/-- What the pool runs, and what waits at gates. -/
inductive Task
  /-- A send waits for its answer. -/
  | transport (send : Nat)
  /-- The response to a send is dealt with. -/
  | deliver (send : Nat)
  /-- A request that came in is dispatched. -/
  | dispatch (inbound : Nat)
  deriving DecidableEq, Repr

/-- What pipelines share, and everything that is under way. -/
structure Bridge where
  /-- The greatest number of bytes that are read of a payload. -/
  limit : Nat
  /-- How long a request waits for its reply, in seconds. -/
  timeout : Nat
  /-- The time in seconds. -/
  now : Nat
  switchboard : Switchboard
  pool : Pool Task
  gates : Gates Task
  inbound : List Inbound
  sends : List Send
  /-- The answers that were prepared, first answer first. -/
  answers : List Answer
  files : FileTree
  meter : Meter
  /-- The events that were handed out, each with the name of its consumer. -/
  events : List (String × Event)
  /-- The requests that were handed out. -/
  requests : List Request

namespace Bridge

/-- A bridge in which nothing has happened, if there can be a pool of the size asked for. -/
def new? (c : Config) (files : FileTree) : Option Bridge :=
  (Pool.new? c.workers.poolSize).map fun pool =>
    { limit := c.workers.maxPayload
      timeout := c.listener.responseTimeout
      now := 0
      switchboard := .empty
      pool
      gates := .empty
      inbound := []
      sends := []
      answers := []
      files
      meter := .zero
      events := []
      requests := [] }

/-- When the time of a request ends that begins to wait now. -/
def deadline (b : Bridge) : Nat := Clock.afterOrFar b.now b.timeout

/-- A counter moved on. -/
def count (b : Bridge) (s : Series) : Bridge := { b with meter := b.meter.count s }

/-- A counter moved on, if there is one to move. -/
def count? (b : Bridge) (s? : Option Series) : Bridge :=
  match s? with
  | some s => b.count s
  | none => b

/-- The gauge of the pool set to what it is. -/
def gauge (b : Bridge) : Bridge := { b with meter := b.meter.set .poolInUse b.pool.inUse }

/-- An exchange changed. -/
def alterExchange (b : Bridge) (n : Nat) (f : Exchange → Exchange) : Bridge :=
  { b with switchboard := b.switchboard.alterExchange n f }

/-- A send changed. -/
def alterSend (b : Bridge) (n : Nat) (f : Send → Send) : Bridge :=
  { b with sends := b.sends.modify n f }

/-- A request that came in changed. -/
def alterInbound (b : Bridge) (n : Nat) (f : Inbound → Inbound) : Bridge :=
  { b with inbound := b.inbound.modify n f }

/-- The reply to a request that came in, once there is one. -/
def reply? (b : Bridge) (n : Nat) : Option Reply := do
  let i ← b.inbound[n]?
  let x ← b.switchboard.exchange? i.exchange
  let c ← x.call? i.id
  c.answer?

/-- The bridge once somebody has looked at what it handed out. -/
def cleared (b : Bridge) : Bridge := { b with events := [], requests := [] }

end Bridge

end Correlator
