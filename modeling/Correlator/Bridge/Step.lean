import Correlator.Bridge.Run

/-!
# What happens to a bridge

The steps that a bridge takes from outside. After each of them everything has run until it ended
or is held up.

* `Bridge.start`, `Bridge.shutdown`: a pipeline started or stopped.
* `Bridge.publish`, `Bridge.handle`: an event given to a sink.
* `Bridge.receive`: a request that came in at an exchange.
* `Bridge.advance`: the clock moved on.
* `Bridge.openGate`: a pass for a gate.
* `Bridge.closePool`: the pool closed.
* `Bridge.giveUp`: everything given up that is still under way.
* `Bridge.prepare`: an answer for a request that will go out.
-/

namespace Correlator

/-- What a sink did with an event. -/
inductive Published
  /-- A request was sent: the number of the send. -/
  | sent (send : Nat)
  /-- A reply was given, and perhaps taken. -/
  | replied (taken : Bool)
  deriving DecidableEq, Repr

namespace Bridge

/-- The requests whose time has run out are answered. -/
def expire (b : Bridge) : Bridge :=
  { b with
    switchboard :=
      { b.switchboard with
        exchangeList := b.switchboard.exchangeList.map fun x => x.expire b.now } }

/-! ## Pipelines -/

/-- A pipeline started. -/
def start (b : Bridge) (p : Pipeline) : Bridge × Pipeline × Except Fault Unit :=
  let (p, switchboard, result) := p.start b.switchboard
  ({ b with switchboard }, p, result)

/-- A pipeline stopped. -/
def shutdown (b : Bridge) (p : Pipeline) : Bridge × Pipeline :=
  let (p, switchboard) := p.shutdown b.switchboard
  ({ b with switchboard }, p)

/-! ## Sinks -/

/-- The answer for the next request that goes out, taken from those that were prepared. -/
def nextAnswer (b : Bridge) : Answer × Bridge :=
  match b.answers with
  | answer :: answers => (answer, { b with answers })
  | [] => (.standard, b)

/-- A request given to the transport for an event. -/
def post (b : Bridge) (s : RequestSink) (e : Event) (request : Request) :
    Bridge × Except Fault Published :=
  let n := b.sends.length
  let (answer, b) := b.nextAnswer
  let send : Send := ⟨request, s.delivery e request.url b.limit, answer, none, .new⟩
  let b :=
    { b with sends := b.sends ++ [send], requests := b.requests ++ [request] }.count
      (.requestsSent s.config.sinkId)
  let sent : Except Fault Published := .ok (.sent n)
  match answer.hold? with
  | none => ((b.arrive n).expire, sent)
  | some gate =>
    match b.gates.arrive gate (.transport n) with
    | (gates, true) => (({ b with gates }.arrive n).expire, sent)
    | (gates, false) => ({ b with gates }, sent)

/-- An event sent as a request. -/
def send (b : Bridge) (s : RequestSink) (e : Event) : Bridge × Except Fault Published :=
  match s.request e with
  | .error fault => (b, .error fault)
  | .ok request => b.post s e request

/-- A reply for a request that waits under an id, and whether it was taken. -/
def answer (b : Bridge) (sourceId id : String) (reply : Reply) : Bridge × Bool :=
  match b.switchboard.exchanges.lookup? (.plain sourceId) with
  | none => (b.count (.lookupMisses sourceId), false)
  | some l =>
    let taken := (b.switchboard.exchange? l.handler).any fun x => (x.reply id reply).2
    let b := b.alterExchange l.handler fun x => (x.reply id reply).1
    (if taken then b else b.count (.lookupMisses sourceId), taken)

/-- A reply given for an id, if there is one. -/
def give (b : Bridge) (sourceId : String) (answer? : Option (String × Reply)) :
    Bridge × Except Fault Published :=
  match answer? with
  | none => (b.count (.eventsDropped .missingMessageId), .ok (.replied false))
  | some (id, reply) =>
    let (b, taken) := b.answer sourceId id reply
    (b, .ok (.replied taken))

/-- An event given as a reply. -/
def respond (b : Bridge) (s : ResponseSink) (e : Event) : Bridge × Except Fault Published :=
  match s.reply? e with
  | .error fault => (b, .error fault)
  | .ok answer? => b.give s.config.sourceId answer?

/-- An event given to an element. -/
def handle (b : Bridge) (element : Element) (e : Event) : Bridge × Except Fault Published :=
  match element.part with
  | .requestSink s => if element.active then b.send s e else (b, .error s.notReady)
  | .responseSink s => if element.active then b.respond s e else (b, .error s.notReady)
  | _ => (b, .error element.takesNoEvents)

/-- An event given to the sink of an id in a pipeline. -/
def publish (b : Bridge) (p : Pipeline) (id : String) (e : Event) :
    Bridge × Except Fault Published :=
  match p.sink id with
  | .error fault => (b, .error fault)
  | .ok element => b.handle element e

/-! ## Requests that come in -/

/-- A request came in at an exchange. It parks; if the exchange is open it is dispatched. -/
def receive (b : Bridge) (exchange : Nat) (m : Message) : Bridge :=
  match b.switchboard.exchange? exchange with
  | none => b
  | some x =>
    let n := b.inbound.length
    let id := MessageId.ofNumber n
    let given := Metadata.empty.insert Metadata.messageIdName (.str id)
    let i : Inbound :=
      { exchange
        id
        dispatch := ⟨x.attributes, given, m.endpoint, m.headers⟩
        intake := .collecting b.limit
        rest := m.body }
    let b :=
      { b with inbound := b.inbound ++ [i] }.alterExchange exchange fun x =>
        (x.park id).checkOpen id
    if x.isOpen then (b.submit (.dispatch n)).expire else b

/-! ## Time, gates and the pool -/

/-- The clock moved on by so many seconds. -/
def advance (b : Bridge) (seconds : Nat) : Bridge := { b with now := b.now + seconds }.expire

/-- A pass for a gate. -/
def openGate (b : Bridge) (gate : String) : Bridge :=
  let (gates, through) := b.gates.release gate 1
  (through.foldl passed { b with gates }).expire

/-- The pool closed; the jobs in line will never run. -/
def closePool (b : Bridge) : Bridge :=
  let (pool, skipped) := b.pool.close
  (skipped.foldl turnAway { b with pool }).expire

/-- Everything given up that is still under way: the slots of the pool are free. -/
def giveUp (b : Bridge) : Bridge :=
  if b.pool.inUse = 0 then b
  else { b with pool := { b.pool with running := [], line := [], isOpen := false } }.gauge

/-- An answer prepared for a request that will go out. -/
def prepare (b : Bridge) (answer : Answer) : Bridge :=
  { b with answers := b.answers ++ [answer] }

end Bridge

end Correlator
