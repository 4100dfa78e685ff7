import Correlator.Bridge.Basic

/-!
# Running what is under way

Jobs of the pool go on until they end or are held up at a gate; a job that ends makes room for the
next one in line.

* `Bridge.hand`: an event handed to a consumer, which may fail.
* `Bridge.concludeDispatch`, `Bridge.concludeDelivery`: what follows once a body was taken in.
* `Bridge.resume`: a job that goes on with a body.
* `Bridge.begin`: a job that begins.
* `Bridge.submit`, `Bridge.runFrom`: a job given to the pool, and the jobs that run because of it.
* `Bridge.arrive`: the answer to a send arrives.

A consumer that fails takes its job down with it: nothing is counted any more, but the slot of the
job is free again and whoever waits for the job is told.
-/

namespace Correlator.Bridge

/-! ## Ends of jobs -/

/-- An event handed to a consumer, and whether the consumer took it. -/
def hand (b : Bridge) (c : Consumer) (e : Event) : Bridge × Bool :=
  if c.fails e then (b, false) else ({ b with events := b.events ++ [(c.name, e)] }, true)

/-- An event handed to a forwarder, which drops it once it is closed; whether nothing failed. -/
def forward (b : Bridge) (n : Nat) (e : Event) : Bridge × Bool :=
  match b.switchboard.forwarder? n with
  | some f => if f.isOpen then b.hand f.consumer e else (b, true)
  | none => (b, true)

/-- A send resolved. -/
def resolve (b : Bridge) (n : Nat) (state : SendState) : Bridge :=
  b.alterSend n fun s => { s with handle := (s.handle.resolve? state).getD s.handle }

/-- The call of a request that came in is told how its job ended. -/
def join (b : Bridge) (i : Inbound) (ended : DispatchEnd) : Bridge :=
  b.alterExchange i.exchange fun x => x.joined i.id ended b.deadline

/-- What follows once the body of a request was taken in. -/
def concludeDispatch (b : Bridge) (i : Inbound) (read : Except Fault String) : Bridge :=
  let (outcome, event?, moved?) := i.dispatch.conclude read
  let b := b.count? moved?
  match event?, b.switchboard.exchange? i.exchange with
  | some e, some x =>
    match b.hand x.consumer e with
    | (b, true) => b.join i (.ran outcome)
    | (b, false) => b.join i .crashed
  | _, _ => b.join i (.ran outcome)

/-- What follows once the body of a response was taken in. -/
def concludeDelivery (b : Bridge) (n : Nat) (s : Send) (endpoint : Endpoint)
    (result : Except Fault Taken) : Bridge :=
  match s.delivery.conclude endpoint result with
  | .resolved state moved? => (b.count? moved?).resolve n state
  | .hand status e =>
    let settle (b : Bridge) (taken : Bool) : Bridge :=
      let (state, moved) := s.delivery.settled status taken
      (b.count moved).resolve n state
    let handed : Option (Bridge × Bool) :=
      (s.delivery.route b.switchboard.responses status).map fun
        | .inl consumer => b.hand consumer e
        | .inr forwarder => b.forward forwarder e
    match handed with
    | none => settle b false
    | some (b, true) => settle b true
    | some (b, false) => b.resolve n (.failed .aborted)

/-! ## Jobs -/

/-- The payload that a body was taken in as. -/
def payloadOf (result : Except Fault Taken) : Except Fault String :=
  result.map fun
    | .text payload => payload
    | .saved _ => ""

/-- A body is taken in, up to its end or a gate that holds the task up; in the end, what there is
to conclude from. -/
def takeIn (b : Bridge) (t : Task) (i : Intake) (body : Body) : Bridge × Intake.Progress :=
  let (progress, files, gates) := i.run b.files b.gates t body
  ({ b with files, gates }, progress)

/-- A dispatch goes on with its body; whether it ended. -/
def resumeDispatch (b : Bridge) (n : Nat) : Bridge × Bool :=
  match b.inbound[n]? with
  | none => (b, true)
  | some i =>
    match b.takeIn (.dispatch n) i.intake i.rest with
    | (b, .ended result) => (b.concludeDispatch i (payloadOf result), true)
    | (b, .held intake rest) => (b.alterInbound n fun i => { i with intake, rest }, false)

/-- A delivery goes on with its body; whether it ended. -/
def resumeDelivery (b : Bridge) (n : Nat) (s : Send) (endpoint : Endpoint) (i : Intake)
    (body : Body) : Bridge × Bool :=
  match b.takeIn (.deliver n) i body with
  | (b, .ended result) => (b.concludeDelivery n s endpoint result, true)
  | (b, .held i rest) => (b.alterSend n fun s => { s with reading? := some (i, rest) }, false)

/-- A delivery begins, or goes on after a gate; whether it ended. -/
def runDelivery (b : Bridge) (n : Nat) : Bridge × Bool :=
  match b.sends[n]? with
  | none => (b, true)
  | some s =>
    match s.result with
    | .error fault =>
      let (state, moved) := s.delivery.refuse fault
      ((b.count moved).resolve n state, true)
    | .ok message =>
      match s.reading? with
      | some (i, rest) => b.resumeDelivery n s message.endpoint i rest
      | none =>
        match s.delivery.begin b.files with
        | (.ok i, files) => { b with files }.resumeDelivery n s message.endpoint i message.body
        | (.error fault, files) =>
          ({ b with files }.concludeDelivery n s message.endpoint (.error fault), true)

/-- A job begins, or goes on after a gate; whether it ended. -/
def runJob (b : Bridge) (t : Task) : Bridge × Bool :=
  match t with
  | .dispatch n => b.resumeDispatch n
  | .deliver n => b.runDelivery n
  | .transport _ => (b, true)

/-- A job that ended gives its slot to the next one in line. -/
def release (b : Bridge) (t : Task) : Bridge × Option Task :=
  let (pool, next?) := b.pool.release t
  ({ b with pool }.gauge, next?)

/-- A job that holds a slot goes on, and after it those that come to its slot; `fuel` bounds the
number of jobs. -/
def runFrom (b : Bridge) (t : Task) : Nat → Bridge
  | 0 => b
  | fuel + 1 =>
    match b.runJob t with
    | (b, false) => b
    | (b, true) =>
      match b.release t with
      | (b, some next) => runFrom b next fuel
      | (b, none) => b

/-- A job that holds a slot goes on, and after it those in line that come to its slot. -/
def run (b : Bridge) (t : Task) : Bridge := b.runFrom t (b.pool.line.length + 1)

/-- A job that will never run. -/
def turnAway (b : Bridge) (t : Task) : Bridge :=
  match t with
  | .dispatch n =>
    match b.inbound[n]? with
    | some i => b.join i .turnedAway
    | none => b
  | .deliver n => b.resolve n (.failed .poolClosed)
  | .transport _ => b

/-- A job given to the pool. -/
def submit (b : Bridge) (t : Task) : Bridge :=
  match b.pool.submit t with
  | (pool, .started) => ({ b with pool }.gauge).run t
  | (pool, .queued) => { b with pool }
  | (_, .refused) => b.turnAway t

/-- The answer to a send arrives: its delivery is given to the pool. -/
def arrive (b : Bridge) (n : Nat) : Bridge :=
  match b.sends[n]? with
  | none => b
  | some s =>
    match s.answer.outcome with
    | .crashes => b.alterSend n fun s => { s with handle := s.handle.abandon }
    | _ => b.submit (.deliver n)

/-- A task goes on that was let through a gate. -/
def passed (b : Bridge) (t : Task) : Bridge :=
  match t with
  | .transport n => b.arrive n
  | t => b.run t

end Correlator.Bridge
