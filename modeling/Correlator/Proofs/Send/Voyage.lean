import Correlator.Bridge.Basic
import Correlator.Proofs.Switchboard.Shift

/-!
# The voyage of a send

What happens to a request that goes out, from its publication until its sender is told what became
of it: it is given to the transport, its answer arrives, the delivery is given to the pool and has
its turn, the body is read piece by piece, somebody is handed the event, and the sender is told.
Between any two of these steps anything may happen elsewhere.

* `Voyage`: a send with its origin, its stage, the requests that were given to the transport for
  it, and the calls of consumers that were made for it.
* `Delivery.ending`: how a delivery ends once the body was read, and who is called.
* `Voyage.Step`: one step. A transport may break down, the pool may turn the delivery away, a
  delivery may break down by itself, and a consumer that is called may not return.
* `Switchboard.Wired.callee?_route`: whoever takes an event is called.
-/

namespace Correlator

/-! ## Voyages -/

/-- How the delivery of a response came to its end. -/
inductive DeliveryEnd
  | ran (state : SendState)
  /-- The delivery broke down, or the consumer did. -/
  | crashed
  /-- The pool was closed before the delivery could begin. -/
  | turnedAway

/-- What the sender is told. -/
def DeliveryEnd.state : DeliveryEnd → SendState
  | .ran state => state
  | .crashed => .failed .aborted
  | .turnedAway => .failed .poolClosed

/-- How far a send has come. -/
inductive Stage
  /-- The request is still to be given to the transport. -/
  | posted
  /-- The transport has the request. -/
  | carried
  /-- There is an answer, and the delivery was given to the pool. -/
  | submitted
  | reading (i : Intake) (rest : Body)
  | read (result : Except Fault Taken)
  /-- The delivery has ended, and the sender is to be told. -/
  | ended (e : DeliveryEnd)
  | closed

/-- Whether a delivery may break down by itself. -/
def Stage.mayBreak : Stage → Bool
  | .submitted | .reading _ _ | .read _ | .ended (.ran _) => true
  | _ => false

/-- Whether the transport has the request, and nothing has been handed on yet. -/
def Stage.isUnderway : Stage → Bool
  | .carried | .submitted | .reading _ _ | .read _ => true
  | _ => false

/-- A body that could not be read is not reported as a breakdown. -/
def Stage.Fair (stage : Stage) : Prop := ∀ fault, stage = .read (.error fault) → fault ≠ .aborted

/-- A call of a consumer. -/
structure ConsumerCall where
  consumer : Consumer
  event : Event
  returned : Bool

/-- A send with its origin, and what has become of it. -/
structure Voyage where
  sink : RequestSink
  event : Event
  send : Send
  stage : Stage
  /-- The requests that were given to the transport for it. -/
  requests : List Request
  /-- The calls of consumers that were made for it. -/
  calls : List ConsumerCall
  /-- Whether its delivery broke down by itself. -/
  wrecked : Bool

/-- Who is called when an event is handed to a sender's own consumer or to a forwarder. -/
def Switchboard.callee? (s : Switchboard) : Consumer ⊕ Nat → Option Consumer
  | .inl k => some k
  | .inr n => (s.forwarder? n).bind fun f => if f.isOpen then some f.consumer else none

namespace Intake

/-- A chunk that is not taken in is one too many. -/
theorem take_error {i : Intake} {files files' : FileTree} {bs : Octets} {fault : Fault}
    (h : i.take files bs = (.error fault, files')) : fault = tooLong := by
  unfold take at h
  split at h
  · split at h
    · cases h
      rfl
    · cases h
  · cases h

/-- A file is made to save a body in, or there is the fault of a path that cannot be made. -/
theorem saving_result (files : FileTree) (path : String) :
    (∃ path' e, (saving files path).1 = .error (cannotCreate path' e)) ∨
      ∃ name, (saving files path).1 = .ok (.save name 0) := by
  unfold saving
  cases FileTree.parent? path with
  | none =>
    simp only
    split
    · exact .inr ⟨_, rfl⟩
    · exact .inl ⟨_, _, rfl⟩
  | some parent =>
    rcases hmade : files.makeDirs parent (parent.length + 1) with ⟨made, files'⟩
    cases made with
    | error e =>
      simp only [hmade]
      exact .inl ⟨_, _, rfl⟩
    | ok =>
      simp only [hmade]
      split
      · exact .inr ⟨_, rfl⟩
      · exact .inl ⟨_, _, rfl⟩

end Intake

namespace Delivery

variable (d : Delivery Consumer) (s : Switchboard) (e : Endpoint) (returns : Bool)

/-- How a delivery ends once the body was read, and whom it calls. The listener is looked up and
called at a stroke; whether the call returns is up to the consumer. -/
def ending (result : Except Fault Taken) : DeliveryEnd × List ConsumerCall :=
  match d.conclude e result with
  | .resolved state _ => (.ran state, [])
  | .hand status event =>
    match d.route s.responses status with
    | none => (.ran (d.settled status false).1, [])
    | some taker =>
      match s.callee? taker with
      | none => (.ran (d.settled status true).1, [])
      | some k =>
        (if returns then .ran (d.settled status true).1 else .crashed, [⟨k, event, returns⟩])

/-- The payload of the event: of a download the path of the file. -/
def payloadOf (taken : Taken) : String :=
  match d.download?, taken with
  | some path, _ => path
  | none, .text payload => payload
  | none, .saved _ => ""

/-- The event that is handed on. -/
def eventOf (taken : Taken) : Event := ⟨d.payloadOf taken, d.metadataFor e⟩

/-- A body that could not be read is a failure. -/
theorem conclude_error (fault : Fault) :
    ∃ moved?, d.conclude e (.error fault) = .resolved (.failed fault) moved? := by
  unfold conclude
  cases d.download? with
  | none => exact ⟨_, rfl⟩
  | some path => exact ⟨_, rfl⟩

/-- An event is handed on unless its payload is empty. -/
theorem conclude_ok (taken : Taken) :
    d.conclude e (.ok taken) =
      if (d.payloadOf taken).isEmpty then
        .resolved (.delivered (statusOf e) .emptyPayload) (some (.eventsDropped .emptyPayload))
      else .hand (statusOf e) (d.eventOf e taken) := by
  unfold conclude eventOf payloadOf
  cases d.download? with
  | some path => rfl
  | none => cases taken <;> rfl

/-- A body is taken in as it is to be, or a path cannot be made. -/
theorem begin_result (files : FileTree) :
    (∃ path e, (d.begin files).1 = .error (Intake.cannotCreate path e)) ∨
      (d.download? = none ∧ (d.begin files).1 = .ok (.collecting d.limit)) ∨
      ∃ name, d.download?.isSome = true ∧ (d.begin files).1 = .ok (.save name 0) := by
  unfold begin
  cases hdownload : d.download? with
  | none => exact .inr (.inl ⟨rfl, rfl⟩)
  | some path =>
    obtain ⟨path', e, he⟩ | ⟨name, hname⟩ := Intake.saving_result files path
    · exact .inl ⟨path', e, he⟩
    · exact .inr (.inr ⟨name, rfl, hname⟩)

/-- A file that cannot be made is not reported as a breakdown. -/
theorem begin_ne_aborted {files files' : FileTree} {fault : Fault}
    (h : d.begin files = (.error fault, files')) : fault ≠ .aborted := by
  have hfault : (d.begin files).1 = .error fault := by rw [h]
  obtain ⟨path, e, he⟩ | ⟨-, he⟩ | ⟨name, -, he⟩ := d.begin_result files
  · cases he.symm.trans hfault
    exact Fault.noConfusion
  · cases he.symm.trans hfault
  · cases he.symm.trans hfault

/-- Only an event for whoever is registered may find nobody. -/
theorem settled_of_route_eq_none {registry : Registry Nat} {status : Nat}
    (h : d.route registry status = none) :
    (d.settled status false).1 = .delivered status .noListener := by
  unfold route at h
  unfold settled
  cases htarget : d.target with
  | direct k => simp [htarget] at h
  | registered owner => rfl

end Delivery

namespace Voyage

/-- The voyage at another stage. -/
def atStage (v : Voyage) (stage : Stage) : Voyage := { v with stage }

/-- The voyage with another handle. -/
def withHandle (v : Voyage) (handle : SendHandle) : Voyage :=
  { v with send := { v.send with handle } }

/-- The voyage once its sender is told a state, unless it has been told one before. -/
def told (v : Voyage) (state : SendState) : Voyage :=
  (v.withHandle ((v.send.handle.resolve? state).getD v.send.handle)).atStage .closed

/-- What a delivery comes to when it begins. -/
def begun (v : Voyage) (files : FileTree) : Stage × FileTree :=
  match v.send.result with
  | .error fault => (.ended (.ran (v.send.delivery.refuse fault).1), files)
  | .ok message =>
    match v.send.delivery.begin files with
    | (.ok i, files) => (.reading i message.body, files)
    | (.error fault, files) => (.read (.error fault), files)

/-- What reading comes to with one piece of the body; a gate lets everybody through in its time. -/
def readPiece (i : Intake) (files : FileTree) (rest : Body) : Piece → Stage × FileTree
  | .chunk bs =>
    match i.take files bs with
    | (.ok i, files) => (.reading i rest, files)
    | (.error fault, files) => (.read (.error fault), files)
  | .broken e => (.read (.error e.toFault), files)
  | .gate _ => (.reading i rest, files)

/-- One step of a voyage, with what it does to the files. -/
inductive Step (s : Switchboard) (files : FileTree) (v : Voyage) : FileTree → Voyage → Prop
  | post : v.stage = .posted →
      Step s files v files
        { v with stage := .carried, requests := v.requests ++ [v.send.request] }
  | arrive : v.stage = .carried → v.send.answer.outcome ≠ .crashes →
      Step s files v files (v.atStage .submitted)
  /-- The transport breaks down. -/
  | lose : v.stage = .carried → v.send.answer.outcome = .crashes →
      Step s files v files ((v.withHandle v.send.handle.abandon).atStage .closed)
  | turnAway : v.stage = .submitted → Step s files v files (v.atStage (.ended .turnedAway))
  | begin : v.stage = .submitted →
      Step s files v (v.begun files).2 (v.atStage (v.begun files).1)
  | piece (i : Intake) (p : Piece) (rest : Body) : v.stage = .reading i (p :: rest) →
      Step s files v (readPiece i files rest p).2 (v.atStage (readPiece i files rest p).1)
  | finish (i : Intake) : v.stage = .reading i [] →
      Step s files v files (v.atStage (.read (.ok i.finish)))
  | conclude (result : Except Fault Taken) (message : Message) (returns : Bool) :
      v.stage = .read result → v.send.result = .ok message →
      Step s files v files
        { v with
          stage := .ended (v.send.delivery.ending s message.endpoint returns result).1
          calls := v.calls ++ (v.send.delivery.ending s message.endpoint returns result).2 }
  | breakDown : v.stage.mayBreak = true →
      Step s files v files { v with stage := .ended .crashed, wrecked := true }
  | tell (e : DeliveryEnd) : v.stage = .ended e → Step s files v files (v.told e.state)
  /-- The sender looks at the state of the send. -/
  | poll : Step s files v files (v.withHandle v.send.handle.poll)

end Voyage

/-! ## Who is called -/

/-- Whoever takes an event is called. -/
theorem Switchboard.Wired.callee?_route {s : Switchboard} {d : Delivery Consumer} {status : Nat}
    {taker : Consumer ⊕ Nat} (hs : s.Wired) (h : d.route s.responses status = some taker) :
    ∃ k, s.callee? taker = some k := by
  unfold Delivery.route at h
  split at h
  · rename_i k htarget
    cases h
    exact ⟨k, rfl⟩
  · obtain ⟨l, hl, rfl⟩ := Option.map_eq_some_iff.1 h
    obtain ⟨k, hk⟩ := hs.leads l (Registry.mem_of_resolve? hl)
    refine ⟨k, ?_⟩
    simp only [callee?, hk]
    rfl

end Correlator
