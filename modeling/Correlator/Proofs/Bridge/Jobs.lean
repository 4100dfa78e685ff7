import Correlator.Bridge.Run
import Correlator.Proofs.Send.Outgoing

/-!
# Deliveries as voyages

What a job of a bridge does to a send is several steps of the voyage of that send.

* `Voyage.Steps`: steps of one voyage, one after another; `Outgoing.reaches_steps`: they are steps
  of a voyage among others.
* `Voyage.steps_run`: a body that is taken in, up to a gate that holds it up.
* `Bridge.concludeDelivery_eq`: the end of a delivery, as `Delivery.ending` has it.
* `Bridge.Sails`: a bridge has done something to one send, and its voyage has come as far;
  `Bridge.Moves`: besides, the task of the send is done with, or waits at a gate.
* `Bridge.moves_runDelivery`: so it is when a delivery begins, or goes on after a gate.
-/

namespace Correlator

/-! ## Steps of one voyage -/

namespace Voyage

variable {s : Switchboard} {files files' : FileTree} {v v' : Voyage}

/-- Steps of one voyage, one after another, with what they do to the files. -/
abbrev Steps (s : Switchboard) : FileTree × Voyage → FileTree × Voyage → Prop :=
  Relation.ReflTransGen fun p q => Step s p.1 p.2 q.1 q.2

theorem Step.steps (h : Step s files v files' v') : Steps s (files, v) (files', v') := .single h

/-- The stage that a body has come to. -/
def stageOf : Intake.Progress → Stage
  | .ended result => .read result
  | .held i rest => .reading i rest

/-- A body that is taken in is read piece by piece. -/
theorem steps_run (s : Switchboard) (files : FileTree) (gates : Gates Task) (t : Task) {i : Intake}
    {body : Body} (hv : v.stage = .reading i body) :
    Steps s (files, v)
      ((i.run files gates t body).2.1, v.atStage (stageOf (i.run files gates t body).1)) := by
  induction body generalizing v i files gates with
  | nil => exact .single (.finish i hv)
  | cons p rest ih =>
    have hstep : Step s files v _ _ := .piece i p rest hv
    cases p with
    | chunk bs =>
      rcases htake : i.take files bs with ⟨fault | i', files'⟩
      · simp only [readPiece, htake] at hstep
        simp only [Intake.run, htake]
        exact .single hstep
      · simp only [readPiece, htake] at hstep
        simp only [Intake.run, htake]
        exact .head hstep (ih files' gates (v := v.atStage (.reading i' rest)) rfl)
    | broken e => exact .single hstep
    | gate name =>
      rcases harrive : gates.arrive name t with ⟨gates', through⟩
      simp only [Intake.run, harrive]
      cases through with
      | true => exact .head hstep (ih files gates' (v := v.atStage (.reading i rest)) rfl)
      | false => exact .single hstep

/-- A delivery is concluded, and its sender is told. -/
theorem steps_conclude (s : Switchboard) (files : FileTree) {result : Except Fault Taken}
    {message : Message} (returns : Bool) (hv : v.stage = .read result)
    (hresult : v.send.result = .ok message) :
    ∃ v', Steps s (files, v) (files, v') ∧ v'.requests = v.requests ∧
      v'.calls = v.calls ++ (v.send.delivery.ending s message.endpoint returns result).2 ∧
      v'.send =
        (v.told (v.send.delivery.ending s message.endpoint returns result).1.state).send := by
  have hconclude : Step s files v files _ := .conclude result message returns hv hresult
  have htell : Step s files _ files _ :=
    .tell (v := { v with
      stage := .ended (v.send.delivery.ending s message.endpoint returns result).1
      calls := v.calls ++ (v.send.delivery.ending s message.endpoint returns result).2 }) _ rfl
  exact ⟨_, hconclude.steps.trans htell.steps, rfl, rfl, rfl⟩

end Voyage

namespace Outgoing

variable {o : Outgoing} {n : Nat} {v v' : Voyage} {files : FileTree}

/-- Steps of one voyage are steps of a voyage among others. -/
theorem reaches_steps (hn : o.voyages[n]? = some v) {q : FileTree × Voyage}
    (h : Voyage.Steps o.switchboard (o.files, v) q) :
    o.Reaches { o with files := q.1, voyages := o.voyages.set n q.2 } := by
  obtain ⟨hlt, rfl⟩ := List.getElem?_eq_some_iff.1 hn
  induction h with
  | refl =>
    rw [List.set_getElem_self]
  | @tail p q _ hstep ih =>
    have hset := ih.tail (.voyage n (List.getElem?_set_self hlt) hstep)
    simpa only [List.set_set] using hset

end Outgoing

/-! ## Gates -/

/-- A task that takes a body in waits at one gate at most. -/
theorem Intake.waiting_run {α : Type} (i : Intake) (files : FileTree) (gates : Gates α) (t : α)
    (body : Body) :
    match (i.run files gates t body).1 with
    | .ended _ => (i.run files gates t body).2.2.waiting = gates.waiting
    | .held _ _ =>
      ∃ gate, (i.run files gates t body).2.2.waiting = gates.waiting ++ [(gate, t)] := by
  induction body generalizing i files gates with
  | nil => rfl
  | cons p rest ih =>
    cases p with
    | chunk bs =>
      rcases htake : i.take files bs with ⟨fault | i', files'⟩
      · simp only [run, htake]
      · simp only [run, htake]
        exact ih i' files' gates
    | broken e => rfl
    | gate name =>
      unfold run Gates.arrive
      cases gates.spare name with
      | zero => exact ⟨name, rfl⟩
      | succ n => exact ih i files (gates.keep name n)

/-! ## Ends of deliveries -/

/-- A send but for what is still to be read of its response. -/
def Send.bare (s : Send) : Send := { s with reading? := none }

/-- A send once its sender was told a state, unless it was told one before. -/
def Send.told (s : Send) (state : SendState) : Send :=
  { s with handle := (s.handle.resolve? state).getD s.handle }

/-- The events that were handed out by calls that have returned. -/
def ConsumerCall.handed (calls : List ConsumerCall) : List (String × Event) :=
  (calls.filter (·.returned)).map fun c => (c.consumer.name, c.event)

namespace Bridge

variable {b b' : Bridge} {n : Nat} {s s' : Send} {v v' : Voyage}

theorem alterSend_eq (hs : b.sends[n]? = some s) (f : Send → Send) :
    b.alterSend n f = { b with sends := b.sends.set n (f s) } := by
  obtain ⟨hlt, rfl⟩ := List.getElem?_eq_some_iff.1 hs
  rw [alterSend, List.modify_eq_set_getElem?, hs]
  rfl

theorem hand_eq (b : Bridge) (k : Consumer) (event : Event) :
    b.hand k event =
      ({ b with events := b.events ++ ConsumerCall.handed [⟨k, event, !k.fails event⟩] },
        !k.fails event) := by
  unfold hand
  cases k.fails event with
  | true => simp [ConsumerCall.handed]
  | false => simp [ConsumerCall.handed]

/-- An event is handed to whoever is called for a forwarder. -/
theorem forward_eq (b : Bridge) (m : Nat) (event : Event) :
    b.forward m event =
      match b.switchboard.callee? (.inr m) with
      | some k => b.hand k event
      | none => (b, true) := by
  cases hf : b.switchboard.forwarder? m with
  | none => simp only [forward, Switchboard.callee?, hf, Option.bind_none]
  | some f =>
    simp only [forward, Switchboard.callee?, hf, Option.bind_some]
    split <;> rfl

/-- A delivery is concluded as `Delivery.ending` has it, and its sender is told. -/
theorem concludeDelivery_eq (hs : b.sends[n]? = some s) (e : Endpoint)
    (result : Except Fault Taken) : ∃ returns meter,
      b.concludeDelivery n s e result =
        { b with
          meter
          events := b.events ++
            ConsumerCall.handed (s.delivery.ending b.switchboard e returns result).2
          sends := b.sends.set n
            (s.told (s.delivery.ending b.switchboard e returns result).1.state) } := by
  have hresolve : ∀ (b' : Bridge) state, b'.sends = b.sends →
      b'.resolve n state = { b' with sends := b.sends.set n (s.told state) } := by
    intro b' state hsends
    rw [← hsends] at hs
    rw [← hsends]
    exact alterSend_eq hs _
  have hempty : b.events ++ ConsumerCall.handed [] = b.events := List.append_nil _
  unfold concludeDelivery Delivery.ending
  cases s.delivery.conclude e result with
  | resolved state moved? =>
    refine ⟨true, (b.count? moved?).meter, ?_⟩
    dsimp only
    rw [hempty]
    cases moved? with
    | none => exact hresolve b state rfl
    | some moved => exact hresolve (b.count moved) state rfl
  | hand status event =>
    dsimp only
    cases s.delivery.route b.switchboard.responses status with
    | none =>
      refine ⟨true, (b.count (s.delivery.settled status false).2).meter, ?_⟩
      dsimp only
      rw [hempty]
      exact hresolve (b.count (s.delivery.settled status false).2) _ rfl
    | some taker =>
      cases taker with
      | inl k =>
        simp only [Option.map_some, hand_eq, Switchboard.callee?]
        cases k.fails event with
        | true => exact ⟨false, b.meter, hresolve _ _ rfl⟩
        | false => exact ⟨true, (b.count _).meter, hresolve (Bridge.count _ _) _ rfl⟩
      | inr m =>
        simp only [Option.map_some, forward_eq]
        cases b.switchboard.callee? (.inr m) with
        | none =>
          refine ⟨true, (b.count (s.delivery.settled status true).2).meter, ?_⟩
          dsimp only
          rw [hempty]
          exact hresolve (b.count (s.delivery.settled status true).2) _ rfl
        | some k =>
          simp only [hand_eq]
          cases k.fails event with
          | true => exact ⟨false, b.meter, hresolve _ _ rfl⟩
          | false => exact ⟨true, (b.count _).meter, hresolve (Bridge.count _ _) _ rfl⟩

end Bridge

/-! ## Deliveries -/

/-- A send is where its voyage is: its delivery has not begun yet, or is held up in the body. -/
inductive Send.At (s : Send) : Stage → Prop
  | submitted : s.reading? = none → At s .submitted
  | reading (i : Intake) (rest : Body) (message : Message) : s.reading? = some (i, rest) →
      s.result = .ok message → At s (.reading i rest)

namespace Bridge

variable {b b' : Bridge} {n : Nat} {s s' : Send} {v v₁ v' : Voyage}

/-- A bridge has done something to one send, and its voyage has come as far. -/
structure Sails (b b' : Bridge) (n : Nat) (s' : Send) (v v' : Voyage) : Prop where
  switchboard : b'.switchboard = b.switchboard
  limit : b'.limit = b.limit
  inbound : b'.inbound = b.inbound
  pool : b'.pool = b.pool
  given : b'.requests = b.requests
  sends : b'.sends = b.sends.set n s'
  steps : Voyage.Steps b.switchboard (b.files, v) (b'.files, v')
  send : v'.send = s'.bare
  requests : v'.requests = v.requests
  calls : ∃ calls, v'.calls = v.calls ++ calls ∧ b'.events = b.events ++ ConsumerCall.handed calls

/-- Besides, the task of the send is done with, or waits at a gate. -/
structure Moves (b b' : Bridge) (n : Nat) (s' : Send) (v v' : Voyage) : Prop
    extends Sails b b' n s' v v' where
  waiting : b'.gates.waiting = b.gates.waiting ∨ ∃ gate,
    b'.gates.waiting = b.gates.waiting ++ [(gate, .deliver n)] ∧ s'.At v'.stage

/-- A step may come before. -/
theorem Moves.after {files : FileTree} (h : Moves { b with files } b' n s' v₁ v')
    (hstep : v.Step b.switchboard b.files files v₁) (hr : v₁.requests = v.requests)
    (hc : v₁.calls = v.calls) : Moves b b' n s' v v' where
  __ := h
  steps := hstep.steps.trans h.steps
  requests := h.requests.trans hr
  calls := hc ▸ h.calls

/-- The sender is told how a delivery ended that has called nobody. -/
theorem moves_told {how : DeliveryEnd} (hs : b.sends[n]? = some s) (hv : v.send = s.bare)
    (hstep : v.Step b.switchboard b.files b.files (v.atStage (.ended how))) (meter : Meter) :
    ∃ s' v', Moves b ({ b with meter }.resolve n how.state) n s' v v' := by
  have htell := hstep.steps.trans (Voyage.Step.tell how rfl).steps
  refine ⟨s.told how.state, (v.atStage (.ended how)).told how.state, ?_⟩
  rw [resolve, alterSend_eq (b := { b with meter }) hs]
  have hsend : ((v.atStage (.ended how)).told how.state).send = (s.told how.state).bare := by
    simp only [Voyage.told, Voyage.withHandle, Voyage.atStage, hv]
    rfl
  exact ⟨⟨rfl, rfl, rfl, rfl, rfl, rfl, htell, hsend, rfl,
    [], (List.append_nil _).symm, (List.append_nil _).symm⟩, .inl rfl⟩

/-- A delivery is concluded when its body was read. -/
theorem moves_concludeDelivery {result : Except Fault Taken} {message : Message}
    (hs : b.sends[n]? = some s) (hv : v.send = s.bare) (hstage : v.stage = .read result)
    (hresult : s.result = .ok message) :
    ∃ s' v', Moves b (b.concludeDelivery n s message.endpoint result) n s' v v' := by
  have hresult' : v.send.result = .ok message := by
    rw [hv]
    exact hresult
  obtain ⟨returns, meter, heq⟩ := concludeDelivery_eq hs message.endpoint result
  obtain ⟨v', hsteps, hr, hc, hsend⟩ :=
    Voyage.steps_conclude b.switchboard b.files returns hstage hresult'
  rw [hv] at hc
  refine ⟨s.told (s.delivery.ending b.switchboard message.endpoint returns result).1.state, v', ?_⟩
  rw [heq]
  refine ⟨⟨rfl, rfl, rfl, rfl, rfl, rfl, hsteps, ?_, hr, _, hc, rfl⟩, .inl rfl⟩
  rw [hsend]
  simp only [Voyage.told, Voyage.withHandle, Voyage.atStage, hv]
  rfl

/-- A delivery goes on with a body, and is concluded unless a gate holds it up. -/
theorem moves_resumeDelivery {i : Intake} {body : Body} {message : Message}
    (hs : b.sends[n]? = some s) (hv : v.send = s.bare) (hstage : v.stage = .reading i body)
    (hresult : s.result = .ok message) :
    ∃ s' v', Moves b (b.resumeDelivery n s message.endpoint i body).1 n s' v v' := by
  have hsteps := Voyage.steps_run b.switchboard b.files b.gates (.deliver n) hstage
  have hwaiting := Intake.waiting_run i b.files b.gates (.deliver n) body
  unfold resumeDelivery takeIn
  generalize i.run b.files b.gates (.deliver n) body = r at hsteps hwaiting ⊢
  obtain ⟨progress, files, gates⟩ := r
  cases progress with
  | ended result =>
    obtain ⟨s', v', h⟩ := moves_concludeDelivery (b := { b with files, gates })
      (v := v.atStage (.read result)) hs hv rfl hresult
    exact ⟨s', v', {
      h with
      steps := hsteps.trans h.steps
      waiting := by
        rw [← hwaiting]
        exact h.waiting }⟩
  | held i rest =>
    refine ⟨{ s with reading? := some (i, rest) }, v.atStage (.reading i rest), ?_⟩
    dsimp only
    rw [alterSend_eq (b := { b with files, gates }) hs]
    obtain ⟨gate, hgate⟩ := hwaiting
    exact ⟨⟨rfl, rfl, rfl, rfl, rfl, rfl, hsteps, hv, rfl,
      [], (List.append_nil _).symm, (List.append_nil _).symm⟩,
      .inr ⟨gate, hgate, .reading i rest message rfl hresult⟩⟩

/-- A delivery begins, or goes on after a gate. -/
theorem moves_runDelivery (hs : b.sends[n]? = some s) (hv : v.send = s.bare)
    (hat : s.At v.stage) : ∃ s' v', Moves b (b.runDelivery n).1 n s' v v' := by
  have hresult : v.send.result = s.result := by
    rw [hv]
    rfl
  have hdelivery : v.send.delivery = s.delivery := by
    rw [hv]
    rfl
  unfold runDelivery
  rw [hs]
  dsimp only
  generalize hstage : v.stage = stage at hat
  cases hat with
  | reading i rest message hreading hmessage =>
    simp only [hmessage, hreading]
    exact moves_resumeDelivery hs hv hstage hmessage
  | submitted hreading =>
    have hbegin : v.Step b.switchboard b.files _ _ := .begin hstage
    unfold Voyage.begun at hbegin
    rw [hresult, hdelivery] at hbegin
    cases hmessage : s.result with
    | error fault =>
      rw [hmessage] at hbegin
      dsimp only at hbegin ⊢
      exact moves_told hs hv hbegin (b.count (s.delivery.refuse fault).2).meter
    | ok message =>
      rw [hmessage] at hbegin
      simp only [hreading]
      dsimp only at hbegin
      generalize s.delivery.begin b.files = r at hbegin ⊢
      obtain ⟨fault | i, files⟩ := r
      · obtain ⟨s', v', h⟩ := moves_concludeDelivery (b := { b with files })
          (v := v.atStage (.read (.error fault))) hs hv rfl hmessage
        exact ⟨s', v', h.after hbegin rfl rfl⟩
      · obtain ⟨s', v', h⟩ := moves_resumeDelivery (b := { b with files })
          (v := v.atStage (.reading i message.body)) hs hv rfl hmessage
        exact ⟨s', v', h.after hbegin rfl rfl⟩

end Bridge

end Correlator
