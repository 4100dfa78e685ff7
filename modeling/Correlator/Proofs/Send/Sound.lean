import Correlator.Proofs.Send.Voyage

/-!
# What a sender is told

A voyage comes to one end, and the state of which its sender is told then is in accord with the
calls of consumers that were made.

* `Voyage.Bears`: the calls that were made are in accord with a final state.
* `SendHandle.Tells`: the sender is told a state, or was told it.
* `Voyage.Sound`: what is known of a voyage at its stage; `Voyage.sound_step`: it stays so.
* `Voyage.Continues`: a voyage is a later one of another; `Voyage.continues_step`: whoever was told
  is not told otherwise later.
-/

namespace Correlator

namespace Voyage

/-! ## Calls and states -/

/-- The transport, the delivery or a consumer broke down. -/
def Perished (v : Voyage) : Prop :=
  v.send.answer.outcome = .crashes ∨ v.wrecked = true ∨ ∃ c ∈ v.calls, c.returned = false

/-- The calls that were made are in accord with a final state. -/
def Bears (v : Voyage) : SendState → Prop
  | .sent => False
  | .delivered _ .consumed => ∃ c, v.calls = [c] ∧ c.returned = true
  | .delivered _ _ => v.calls = []
  | .failed .aborted =>
    v.calls.length ≤ 1 ∧ (v.send.answer.outcome = .fails .aborted ∨ v.Perished)
  | .failed _ => v.calls = []

end Voyage

/-- A handle whose sender is told one state, or was told it. One whose other end is gone is told of
a breakdown, whether or not the sender has looked. -/
def SendHandle.Tells (h : SendHandle) (state : SendState) : Prop :=
  h = ⟨.sent, .resolved state⟩ ∨ h = ⟨state, .taken⟩ ∨
    (h = ⟨.sent, .gone⟩ ∨ h = ⟨.sent, .taken⟩) ∧ state = .failed .aborted

theorem SendState.isTerminal_of_ne {state : SendState} (h : state ≠ .sent) :
    state.isTerminal = true := by
  cases state with
  | sent => exact absurd rfl h
  | delivered status outcome => rfl
  | failed fault => rfl

namespace SendHandle.Tells

variable {h : SendHandle} {state : SendState}

/-- Who is told a state is told it for good. -/
theorem poll (ht : h.Tells state) (hs : state ≠ .sent) : h.poll.Tells state := by
  obtain rfl | rfl | ⟨rfl | rfl, rfl⟩ := ht
  · exact .inr (.inl rfl)
  · refine .inr (.inl ?_)
    simp [SendHandle.poll, SendState.isTerminal_of_ne hs]
  · exact .inr (.inr ⟨.inr rfl, rfl⟩)
  · exact .inr (.inr ⟨.inr rfl, rfl⟩)

/-- What the sender is told in the end. -/
theorem outcome? (ht : h.Tells state) (hs : state ≠ .sent) : h.outcome? = some state := by
  obtain rfl | rfl | ⟨rfl | rfl, rfl⟩ := ht
  · rfl
  · simp [SendHandle.outcome?, SendState.isTerminal_of_ne hs]
  · rfl
  · rfl

/-- What the sender has seen is the state, or it has seen nothing yet. -/
theorem seen (ht : h.Tells state) : h.seen = .sent ∨ h.seen = state := by
  obtain rfl | rfl | ⟨rfl | rfl, -⟩ := ht
  · exact .inl rfl
  · exact .inr rfl
  · exact .inl rfl
  · exact .inl rfl

end SendHandle.Tells

namespace Voyage

variable {s : Switchboard} {files files' : FileTree} {v v' : Voyage}

/-- What is known of a voyage at its stage. -/
inductive Sound (v : Voyage) : Prop
  | posted : v.stage = .posted → v.requests = [] → v.send.handle = .new → v.calls = [] → Sound v
  | underway : v.stage.isUnderway = true → v.stage.Fair → v.requests = [v.send.request] →
      v.send.handle = .new → v.calls = [] → Sound v
  | ended (e : DeliveryEnd) : v.stage = .ended e → v.requests = [v.send.request] →
      v.send.handle = .new → v.Bears e.state → Sound v
  | closed (state : SendState) : v.stage = .closed → v.requests = [v.send.request] →
      v.Bears state → v.send.handle.Tells state → Sound v

theorem length_calls_le {state : SendState} (h : v.Bears state) : v.calls.length ≤ 1 := by
  cases state with
  | sent => exact h.elim
  | delivered status outcome =>
    cases outcome with
    | consumed =>
      obtain ⟨c, hc, -⟩ := h
      simp [hc]
    | emptyPayload => simp [show v.calls = [] from h]
    | noListener => simp [show v.calls = [] from h]
  | failed fault =>
    cases fault with
    | aborted => exact h.1
    | _ => simp [show v.calls = [] from h]

theorem ne_sent_of_bears {state : SendState} (h : v.Bears state) : state ≠ .sent := by
  rintro rfl
  exact h

namespace Sound

theorem of_underway (h : v.Sound) (hv : v.stage.isUnderway = true) :
    v.stage.Fair ∧ v.requests = [v.send.request] ∧ v.send.handle = .new ∧ v.calls = [] := by
  cases h with
  | posted hs => simp [hs, Stage.isUnderway] at hv
  | underway _ hfair hr hh hc => exact ⟨hfair, hr, hh, hc⟩
  | ended e hs => simp [hs, Stage.isUnderway] at hv
  | closed state hs => simp [hs, Stage.isUnderway] at hv

theorem of_ended {e : DeliveryEnd} (h : v.Sound) (hv : v.stage = .ended e) :
    v.requests = [v.send.request] ∧ v.send.handle = .new ∧ v.Bears e.state := by
  cases h with
  | posted hs => simp [hs] at hv
  | underway hu => simp [hv, Stage.isUnderway] at hu
  | ended e' hs hr hh hb =>
    cases hs.symm.trans hv
    exact ⟨hr, hh, hb⟩
  | closed state hs => simp [hs] at hv

theorem of_mayBreak (h : v.Sound) (hv : v.stage.mayBreak = true) :
    v.requests = [v.send.request] ∧ v.send.handle = .new ∧ v.calls.length ≤ 1 := by
  cases h with
  | posted hs => simp [hs, Stage.mayBreak] at hv
  | underway _ _ hr hh hc => exact ⟨hr, hh, by simp [hc]⟩
  | ended e _ hr hh hb => exact ⟨hr, hh, length_calls_le hb⟩
  | closed state hs => simp [hs, Stage.mayBreak] at hv

/-- Until its voyage has come to its end, a sender is told nothing. -/
theorem new_or_closed (h : v.Sound) :
    v.send.handle = .new ∨
      ∃ state, v.stage = .closed ∧ v.Bears state ∧ v.send.handle.Tells state := by
  cases h with
  | posted _ _ hh => exact .inl hh
  | underway _ _ _ hh => exact .inl hh
  | ended e _ _ hh => exact .inl hh
  | closed state hs _ hb ht => exact .inr ⟨state, hs, hb, ht⟩

/-- A sender that is told something is told what the calls are in accord with. -/
theorem of_outcome {state : SendState} (h : v.Sound) (ho : v.send.handle.outcome? = some state) :
    v.requests = [v.send.request] ∧ v.Bears state := by
  have hnew : SendHandle.new.outcome? = none := rfl
  cases h with
  | posted _ _ hh | underway _ _ _ hh | ended _ _ _ hh =>
    rw [hh, hnew] at ho
    cases ho
  | closed state' _ hr hb ht =>
    rw [ht.outcome? (ne_sent_of_bears hb)] at ho
    cases ho
    exact ⟨hr, hb⟩

/-- A sender that looks learns what it is told, and nothing else changes. -/
theorem poll (h : v.Sound) : (v.withHandle v.send.handle.poll).Sound := by
  cases h with
  | posted hs hr hh hc => exact .posted hs hr (by simp only [withHandle, hh]; rfl) hc
  | underway hu hf hr hh hc => exact .underway hu hf hr (by simp only [withHandle, hh]; rfl) hc
  | ended e hs hr hh hb => exact .ended e hs hr (by simp only [withHandle, hh]; rfl) hb
  | closed state hs hr hb ht => exact .closed state hs hr hb (ht.poll (ne_sent_of_bears hb))

/-- A voyage under way goes on. -/
theorem advance {stage : Stage} (h : v.Sound) (hv : v.stage.isUnderway = true)
    (hs : stage.isUnderway = true) (hfair : stage.Fair) : (v.atStage stage).Sound := by
  obtain ⟨-, hr, hh, hc⟩ := h.of_underway hv
  exact .underway hs hfair hr hh hc

/-- A voyage under way comes to an end without a call. -/
theorem stop {e : DeliveryEnd} (h : v.Sound) (hv : v.stage.isUnderway = true)
    (hb : v.calls = [] → v.Bears e.state) : (v.atStage (.ended e)).Sound := by
  obtain ⟨-, hr, hh, hc⟩ := h.of_underway hv
  exact .ended e rfl hr hh (hb hc)

end Sound

/-! ## Steps -/

theorem bears_failed {fault : Fault} (hc : v.calls = [])
    (hf : fault = .aborted → v.send.answer.outcome = .fails .aborted ∨ v.Perished) :
    v.Bears (.failed fault) := by
  cases fault with
  | aborted => exact ⟨by simp [hc], hf rfl⟩
  | _ => exact hc

theorem bears_crashed (hc : v.calls.length ≤ 1) (hp : v.Perished) : v.Bears (.failed .aborted) :=
  ⟨hc, .inr hp⟩

/-- An answer that is no response is a failure of the transport. -/
theorem outcome_of_result {fault : Fault} (h : v.send.result = .error fault) :
    v.send.answer.outcome = .fails fault ∨ v.send.answer.outcome = .crashes := by
  unfold Send.result at h
  split at h
  · cases h
  · rename_i hfails
    cases h
    exact .inl hfails
  · rename_i hcrash
    exact .inr hcrash

theorem sound_begun (h : v.Sound) (hv : v.stage = .submitted) :
    (v.atStage (v.begun files).1).Sound := by
  have hu : v.stage.isUnderway = true := by rw [hv]; rfl
  unfold begun
  split
  · rename_i fault hfault
    refine h.stop hu fun hc => bears_failed hc ?_
    rintro rfl
    exact (outcome_of_result hfault).imp_right .inl
  · split
    · exact h.advance hu rfl fun _ => Stage.noConfusion
    · rename_i fault files' hbegin
      refine h.advance hu rfl fun fault' he => ?_
      cases he
      exact Delivery.begin_ne_aborted _ hbegin

theorem sound_readPiece {i : Intake} {p : Piece} {rest : Body} (h : v.Sound)
    (hv : v.stage = .reading i (p :: rest)) :
    (v.atStage (readPiece i files rest p).1).Sound := by
  have hu : v.stage.isUnderway = true := by rw [hv]; rfl
  cases p with
  | chunk bs =>
    rcases htake : i.take files bs with ⟨fault | i', files'⟩
    · simp only [readPiece, htake]
      refine h.advance hu rfl fun fault' he => ?_
      cases he
      rw [Intake.take_error htake]
      exact Fault.noConfusion
    · simp only [readPiece, htake]
      exact h.advance hu rfl fun _ => Stage.noConfusion
  | broken e =>
    refine h.advance hu rfl fun fault he => ?_
    cases he
    unfold BodyError.toFault
    split <;> exact Fault.noConfusion
  | gate name => exact h.advance hu rfl fun _ => Stage.noConfusion

/-- What was called is in accord with how the delivery ended. -/
theorem bears_ending {e : Endpoint} {returns : Bool} {result : Except Fault Taken}
    (hs : s.Wired) (hfair : ∀ fault, result = .error fault → fault ≠ .aborted)
    (hcalls : v.calls = (v.send.delivery.ending s e returns result).2) :
    v.Bears (v.send.delivery.ending s e returns result).1.state := by
  cases result with
  | error fault =>
    obtain ⟨moved?, hconclude⟩ := v.send.delivery.conclude_error e fault
    simp only [Delivery.ending, hconclude] at hcalls ⊢
    exact bears_failed hcalls fun he => absurd he (hfair fault rfl)
  | ok taken =>
    by_cases hempty : (v.send.delivery.payloadOf taken).isEmpty = true
    · simp only [Delivery.ending, Delivery.conclude_ok, hempty, if_true] at hcalls ⊢
      exact hcalls
    · simp only [Delivery.ending, Delivery.conclude_ok, if_neg hempty] at hcalls ⊢
      cases hroute : v.send.delivery.route s.responses (Delivery.statusOf e) with
      | none =>
        simp only [hroute, Delivery.settled_of_route_eq_none _ hroute] at hcalls ⊢
        exact hcalls
      | some taker =>
        obtain ⟨k, hk⟩ := hs.callee?_route hroute
        simp only [hroute, hk] at hcalls ⊢
        cases returns with
        | true => exact ⟨_, hcalls, rfl⟩
        | false =>
          have hperished : v.Perished := .inr (.inr ⟨_, hcalls ▸ List.mem_singleton_self _, rfl⟩)
          exact bears_crashed (by simp [hcalls]) hperished

/-- **A step keeps the calls in accord with what the sender is told.** -/
theorem sound_step (hs : s.Wired) (h : v.Sound) (hstep : Step s files v files' v') : v'.Sound := by
  cases hstep with
  | post hv =>
    cases h with
    | posted _ hr hh hc => exact .underway rfl (fun _ => Stage.noConfusion) (by simp [hr]) hh hc
    | underway hu => simp [hv, Stage.isUnderway] at hu
    | ended e he => simp [hv] at he
    | closed state ho => simp [hv] at ho
  | arrive hv _ => exact h.advance (by rw [hv]; rfl) rfl fun _ => Stage.noConfusion
  | lose hv hcrash =>
    obtain ⟨-, hr, hh, hc⟩ := h.of_underway (by rw [hv]; rfl)
    refine .closed (.failed .aborted) rfl hr (bears_crashed ?_ (.inl hcrash))
      (.inr (.inr ⟨.inl ?_, rfl⟩))
    · simp [withHandle, atStage, hc]
    · simp only [withHandle, atStage, hh]
      rfl
  | turnAway hv => exact h.stop (by rw [hv]; rfl) id
  | begin hv => exact sound_begun h hv
  | piece i p rest hv => exact sound_readPiece h hv
  | finish i hv =>
    refine h.advance (by rw [hv]; rfl) rfl fun fault he => ?_
    cases he
  | conclude result message returns hv hresult =>
    obtain ⟨hfair, hr, hh, hc⟩ := h.of_underway (by rw [hv]; rfl)
    refine .ended _ rfl hr hh (bears_ending hs (fun fault he => hfair fault (he ▸ hv)) ?_)
    rw [hc]
    rfl
  | breakDown hv =>
    obtain ⟨hr, hh, hc⟩ := h.of_mayBreak hv
    exact .ended .crashed rfl hr hh (bears_crashed hc (.inr (.inl rfl)))
  | tell e hv =>
    obtain ⟨hr, hh, hb⟩ := h.of_ended hv
    refine .closed e.state rfl hr hb (.inl ?_)
    simp only [told, withHandle, atStage, hh]
    rfl
  | poll => exact h.poll

/-! ## Later voyages -/

/-- The other voyage is a later one: what was done stays done, and whoever was told its state is
told the same. -/
structure Continues (v v' : Voyage) : Prop where
  sink : v'.sink = v.sink
  event : v'.event = v.event
  send : v'.send = { v.send with handle := v'.send.handle }
  requests : v.requests <+: v'.requests
  calls : v.calls <+: v'.calls
  seen : v.send.handle.seen ≠ .sent → v'.send.handle.seen = v.send.handle.seen
  outcome : ∀ state, v.send.handle.outcome? = some state → v'.send.handle.outcome? = some state

theorem Continues.refl (v : Voyage) : v.Continues v :=
  ⟨rfl, rfl, rfl, List.prefix_rfl, List.prefix_rfl, fun _ => rfl, fun _ => id⟩

theorem Continues.trans {v'' : Voyage} (h : v.Continues v') (h' : v'.Continues v'') :
    v.Continues v'' where
  sink := h'.sink.trans h.sink
  event := h'.event.trans h.event
  send := by rw [h'.send, h.send]
  requests := h.requests.trans h'.requests
  calls := h.calls.trans h'.calls
  seen hv := (h'.seen (h.seen hv ▸ hv)).trans (h.seen hv)
  outcome state hv := h'.outcome state (h.outcome state hv)

/-- A voyage that has come to its end takes no step but that its sender looks. -/
theorem Step.of_closed (h : Step s files v files' v') (hv : v.stage = .closed) :
    v' = v.withHandle v.send.handle.poll := by
  cases h with
  | post hs | arrive hs | lose hs | turnAway hs | begin hs | piece _ _ _ hs | finish _ hs
  | conclude _ _ _ hs | tell _ hs =>
    rw [hv] at hs
    cases hs
  | breakDown hs => simp [hv, Stage.mayBreak] at hs
  | poll => rfl

/-- **Whoever was told is not told otherwise later**, and no call is undone. -/
theorem continues_step (h : v.Sound) (hstep : Step s files v files' v') : v.Continues v' := by
  obtain hnew | ⟨state, hclosed, hb, ht⟩ := h.new_or_closed
  · have hseen : v.send.handle.seen = .sent := by rw [hnew]; rfl
    have houtcome : v.send.handle.outcome? = none := by rw [hnew]; rfl
    have hquiet : (v.send.handle.seen ≠ .sent → v'.send.handle.seen = v.send.handle.seen) ∧
        ∀ state, v.send.handle.outcome? = some state →
          v'.send.handle.outcome? = some state := by simp [hseen, houtcome]
    cases hstep with
    | post => exact ⟨rfl, rfl, rfl, List.prefix_append .., List.prefix_rfl, hquiet.1, hquiet.2⟩
    | conclude => exact ⟨rfl, rfl, rfl, List.prefix_rfl, List.prefix_append .., hquiet.1, hquiet.2⟩
    | _ => exact ⟨rfl, rfl, rfl, List.prefix_rfl, List.prefix_rfl, hquiet.1, hquiet.2⟩
  · cases hstep.of_closed hclosed
    refine ⟨rfl, rfl, rfl, List.prefix_rfl, List.prefix_rfl, fun hv => ?_, fun state' hv => ?_⟩
    · simp [withHandle, SendHandle.poll, SendState.isTerminal_of_ne hv]
    · have hs := ne_sent_of_bears hb
      rw [ht.outcome? hs] at hv
      cases hv
      exact (ht.poll hs).outcome? hs

end Voyage

end Correlator
