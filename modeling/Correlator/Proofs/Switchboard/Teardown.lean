import Correlator.Bridge.Step
import Correlator.Proofs.Exchange.Release
import Correlator.Proofs.Switchboard.Network

/-!
# Sources that are stopped

A source that is stopped leaves the tables, and then its exchange is disconnected. Every request
that is parked there is released, but not every one of them is answered that the source was
stopped: one whose job is still under way hears of its job first, and one whose time has just run
out does not look at what it was given.

* `Network.stopped`: a network in which a source was stopped at a stroke.
* **`Network.answer_of_stopped`**: what the requests that were parked are answered with.
* `Bridge.stopped_empty`: a request that is parked when its source is stopped, and is answered that
  its payload is empty.
-/

namespace Correlator

namespace Network

variable {w w' : Network} {t : Traffic} {id : String} {moves moves' : List Move}

/-- The network once a source was stopped whose exchange has this number. -/
def stopped (w : Network) (c : RequestSourceConfig) (pipeline : String) (n : Nat) : Network :=
  ⟨w.switchboard.pullExchange c pipeline,
    Function.update w.record n { w.record n with closing := .draining [] }⟩

theorem attended_traffic (h : empty.run? moves = some w) :
    ∀ n t, w.traffic? n = some t → t.Attended := by
  have hboth := forall_traffic (P := fun t => t.Tidy ∧ t.Attended)
    (fun attributes k => ⟨Traffic.tidy_fresh attributes k, Traffic.attended_fresh attributes k⟩)
    (fun ht hstep => ⟨Traffic.tidy_step ht.1 hstep, Traffic.attended_step ht.1 ht.2 hstep⟩) h
  exact fun n t ht => (hboth n t ht).2

/-- The exchange of a source that was stopped is disconnected. -/
theorem traffic?_stopped {c : RequestSourceConfig} {pipeline : String} {l : Listener Nat}
    {exchanges : Registry Nat}
    (hl : w.switchboard.exchanges.unregister? (.plain c.sourceId) pipeline = some (l, exchanges))
    (ht : w.traffic? l.handler = some t) :
    (w.stopped c pipeline l.handler).traffic? l.handler =
      some ⟨t.exchange.disconnect, { t.record with closing := .draining [] }⟩ := by
  obtain ⟨x, hx, rfl⟩ := Option.map_eq_some_iff.1 ht
  change w.switchboard.exchangeList[l.handler]? = some x at hx
  unfold stopped traffic? Switchboard.exchange?
  dsimp only
  rw [Switchboard.pullExchange_eq hl, Function.update_self]
  simp [Switchboard.alterExchange, Switchboard.withdrawExchange, hx]

/-- What holds of a released request, and of its exchange, at any later time. -/
def ReleasedFor (id : String) (late : Bool) (t : Traffic) : Prop :=
  t.Tidy ∧ t.record.closing = .draining [] ∧ (t.standing id).Released late

theorem ReleasedFor.isOpen {late : Bool} (h : ReleasedFor id late t) :
    t.exchange.isOpen = false := by
  obtain ⟨htidy, hdrained, -⟩ := h
  exact htidy.1.isOpen (hdrained ▸ Closing.noConfusion)

theorem releasedFor_step {late : Bool} {u : Traffic} {m : Traffic.Move}
    (h : ReleasedFor id late t) (hstep : t.step? m = some u) : ReleasedFor id late u :=
  ⟨Traffic.tidy_step h.1 hstep, (Traffic.closing_step hstep).2 h.2.1,
    Traffic.released_step h.isOpen h.2.2 hstep⟩

/-- **What a request is answered with that is parked when its source is stopped.** It is parked no
longer, and it stays released whatever happens later. If it is answered, then with 503, unless its
job ends with a rejection, as the payload is empty or unreadable or the consumer fails, or it had
seen that its time had run out. And it can go on to its answer if its client has not hung up; what
the job still makes of the body and of the consumer is what the answer goes by. -/
theorem answer_of_stopped {c : RequestSourceConfig} {pipeline : String} {l : Listener Nat}
    {exchanges : Registry Nat} (h : empty.run? moves = some w)
    (hl : w.switchboard.exchanges.unregister? (.plain c.sourceId) pipeline = some (l, exchanges))
    (ht : w.traffic? l.handler = some t) (hclosing : t.record.closing = .notBegun)
    (hid : id ∈ t.exchange.parked)
    (hrun : (w.stopped c pipeline l.handler).run? moves' = some w') :
    ∃ u, w'.traffic? l.handler = some u ∧ id ∉ u.exchange.parked ∧
      (∀ a, u.answer? id = some a → a = (u.record.job id).verdict (t.isLeaving id)) ∧
      ((u.standing id).phase? = some .gone ∨
        ∀ (d : Dispatch) (read : Except Fault String), ∃ moves'' w'' v,
          w'.run? moves'' = some w'' ∧ w''.traffic? l.handler = some v ∧
            v.answer? id = some ((v.record.job id).verdict (t.isLeaving id)) ∧
            (u.record.job id = .submitted → v.record.job id =
              .ended (u.exchange.consumer.endOf (d.conclude read).1 (d.conclude read).2.1))) := by
  -- to stop a source is a run of the network, so that what holds of all traffic holds after it
  have hstopped : w.run? (.withdraw c pipeline ::
      (Traffic.disconnection t.exchange.parked).map (.step l.handler)) =
        some (w.stopped c pipeline l.handler) := by
    refine (run?_pullExchange hl ht hclosing).trans ?_
    obtain ⟨x, hx, rfl⟩ := Option.map_eq_some_iff.1 ht
    rfl
  have hreached : empty.run? (moves ++ .withdraw c pipeline ::
      (Traffic.disconnection t.exchange.parked).map (.step l.handler)) =
        some (w.stopped c pipeline l.handler) :=
    (foldlM_append_of_run h).trans hstopped
  have ht' := traffic?_stopped hl ht
  have hreleased := Traffic.released_disconnect (attended_traffic h _ t ht) hid (.draining [])
  obtain ⟨u, hu, hfor⟩ := traffic?_of_run (P := ReleasedFor id (t.isLeaving id))
    releasedFor_step hrun ht' ⟨tidy_traffic hreached _ _ ht', rfl, hreleased⟩
  refine ⟨u, hu, fun hmem => ?_, fun a => Traffic.answer?_of_released hfor.2.2, ?_⟩
  · rw [← Exchange.isParked_iff] at hmem
    exact Bool.noConfusion (hfor.2.2.withdrawn.symm.trans hmem)
  · by_cases hgone : (u.standing id).phase? = some .gone
    · exact .inl hgone
    · refine .inr fun d read => ?_
      obtain ⟨moves'', v, hv, hanswer, hjob⟩ :=
        Traffic.answer_of_released hfor.isOpen hfor.2.2 hgone d read
      have hv' : (w'.setTraffic l.handler v).traffic? l.handler = some v := by
        rw [traffic?_setTraffic, if_pos rfl, hu]
        rfl
      exact ⟨_, _, v, run?_map_step hu hv, hv', hanswer, hjob⟩

/-- Three requests: the job of the first one has done its work, that of the second one has not, and
the third one has just seen that its time has run out. -/
def three : List Move :=
  [.plug ⟨"orders", "/shop", []⟩ "shop" (.steady "desk"), .step 0 (.park "a"),
    .step 0 (.checkOpen "a"), .step 0 (.handOver "a" ⟨[], .empty, default, []⟩ (.ok "hello")),
    .step 0 (.endJob "a"), .step 0 (.join "a" 60), .step 0 (.park "b"), .step 0 (.checkOpen "b"),
    .step 0 (.park "c"), .step 0 (.checkOpen "c"),
    .step 0 (.handOver "c" ⟨[], .empty, default, []⟩ (.ok "hello")), .step 0 (.endJob "c"),
    .step 0 (.join "c" 40), .step 0 (.expire "c" 40)]

/-- What is left to be done for the other two. -/
def rest : List Move :=
  [.step 0 (.handOver "b" ⟨[], .empty, default, []⟩ (.ok "")), .step 0 (.endJob "b"),
    .step 0 (.join "b" 60), .step 0 (.letGo "c"), .step 0 (.giveUp "c")]

/-- The source is stopped. The first request is answered that it was, the second one that its
payload is empty, and the third one that there was no reply in time. -/
theorem answer_of_stopped_three :
    ∃ w l exchanges t w' u, empty.run? three = some w ∧
      w.switchboard.exchanges.unregister? (.plain "orders") "shop" = some (l, exchanges) ∧
      w.traffic? l.handler = some t ∧ t.record.closing = .notBegun ∧
      t.exchange.parked = ["a", "b", "c"] ∧
      (w.stopped ⟨"orders", "/shop", []⟩ "shop" l.handler).run? rest = some w' ∧
      w'.traffic? l.handler = some u ∧ u.exchange.parked = [] ∧
      u.answer? "a" = some .sourceStopped ∧ u.answer? "c" = some .timedOut ∧
      u.answer? "b" = some ((u.record.job "b").verdict (t.isLeaving "b")) ∧
      u.answer? "b" = some (.plain 400 "Empty payload") := by
  have hend : ((empty.run? three).bind fun w =>
      (w.switchboard.exchanges.unregister? (.plain "orders") "shop").bind fun p =>
        (w.traffic? p.1.handler).bind fun t =>
          ((w.stopped ⟨"orders", "/shop", []⟩ "shop" p.1.handler).run? rest).bind fun w' =>
            (w'.traffic? p.1.handler).map fun u =>
              (t.record.closing, t.exchange.parked, u.exchange.parked,
                ["a", "b", "c"].map u.answer?)) =
      some (.notBegun, ["a", "b", "c"], [], [some .sourceStopped,
        some (.plain 400 "Empty payload"), some .timedOut]) := by decide +kernel
  obtain ⟨w, hw, hend⟩ := Option.bind_eq_some_iff.1 hend
  obtain ⟨⟨l, exchanges⟩, hl, hend⟩ := Option.bind_eq_some_iff.1 hend
  obtain ⟨t, ht, hend⟩ := Option.bind_eq_some_iff.1 hend
  obtain ⟨w', hw', hend⟩ := Option.bind_eq_some_iff.1 hend
  obtain ⟨u, hu, hend⟩ := Option.map_eq_some_iff.1 hend
  simp only [Prod.mk.injEq, List.map_cons, List.map_nil, List.cons.injEq, and_true] at hend
  obtain ⟨hclosing, hparked, hleft, ha, hb, hc⟩ := hend
  have hid : "b" ∈ t.exchange.parked := by simp [hparked]
  obtain ⟨u', hu', -, hverdict, -⟩ :=
    answer_of_stopped (c := ⟨"orders", "/shop", []⟩) hw hl ht hclosing hid hw'
  cases hu.symm.trans hu'
  exact ⟨w, l, exchanges, t, w', u, hw, hl, ht, hclosing, hparked, hw', hu, hleft, ha, hc,
    hb.trans (congrArg some (hverdict _ hb)), hb⟩

end Network

namespace Bridge

/-- A pipeline of one source. -/
def stall : Pipeline :=
  ⟨"shop", [⟨.requestSource ⟨"orders", "/shop", []⟩ (.steady "desk"), false⟩], false, by simp⟩

/-- A request with an empty body that is held up at a gate. -/
def heldUp : Message := ⟨default, [], [.gate "door"]⟩

/-- **Not every request that is parked when its source is stopped is answered with 503.** While the
body of a request is held up its source is stopped. The request is parked then, and it is answered
that its payload is empty. -/
theorem stopped_empty :
    ∃ b₀ b b', new? {} .empty = some b₀ ∧ b = (b₀.start stall).1.receive 0 heldUp ∧
      (b.switchboard.exchange? 0).map (·.parked) = some [MessageId.ofNumber 0] ∧
      b' = (b.shutdown (b₀.start stall).2.1).1 ∧ b'.reply? 0 = none ∧
      (b'.openGate "door").reply? 0 = some (.plain 400 "Empty payload") ∧
      Reply.plain 400 "Empty payload" ≠ .sourceStopped := by
  have hend : (new? {} .empty).map (fun b₀ =>
      let b := (b₀.start stall).1.receive 0 heldUp
      let b' := (b.shutdown (b₀.start stall).2.1).1
      ((b.switchboard.exchange? 0).map (·.parked), b'.reply? 0,
        (b'.openGate "door").reply? 0)) =
      some (some [MessageId.ofNumber 0], none, some (.plain 400 "Empty payload")) := by
    decide +kernel
  obtain ⟨b₀, hnew, hend⟩ := Option.map_eq_some_iff.1 hend
  obtain ⟨hparked, hwaiting, hanswer⟩ := by simpa only [Prod.mk.injEq] using hend
  exact ⟨b₀, _, _, hnew, rfl, hparked, rfl, hwaiting, hanswer, by decide +kernel⟩

end Bridge

end Correlator
