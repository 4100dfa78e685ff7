import Correlator.Bridge.Run
import Correlator.Proofs.Exchange.Closing
import Correlator.Proofs.Switchboard.Restored

/-!
# The exchanges of a switchboard

Sources come and go, and each that comes gets an exchange of its own. An exchange that has left the
tables is still there for whoever has hold of it, and its calls go on.

* `Network`: a switchboard with a record of each of its exchanges.
* `Network.step?`, `Network.run?`: a source comes, a source is taken out of the tables, or there is
  a step at one exchange, whether the tables lead to it or not.
* `Network.run?_pullExchange`, `Network.run?_concludeDispatch`, `Network.run?_expire`: a source that
  is stopped, a job that comes to its end and calls whose time has run out, each at a stroke, take
  such steps.
* **`Network.drained_for_good`**: at an exchange that was closed no call is let in, and nothing is
  left behind at one that was drained.

What is shown of one exchange holds of each of them in any order of steps, since a step at one
exchange does nothing to another one.
-/

namespace Correlator

/-- The record of an exchange that was disconnected before anything had happened at it. -/
def Record.over : Record := { Record.fresh with closing := .draining [] }

/-! ## What sources and jobs do to exchanges -/

namespace Switchboard

/-- A request source taken out of the tables. Its exchange is left alone. -/
def withdrawExchange (s : Switchboard) (c : RequestSourceConfig) (pipeline : String) :
    Switchboard :=
  let unregistered := s.exchanges.unregister? (.plain c.sourceId) pipeline
  { s with
    routes := (s.routes.unbind? c.path pipeline).getD s.routes
    exchanges := (unregistered.map fun u => u.2).getD s.exchanges }

theorem pullExchange_eq {s : Switchboard} {c : RequestSourceConfig} {pipeline : String}
    {l : Listener Nat} {exchanges : Registry Nat}
    (h : s.exchanges.unregister? (.plain c.sourceId) pipeline = some (l, exchanges)) :
    s.pullExchange c pipeline =
      (s.withdrawExchange c pipeline).alterExchange l.handler Exchange.disconnect := by
  unfold pullExchange unregisterExchange withdrawExchange
  dsimp only
  rw [h]
  rfl

/-- A source that comes leaves the other exchanges alone. The new one is open if the source could
come; otherwise there is none, or it was disconnected again. -/
theorem exchangeList_plugExchange {s t : Switchboard} {c : RequestSourceConfig}
    {pipeline : String} {k : Consumer} {result : Except Fault Unit}
    (h : s.plugExchange c pipeline k = (t, result)) :
    ∃ more, t.exchangeList = s.exchangeList ++ more ∧
      (more = [] ∨ more = [if result.isOk then .new c.attributes k
        else (Exchange.new c.attributes k).disconnect]) := by
  unfold plugExchange at h
  dsimp only at h
  split at h
  · cases h
    exact ⟨[], (List.append_nil _).symm, .inl rfl⟩
  · rename_i exchanges hx
    split at h
    · cases h
      rw [unregisterExchange_of_register _ hx]
      exact ⟨_, rfl, .inr rfl⟩
    · cases h
      exact ⟨_, rfl, .inr rfl⟩

end Switchboard

namespace Bridge

/-- One bridge is another one as far as the calls at exchanges are concerned. -/
def SameCalls (b b' : Bridge) : Prop :=
  b'.switchboard = b.switchboard ∧ b'.deadline = b.deadline

variable {b b' : Bridge} {i : Inbound} {x : Exchange}

theorem sameCalls_count? (b : Bridge) (moved? : Option Series) : b.SameCalls (b.count? moved?) := by
  cases moved? <;> exact ⟨rfl, rfl⟩

theorem sameCalls_hand (b : Bridge) (k : Consumer) (e : Event) :
    b.SameCalls (b.hand k e).1 ∧ (b.hand k e).2 = !k.fails e := by
  unfold hand
  cases k.fails e <;> exact ⟨⟨rfl, rfl⟩, rfl⟩

theorem SameCalls.switchboard_join (h : b.SameCalls b') (e : DispatchEnd) :
    (b'.join i e).switchboard =
      b.switchboard.alterExchange i.exchange fun y => y.joined i.id e b.deadline := by
  unfold join alterExchange
  rw [h.1, h.2]

/-- A job that comes to its end tells its call how it ended. -/
theorem switchboard_concludeDispatch (hx : b.switchboard.exchange? i.exchange = some x)
    (read : Except Fault String) :
    (b.concludeDispatch i read).switchboard = b.switchboard.alterExchange i.exchange fun y =>
      y.joined i.id (x.consumer.endOf (i.dispatch.conclude read).1 (i.dispatch.conclude read).2.1)
        b.deadline := by
  have hforwarded := i.dispatch.conclude_eq_forwarded read
  unfold concludeDispatch
  rcases hc : i.dispatch.conclude read with ⟨outcome, event?, moved?⟩
  rw [hc] at hforwarded
  have hcount := b.sameCalls_count? moved?
  dsimp only at hforwarded ⊢
  rw [hcount.1, hx]
  cases event? with
  | none =>
    have hne : outcome ≠ .forwarded := fun e => hforwarded.1 e rfl
    simp only [hcount.switchboard_join, Consumer.endOf, hne, false_and, if_false]
  | some e =>
    have hf : outcome = .forwarded := hforwarded.2 (by simp)
    subst hf
    obtain ⟨⟨hs, hd⟩, htook⟩ := (b.count? moved?).sameCalls_hand x.consumer e
    rcases hhand : (b.count? moved?).hand x.consumer e with ⟨b', took⟩
    rw [hhand] at hs hd htook
    have hb' : b.SameCalls b' := ⟨hs.trans hcount.1, hd.trans hcount.2⟩
    cases hk : x.consumer.fails e with
    | true =>
      rw [hk] at htook
      cases htook
      simp [hhand, hb'.switchboard_join, Consumer.endOf, hk]
    | false =>
      rw [hk] at htook
      cases htook
      simp [hhand, hb'.switchboard_join, Consumer.endOf, hk]

end Bridge

/-! ## Networks -/

/-- A switchboard with a record of each of its exchanges. -/
structure Network where
  switchboard : Switchboard
  record : Nat → Record

namespace Network

/-- Nothing is plugged in yet. -/
def empty : Network := ⟨.empty, fun _ => .fresh⟩

/-- The traffic at an exchange. -/
def traffic? (w : Network) (n : Nat) : Option Traffic :=
  (w.switchboard.exchange? n).map fun x => ⟨x, w.record n⟩

/-- The network with other traffic at an exchange. -/
def setTraffic (w : Network) (n : Nat) (t : Traffic) : Network :=
  ⟨w.switchboard.alterExchange n fun _ => t.exchange, Function.update w.record n t.record⟩

/-- What may happen in a network. -/
inductive Move
  | plug (c : RequestSourceConfig) (pipeline : String) (k : Consumer)
  | withdraw (c : RequestSourceConfig) (pipeline : String)
  /-- A step at the exchange of a number. -/
  | step (n : Nat) (m : Traffic.Move)

/-- One step, if it can be taken. -/
def step? (w : Network) : Move → Option Network
  | .plug c pipeline k =>
    match w.switchboard.plugExchange c pipeline k with
    | (switchboard, result) =>
      let record := if result.isOk then .fresh else .over
      some ⟨switchboard, Function.update w.record w.switchboard.exchangeList.length record⟩
  | .withdraw c pipeline => some { w with switchboard := w.switchboard.withdrawExchange c pipeline }
  | .step n m => (w.traffic? n).bind fun t => (t.step? m).map (w.setTraffic n)

/-- A run of steps, if each of them can be taken. -/
def run? (w : Network) (moves : List Move) : Option Network := moves.foldlM step? w

variable {w w' : Network} {n : Nat} {t u : Traffic} {moves : List Move}

theorem traffic?_setTraffic (n' : Nat) :
    (w.setTraffic n u).traffic? n' =
      if n' = n then (w.traffic? n').map fun _ => u else w.traffic? n' := by
  unfold traffic? setTraffic Switchboard.alterExchange Switchboard.exchange?
  dsimp only
  rw [List.getElem?_modify]
  by_cases h : n' = n
  · subst h
    cases w.switchboard.exchangeList[n']? <;> simp
  · cases w.switchboard.exchangeList[n']? <;> simp [h, Ne.symm h]

/-- A source that comes leaves the traffic at other exchanges alone, and brings new traffic at its
own. -/
theorem traffic?_plug {c : RequestSourceConfig} {pipeline : String} {k : Consumer}
    (h : w.step? (.plug c pipeline k) = some w') :
    (∀ t, w.traffic? n = some t → w'.traffic? n = some t) ∧
      (w.traffic? n = none → ∀ u, w'.traffic? n = some u → u = .fresh c.attributes k ∨
        u = ⟨(Exchange.new c.attributes k).disconnect, .over⟩) := by
  rcases hplug : w.switchboard.plugExchange c pipeline k with ⟨s, result⟩
  obtain ⟨more, hmore, hnew⟩ := Switchboard.exchangeList_plugExchange hplug
  simp only [step?, hplug, Option.some.injEq] at h
  subst h
  unfold traffic? Switchboard.exchange?
  dsimp only
  rw [hmore]
  constructor
  · intro t ht
    obtain ⟨x, hx, rfl⟩ := Option.map_eq_some_iff.1 ht
    have hlt := (List.getElem?_eq_some_iff.1 hx).1
    rw [List.getElem?_append_left hlt, hx, Function.update_of_ne (Nat.ne_of_lt hlt)]
    rfl
  · intro hn u hu
    have hle : w.switchboard.exchangeList.length ≤ n := by simpa using hn
    obtain ⟨x, hx, rfl⟩ := Option.map_eq_some_iff.1 hu
    rw [List.getElem?_append_right hle] at hx
    rcases hnew with rfl | rfl
    · cases hx
    · have hzero : n - w.switchboard.exchangeList.length = 0 := by
        have hlt := (List.getElem?_eq_some_iff.1 hx).1
        simpa using hlt
      have hnum : n = w.switchboard.exchangeList.length := by omega
      subst hnum
      rw [Function.update_self]
      rw [hzero] at hx
      cases hx
      cases result.isOk with
      | true => exact .inl rfl
      | false => exact .inr rfl

/-- A step of the network is a step at each exchange, or leaves it alone. -/
theorem traffic?_of_step {m : Move} (h : w.step? m = some w') (ht : w.traffic? n = some t) :
    ∃ u, w'.traffic? n = some u ∧ (u = t ∨ ∃ m', t.step? m' = some u) := by
  cases m with
  | plug c pipeline k => exact ⟨t, (traffic?_plug h).1 t ht, .inl rfl⟩
  | withdraw c pipeline =>
    cases h
    exact ⟨t, ht, .inl rfl⟩
  | step n' m =>
    obtain ⟨t', ht', hstep⟩ := Option.bind_eq_some_iff.1 h
    obtain ⟨u, hu, rfl⟩ := Option.map_eq_some_iff.1 hstep
    rw [traffic?_setTraffic, ht]
    by_cases hn : n = n'
    · subst hn
      cases ht.symm.trans ht'
      exact ⟨u, if_pos rfl, .inr ⟨m, hu⟩⟩
    · exact ⟨t, if_neg hn, .inl rfl⟩

/-- An exchange that was not there before is new. -/
theorem traffic?_new {m : Move} (h : w.step? m = some w') (hn : w.traffic? n = none)
    (hu : w'.traffic? n = some u) :
    ∃ attributes k, u = .fresh attributes k ∨
      u = ⟨(Exchange.new attributes k).disconnect, .over⟩ := by
  cases m with
  | plug c pipeline k => exact ⟨c.attributes, k, (traffic?_plug h).2 hn u hu⟩
  | withdraw c pipeline =>
    cases h
    change w.traffic? n = some u at hu
    rw [hn] at hu
    cases hu
  | step n' m =>
    obtain ⟨t', ht', hstep⟩ := Option.bind_eq_some_iff.1 h
    obtain ⟨u', -, rfl⟩ := Option.map_eq_some_iff.1 hstep
    rw [traffic?_setTraffic, hn] at hu
    by_cases hn' : n = n'
    · simp [hn'] at hu
    · simp [hn'] at hu

/-! ## What is done at a stroke -/

/-- To put the changed exchange in its place is to change the exchange in its place. -/
theorem setTraffic_alter {x : Exchange} {f : Exchange → Exchange}
    (hx : w.switchboard.exchange? n = some x) (r : Record) :
    w.setTraffic n ⟨f x, r⟩ =
      ⟨w.switchboard.alterExchange n f, Function.update w.record n r⟩ := by
  have hlist : (w.switchboard.exchangeList.modify n fun _ => f x) =
      w.switchboard.exchangeList.modify n f := by
    change w.switchboard.exchangeList[n]? = some x at hx
    refine List.ext_getElem? fun n' => ?_
    rw [List.getElem?_modify, List.getElem?_modify]
    by_cases hn : n = n'
    · subst hn
      simp [hx]
    · simp [hn]
  unfold setTraffic Switchboard.alterExchange
  rw [hlist]

theorem setTraffic_self (ht : w.traffic? n = some t) : w.setTraffic n t = w := by
  obtain ⟨x, hx, rfl⟩ := Option.map_eq_some_iff.1 ht
  refine (setTraffic_alter (f := id) hx (w.record n)).trans ?_
  rw [Function.update_eq_self, Switchboard.alterExchange, List.modify_id]

theorem setTraffic_setTraffic : (w.setTraffic n t).setTraffic n u = w.setTraffic n u := by
  unfold setTraffic Switchboard.alterExchange
  simp [List.modify_modify_eq, Function.comp_def]

/-- A run at an exchange is a run of the network. -/
theorem run?_map_step {ms : List Traffic.Move} (ht : w.traffic? n = some t)
    (h : t.run? ms = some u) : w.run? (ms.map (.step n)) = some (w.setTraffic n u) := by
  induction ms generalizing w t with
  | nil =>
    cases h
    exact congrArg some (setTraffic_self ht).symm
  | cons m ms ih =>
    obtain ⟨v, hv, hrun⟩ := Option.bind_eq_some_iff.1 (List.foldlM_cons.symm.trans h)
    have hstep : w.step? (.step n m) = some (w.setTraffic n v) := by simp [step?, ht, hv]
    have htv : (w.setTraffic n v).traffic? n = some v := by
      rw [traffic?_setTraffic, if_pos rfl, ht]
      rfl
    refine (foldlM_cons_of_step hstep).trans ((ih htv hrun).trans ?_)
    rw [setTraffic_setTraffic]

/-- A source that is stopped at a stroke leaves the tables, and then its exchange takes the steps
of its end. -/
theorem run?_pullExchange {c : RequestSourceConfig} {pipeline : String} {l : Listener Nat}
    {exchanges : Registry Nat}
    (hl : w.switchboard.exchanges.unregister? (.plain c.sourceId) pipeline = some (l, exchanges))
    (ht : w.traffic? l.handler = some t) (hclosing : t.record.closing = .notBegun) :
    w.run? (.withdraw c pipeline ::
        (Traffic.disconnection t.exchange.parked).map (.step l.handler)) =
      some ⟨w.switchboard.pullExchange c pipeline,
        Function.update w.record l.handler { t.record with closing := .draining [] }⟩ := by
  obtain ⟨x, hx, rfl⟩ := Option.map_eq_some_iff.1 ht
  have ht' : traffic? { w with switchboard := w.switchboard.withdrawExchange c pipeline }
      l.handler = some ⟨x, w.record l.handler⟩ := ht
  rw [Switchboard.pullExchange_eq hl]
  refine (run?_map_step ht' (Traffic.run?_disconnect hclosing)).trans ?_
  exact congrArg some (setTraffic_alter
    (w := ⟨w.switchboard.withdrawExchange c pipeline, w.record⟩) (f := Exchange.disconnect) hx _)

/-- A job that comes to its end at a stroke hands its event over, ends, and has its call told. -/
theorem run?_concludeDispatch {b : Bridge} {i : Inbound} {x : Exchange} {record : Nat → Record}
    (hx : b.switchboard.exchange? i.exchange = some x)
    (hjob : (record i.exchange).job i.id = .submitted) (read : Except Fault String) :
    ∃ record', run? ⟨b.switchboard, record⟩
        ([.handOver i.id i.dispatch read, .endJob i.id, .join i.id b.deadline].map
          (.step i.exchange)) =
      some ⟨(b.concludeDispatch i read).switchboard, record'⟩ := by
  have ht : traffic? ⟨b.switchboard, record⟩ i.exchange = some ⟨x, record i.exchange⟩ := by
    simp [traffic?, hx]
  obtain ⟨u, hu, hexchange, hended⟩ :=
    Traffic.exists_ending (t := ⟨x, record i.exchange⟩) hjob i.dispatch read
  have hjoin : u.step? (.join i.id b.deadline) = some { u with
      exchange := x.joined i.id (x.consumer.endOf (i.dispatch.conclude read).1
        (i.dispatch.conclude read).2.1) b.deadline } := by
    simp [Traffic.step?, hended, hexchange]
  have hrun : Traffic.run? ⟨x, record i.exchange⟩
      [.handOver i.id i.dispatch read, .endJob i.id, .join i.id b.deadline] = some _ :=
    (foldlM_append_of_run hu).trans (foldlM_cons_of_step hjoin)
  refine ⟨Function.update record i.exchange u.record, (run?_map_step ht hrun).trans ?_⟩
  rw [Bridge.switchboard_concludeDispatch hx]
  exact congrArg some (setTraffic_alter (w := ⟨b.switchboard, record⟩)
    (f := fun y => y.joined i.id _ b.deadline) hx u.record)

/-! ## Runs -/

/-- What every step at an exchange preserves, every run of the network preserves there. -/
theorem traffic?_of_run {P : Traffic → Prop}
    (hP : ∀ {t m u}, P t → Traffic.step? t m = some u → P u) (hrun : w.run? moves = some w')
    (ht : w.traffic? n = some t) (h : P t) : ∃ u, w'.traffic? n = some u ∧ P u := by
  refine foldlM_induction (P := fun v => ∃ u, v.traffic? n = some u ∧ P u) ?_ ⟨t, ht, h⟩ hrun
  rintro v m v' ⟨u, hu, hPu⟩ hstep
  obtain ⟨u', hu', rfl | ⟨m', hm'⟩⟩ := traffic?_of_step hstep hu
  · exact ⟨u', hu', hPu⟩
  · exact ⟨u', hu', hP hPu hm'⟩

/-- What holds of new exchanges and is preserved by every step at an exchange, holds at all
exchanges of every run. -/
theorem forall_traffic {P : Traffic → Prop} (hfresh : ∀ attributes k, P (.fresh attributes k))
    (hP : ∀ {t m u}, P t → Traffic.step? t m = some u → P u) (h : empty.run? moves = some w) :
    ∀ n t, w.traffic? n = some t → P t := by
  have hover : ∀ attributes k, P ⟨(Exchange.new attributes k).disconnect, .over⟩ :=
    fun attributes k => foldlM_induction hP (hfresh attributes k)
      (Traffic.run?_disconnect (t := .fresh attributes k) rfl)
  refine foldlM_induction (P := fun v => ∀ n t, v.traffic? n = some t → P t) ?_ ?_ h
  · intro v m v' hv hstep n u hu
    cases ht : v.traffic? n with
    | none =>
      obtain ⟨attributes, k, rfl | rfl⟩ := traffic?_new hstep ht hu
      · exact hfresh attributes k
      · exact hover attributes k
    | some t =>
      obtain ⟨u', hu', hor⟩ := traffic?_of_step hstep ht
      cases hu'.symm.trans hu
      rcases hor with rfl | ⟨m', hm'⟩
      · exact hv n u ht
      · exact hP (hv n t ht) hm'
  · intro n t ht
    cases ht

theorem tidy_traffic (h : empty.run? moves = some w) :
    ∀ n t, w.traffic? n = some t → t.Tidy :=
  forall_traffic Traffic.tidy_fresh Traffic.tidy_step h

/-- Calls that are answered at a stroke when their time has run out leave one after another. -/
theorem run?_expire (h : empty.run? moves = some w) (ht : w.traffic? n = some t) (now : Nat) :
    w.run? ((t.departures now).map (.step n)) =
      some ⟨w.switchboard.alterExchange n (·.expire now), w.record⟩ := by
  have hids : t.exchange.ids.Nodup := forall_traffic (P := fun t => t.exchange.ids.Nodup)
    (fun _ _ => List.nodup_nil) Traffic.nodup_ids_step h n t ht
  refine (run?_map_step ht (Traffic.run?_departures_of_nodup hids now)).trans ?_
  obtain ⟨x, hx, rfl⟩ := Option.map_eq_some_iff.1 ht
  refine congrArg some ((setTraffic_alter (f := (·.expire now)) hx (w.record n)).trans ?_)
  rw [Function.update_eq_self]

/-- **An exchange that was closed lets nobody in, and one that was drained keeps nobody back.**
A call that checks after the exchange was closed is answered that the source was stopped, for good;
there is no job for it and no event. Once the exchange was drained, and at any later time, a parked
id is that of a call that is about to check, and nothing is parked when there is no such call. If
there was none already, then it is that of a call that came since. -/
theorem drained_for_good (h : empty.run? moves = some w) (ht : w.traffic? n = some t) :
    (t.record.closing ≠ .notBegun → ∀ id w₁ moves' w₂,
      w.step? (.step n (.checkOpen id)) = some w₁ → w₁.run? moves' = some w₂ →
        ∃ u, w₂.traffic? n = some u ∧ (u.standing id).Refused) ∧
    (t.record.closing = .draining [] → ∀ moves' w', w.run? moves' = some w' →
      ∃ u, w'.traffic? n = some u ∧
        (∀ id ∈ u.exchange.parked, (u.standing id).phase? = some .parked ∧
          (w'.step? (.step n (.checkOpen id))).isSome = true) ∧
        ((∀ c ∈ u.exchange.calls, c.phase ≠ .parked) → u.exchange.parked = []) ∧
        ((∀ c ∈ t.exchange.calls, c.phase ≠ .parked) →
          ∀ id ∈ u.exchange.parked, t.exchange.call? id = none)) := by
  have htidy : t.Tidy := tidy_traffic h n t ht
  refine ⟨fun hclosing id w₁ moves' w₂ hcheck hrun => ?_, fun hdone moves' w' hrun => ?_⟩
  · obtain ⟨t', ht', hstep⟩ := Option.bind_eq_some_iff.1 hcheck
    cases ht.symm.trans ht'
    obtain ⟨u, hu, rfl⟩ := Option.map_eq_some_iff.1 hstep
    have hu₁ : (w.setTraffic n u).traffic? n = some u := by
      rw [traffic?_setTraffic, if_pos rfl, ht]
      rfl
    exact traffic?_of_run Traffic.refused_step hrun hu₁ (htidy.refused_of_checkOpen hclosing hu)
  · obtain ⟨u, hu, hsince⟩ := traffic?_of_run Traffic.drainedSince_step hrun ht
      (htidy.drainedSince hdone)
    refine ⟨u, hu, fun id hid => ?_, hsince.tidy.parked_eq_nil hsince.drained,
      fun hchecked id hid => hsince.call?_eq_none (htidy.parked_eq_nil hdone hchecked) hid⟩
    have hphase := hsince.tidy.phase_of_mem_parked hsince.drained hid
    refine ⟨hphase, ?_⟩
    simpa [step?, hu] using Traffic.isSome_checkOpen hphase

/-- A source is stopped and started again. While the parked ids were being listed a call came to
its old exchange. -/
def latecomer : List Move :=
  [.plug ⟨"orders", "/shop", []⟩ "shop" (.steady "desk"), .step 0 (.park "a"),
    .step 0 (.checkOpen "a"), .withdraw ⟨"orders", "/shop", []⟩ "shop", .step 0 .close,
    .step 0 .beginListing, .step 0 (.park "b"), .step 0 (.endListing ["a"]), .step 0 (.drain "a"),
    .plug ⟨"orders", "/shop", []⟩ "shop" (.steady "desk")]

/-- The call is still parked, and can do nothing but be turned down. -/
theorem drained_for_good_latecomer :
    ∃ w t, empty.run? latecomer = some w ∧ w.traffic? 0 = some t ∧
      t.record.closing = .draining [] ∧ t.exchange.parked = ["b"] ∧
      (w.step? (.step 0 (.checkOpen "b"))).isSome = true ∧
      ∀ w₁ moves w₂, w.step? (.step 0 (.checkOpen "b")) = some w₁ → w₁.run? moves = some w₂ →
        ∃ u, w₂.traffic? 0 = some u ∧ (u.standing "b").Refused := by
  have hend : ((empty.run? latecomer).bind fun w => (w.traffic? 0).map fun t =>
      (t.record.closing, t.exchange.parked)) = some (.draining [], ["b"]) := by decide +kernel
  obtain ⟨w, hw, hmap⟩ := Option.bind_eq_some_iff.1 hend
  obtain ⟨t, ht, heq⟩ := Option.map_eq_some_iff.1 hmap
  obtain ⟨hclosing, hparked⟩ := Prod.mk.inj heq
  obtain ⟨hrefused, hlater⟩ := drained_for_good hw ht
  obtain ⟨u, hu, hearly, -⟩ := hlater hclosing [] w rfl
  cases ht.symm.trans hu
  refine ⟨w, t, hw, ht, hclosing, hparked, (hearly "b" ?_).2, hrefused ?_ "b"⟩
  · rw [hparked]
    exact List.mem_singleton_self _
  · rw [hclosing]
    exact Closing.noConfusion

end Network

end Correlator
