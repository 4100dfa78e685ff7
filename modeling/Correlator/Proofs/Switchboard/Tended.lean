import Correlator.Proofs.Exchange.Tended
import Correlator.Proofs.Switchboard.Ledger
import Correlator.Proofs.Switchboard.Turns

/-!
# Switchboards that are tended

At a tended switchboard the tables lead to every exchange that is open. So when nothing is listed
any more all exchanges are closed, and nobody is parked anywhere.

* `Switchboard.Stays`: what jobs, replies and timers do.
* `Switchboard.Tended`, `Switchboard.Vacant`: the tables lead to every exchange that is open, and
  whoever waits is parked; nobody is parked. Both are kept by these, and when elements come and go.
* **`Switchboard.Tended.vacant`**: nobody is parked where nothing is listed.
* `Switchboard.Expects`: whoever is parked anywhere has no reply yet; this is kept as well.
-/

namespace Correlator

namespace Switchboard

variable {s s' s'' : Switchboard} {n : Nat} {x x' : Exchange}

/-! ## What jobs, replies and timers do -/

/-- The tables stay as they are, and so does each exchange as far as it is open and tended. -/
structure Stays (s s' : Switchboard) : Prop where
  responses : s'.responses = s.responses
  exchanges : s'.exchanges = s.exchanges
  routes : s'.routes = s.routes
  forwarders : s'.forwarderList = s.forwarderList
  old : ∀ n x, s.exchange? n = some x → ∃ x', s'.exchange? n = some x' ∧ x.Stays x'
  new : ∀ n x', s'.exchange? n = some x' → ∃ x, s.exchange? n = some x ∧ x.Stays x'

namespace Stays

theorem refl (s : Switchboard) : s.Stays s :=
  ⟨rfl, rfl, rfl, rfl, fun _ x hx => ⟨x, hx, .refl x⟩, fun _ x hx => ⟨x, hx, .refl x⟩⟩

theorem trans (h : s.Stays s') (h' : s'.Stays s'') : s.Stays s'' where
  responses := h'.responses.trans h.responses
  exchanges := h'.exchanges.trans h.exchanges
  routes := h'.routes.trans h.routes
  forwarders := h'.forwarders.trans h.forwarders
  old n x hx := by
    obtain ⟨x', hx', hstays⟩ := h.old n x hx
    obtain ⟨x'', hx'', hstays'⟩ := h'.old n x' hx'
    exact ⟨x'', hx'', hstays.trans hstays'⟩
  new n x'' hx'' := by
    obtain ⟨x', hx', hstays'⟩ := h'.new n x'' hx''
    obtain ⟨x, hx, hstays⟩ := h.new n x' hx'
    exact ⟨x, hx, hstays.trans hstays'⟩

/-- Each exchange changed on its own. -/
theorem of_getElem? {f : Nat → Exchange → Exchange}
    (hf : ∀ (n : Nat) (x : Exchange), x.Stays (f n x)) {exchangeList : List Exchange}
    (h : ∀ n : Nat, exchangeList[n]? = s.exchangeList[n]?.map (f n)) :
    s.Stays { s with exchangeList } := by
  refine ⟨rfl, rfl, rfl, rfl, fun n x hx => ⟨f n x, ?_, hf n x⟩, fun n x' hx' => ?_⟩
  · exact (h n).trans (congrArg (Option.map (f n)) hx)
  · obtain ⟨x, hx, rfl⟩ := Option.map_eq_some_iff.1 ((h n).symm.trans hx')
    exact ⟨x, hx, hf n x⟩

end Stays

theorem stays_alterExchange (s : Switchboard) (n : Nat) {f : Exchange → Exchange}
    (hf : ∀ x : Exchange, x.Stays (f x)) : s.Stays (s.alterExchange n f) := by
  refine .of_getElem? (f := fun m x => if n = m then f x else x) (fun m x => ?_) fun m => ?_
  · split
    · exact hf x
    · exact .refl x
  · rw [List.getElem?_modify]
    rfl

theorem stays_expire (s : Switchboard) (now : Nat) :
    s.Stays { s with exchangeList := s.exchangeList.map fun x => x.expire now } :=
  .of_getElem? (f := fun _ x => x.expire now) (fun _ x => x.stays_expire now) fun _ =>
    List.getElem?_map ..

/-- Sources hold what they held, as long as the tables and the exchanges' fronts stay. -/
theorem Holds.of_front {parts : List (String × Part)} (h : s.Holds parts)
    (hresponses : s'.responses = s.responses) (hexchanges : s'.exchanges = s.exchanges)
    (hroutes : s'.routes = s.routes) (hforwarders : s'.forwarderList = s.forwarderList)
    (hfront : ∀ n x, s.exchange? n = some x → ∃ x', s'.exchange? n = some x' ∧ x'.front = x.front) :
    s'.Holds parts := by
  obtain ⟨requests, responses, hl, hr, hq⟩ := h
  refine ⟨requests, responses, ?_, hr, hq⟩
  exact {
    hl with
    responses_perm := hresponses ▸ hl.responses_perm
    exchanges_perm := hexchanges ▸ hl.exchanges_perm
    routes_perm := hroutes ▸ hl.routes_perm
    forwarder_open := fun p hp => by
      unfold forwarder?
      rw [hforwarders]
      exact hl.forwarder_open p hp
    exchange_open := fun p hp => by
      obtain ⟨x, hx, hopen, hconsumer⟩ := hl.exchange_open p hp
      obtain ⟨x', hx', he⟩ := hfront p.number x hx
      exact ⟨x', hx', (congrArg (fun front => front.2.2) he).trans hopen,
        (congrArg (fun front => front.2.1) he).trans hconsumer⟩ }

theorem Holds.stays {parts : List (String × Part)} (h : s.Holds parts) (hstays : s.Stays s') :
    s'.Holds parts := by
  refine h.of_front hstays.responses hstays.exchanges hstays.routes hstays.forwarders ?_
  intro n x hx
  obtain ⟨x', hx', hxx'⟩ := hstays.old n x hx
  exact ⟨x', hx', hxx'.front⟩

/-- A call comes to an exchange. -/
theorem Holds.receive {parts : List (String × Part)} (h : s.Holds parts) (n : Nat) (id : String) :
    (s.alterExchange n (·.receive id)).Holds parts := by
  refine h.of_front rfl rfl rfl rfl fun m x hx => ⟨if n = m then x.receive id else x, ?_, ?_⟩
  · show (s.exchangeList.modify n _)[m]? = _
    rw [List.getElem?_modify, show s.exchangeList[m]? = some x from hx]
    rfl
  · split
    · exact Exchange.front_checkOpen (x.park id) id
    · rfl

/-! ## Exchanges that the tables lead to -/

/-- The tables lead to every exchange that is open. -/
def Lists (s : Switchboard) : Prop :=
  ∀ n x, s.exchange? n = some x → x.isOpen = true →
    ∃ key l, s.exchanges.lookup? key = some l ∧ l.handler = n

/-- Besides, whoever waits is parked, and nobody is parked at an exchange that is closed. -/
structure Tended (s : Switchboard) : Prop where
  lists : s.Lists
  exchange : ∀ n x, s.exchange? n = some x → x.Tended

/-- Nobody is parked. -/
def Vacant (s : Switchboard) : Prop := ∀ n x, s.exchange? n = some x → x.parked = []

theorem tended_empty : Tended .empty :=
  ⟨fun n x hx => by simp [exchange?, empty] at hx, fun n x hx => by simp [exchange?, empty] at hx⟩

theorem Tended.turn (h : s.Tended) (hturn : s.Turn s') : s'.Tended := by
  cases hturn with
  | same hr hs =>
    refine ⟨fun n x hx hopen => ?_, fun n x hx => ?_⟩
    · rw [hr]
      exact h.lists n x (by rwa [exchange?, ← hs]) hopen
    · exact h.exchange n x (by rwa [exchange?, ← hs])
  | comes key pipeline attributes k hr hs =>
    obtain ⟨hfree, -⟩ := Registry.register_eq_ok.1 hr
    refine ⟨fun n x hx hopen => ?_, fun n x hx => ?_⟩
    · rcases exchange?_snoc hs hx with hx | ⟨rfl, rfl⟩
      · obtain ⟨key', l, hl, hn⟩ := h.lists n x hx hopen
        refine ⟨key', l, ?_, hn⟩
        rw [Registry.lookup?_register hr, if_neg ?_, hl]
        rintro rfl
        cases hfree.symm.trans hl
      · exact ⟨key, _, by rw [Registry.lookup?_register hr, if_pos rfl], rfl⟩
    · rcases exchange?_snoc hs hx with hx | ⟨-, rfl⟩
      · exact h.exchange n x hx
      · exact Exchange.tended_new attributes k
  | inVain attributes k hr hs =>
    refine ⟨fun n x hx hopen => ?_, fun n x hx => ?_⟩
    · rcases exchange?_snoc hs hx with hx | ⟨-, rfl⟩
      · rw [hr]
        exact h.lists n x hx hopen
      · cases (Exchange.isClosed_disconnect _).symm.trans hopen
    · rcases exchange?_snoc hs hx with hx | ⟨-, rfl⟩
      · exact h.exchange n x hx
      · exact (Exchange.tended_new attributes k).disconnect
  | goes key pipeline l hu hs =>
    refine ⟨fun n x' hx' hopen => ?_, fun n x' hx' => ?_⟩
    · obtain ⟨x, hx, rfl⟩ := exchange?_modify hs hx'
      split at hopen
      · cases (Exchange.isClosed_disconnect _).symm.trans hopen
      · rename_i hne
        obtain ⟨key', l', hl', hn⟩ := h.lists n x hx hopen
        refine ⟨key', l', ?_, hn⟩
        rw [Registry.lookup?_unregister? hu, if_neg ?_, hl']
        rintro rfl
        obtain ⟨hl, -, -⟩ := Registry.unregister?_eq_some.1 hu
        cases hl.symm.trans hl'
        exact hne hn
    · obtain ⟨x, hx, rfl⟩ := exchange?_modify hs hx'
      split
      · exact (h.exchange n x hx).disconnect
      · exact h.exchange n x hx

theorem Tended.turns (h : s.Tended) (hturns : s.Turns s') : s'.Tended := by
  induction hturns with
  | refl => exact h
  | tail _ hturn ih => exact ih.turn hturn

theorem Tended.stays (h : s.Tended) (hstays : s.Stays s') : s'.Tended := by
  refine ⟨fun n x' hx' hopen => ?_, fun n x' hx' => ?_⟩
  · obtain ⟨x, hx, hxx'⟩ := hstays.new n x' hx'
    rw [hstays.exchanges]
    exact h.lists n x hx (hxx'.isOpen_eq.symm.trans hopen)
  · obtain ⟨x, hx, hxx'⟩ := hstays.new n x' hx'
    exact hxx'.tended (h.exchange n x hx)

theorem Tended.receive (h : s.Tended) (n : Nat) {id : String}
    (hnew : ∀ x, s.exchange? n = some x → x.call? id = none) :
    (s.alterExchange n (·.receive id)).Tended := by
  refine ⟨fun m x' hx' hopen => ?_, fun m x' hx' => ?_⟩
  · obtain ⟨x, hx, rfl⟩ := exchange?_modify rfl hx'
    refine h.lists m x hx ?_
    split at hopen
    · have hfront : (x.receive id).front = x.front := Exchange.front_checkOpen (x.park id) id
      exact (congrArg (fun front => front.2.2) hfront).symm.trans hopen
    · exact hopen
  · obtain ⟨x, hx, rfl⟩ := exchange?_modify rfl hx'
    split
    · rename_i hn
      exact (h.exchange m x hx).receive (hnew x (hn ▸ hx))
    · exact h.exchange m x hx

/-- **Nobody is parked where nothing is listed.** -/
theorem Tended.vacant (h : s.Tended) (hnone : s.exchanges.listeners = []) :
    s.Vacant ∧ ∀ n x, s.exchange? n = some x → x.isOpen = false := by
  have hclosed : ∀ n x, s.exchange? n = some x → x.isOpen = false := by
    intro n x hx
    by_contra hopen
    obtain ⟨key, l, hl, -⟩ := h.lists n x hx ((Bool.not_eq_false _).mp hopen)
    have hmem := List.mem_of_find?_eq_some hl
    rw [hnone] at hmem
    cases hmem
  exact ⟨fun n x hx => (h.exchange n x hx).closed (hclosed n x hx), hclosed⟩

theorem Vacant.turn (h : s.Vacant) (hturn : s.Turn s') : s'.Vacant := by
  intro n x' hx'
  cases hturn with
  | same hr hs => exact h n x' (by rwa [exchange?, ← hs])
  | comes key pipeline attributes k hr hs =>
    rcases exchange?_snoc hs hx' with hx | ⟨-, rfl⟩
    · exact h n x' hx
    · rfl
  | inVain attributes k hr hs =>
    rcases exchange?_snoc hs hx' with hx | ⟨-, rfl⟩
    · exact h n x' hx
    · exact Exchange.parked_disconnect _
  | goes key pipeline l hu hs =>
    obtain ⟨x, hx, rfl⟩ := exchange?_modify hs hx'
    split
    · exact x.parked_disconnect
    · exact h n x hx

theorem Vacant.turns (h : s.Vacant) (hturns : s.Turns s') : s'.Vacant := by
  induction hturns with
  | refl => exact h
  | tail _ hturn ih => exact ih.turn hturn

theorem Vacant.stays (h : s.Vacant) (hstays : s.Stays s') : s'.Vacant := by
  intro n x' hx'
  obtain ⟨x, hx, hxx'⟩ := hstays.new n x' hx'
  exact List.subset_nil.1 (h n x hx ▸ hxx'.parked)

/-! ## Whoever is parked -/

/-- Whoever is parked at some exchange has no reply yet. -/
def Expects (s : Switchboard) : Prop := ∀ n x, s.exchange? n = some x → x.Expects

theorem expects_empty : Expects .empty := fun n x hx => by simp [exchange?, empty] at hx

theorem Expects.turn (h : s.Expects) (hturn : s.Turn s') : s'.Expects := by
  intro n x' hx'
  cases hturn with
  | same hr hs => exact h n x' (by rwa [exchange?, ← hs])
  | comes key pipeline attributes k hr hs =>
    rcases exchange?_snoc hs hx' with hx | ⟨-, rfl⟩
    · exact h n x' hx
    · exact Exchange.expects_new attributes k
  | inVain attributes k hr hs =>
    rcases exchange?_snoc hs hx' with hx | ⟨-, rfl⟩
    · exact h n x' hx
    · exact (Exchange.expects_new attributes k).disconnect
  | goes key pipeline l hu hs =>
    obtain ⟨x, hx, rfl⟩ := exchange?_modify hs hx'
    split
    · exact (h n x hx).disconnect
    · exact h n x hx

theorem Expects.turns (h : s.Expects) (hturns : s.Turns s') : s'.Expects := by
  induction hturns with
  | refl => exact h
  | tail _ hturn ih => exact ih.turn hturn

theorem Expects.stays (h : s.Expects) (hstays : s.Stays s') : s'.Expects := by
  intro n x' hx'
  obtain ⟨x, hx, hxx'⟩ := hstays.new n x' hx'
  exact hxx'.expects (h n x hx)

/-- One exchange changed. -/
theorem Expects.alterExchange (h : s.Expects) (n : Nat) {f : Exchange → Exchange}
    (hf : ∀ x, s.exchange? n = some x → x.Expects → (f x).Expects) :
    (s.alterExchange n f).Expects := by
  intro m x' hx'
  obtain ⟨x, hx, rfl⟩ := exchange?_modify rfl hx'
  split
  · rename_i hn
    exact hf x (hn ▸ hx) (h m x hx)
  · exact h m x hx

end Switchboard

end Correlator
