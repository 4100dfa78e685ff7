import Correlator.Proofs.Bridge.Jobs
import Correlator.Proofs.Pipeline.Plant

/-!
# Who is given a response

Pipelines with response sources are started and stopped in any order, and then a response comes
for the owner of some of them.

* `Key.statusText_injective`: no two statuses have one text; so
  `Switchboard.responseKey_eq_refined`: a source is known by its owner and its status, whatever
  the text of an owner is.
* `Switchboard.Holds.wired`: every source has a forwarder of its own.
* `Bridge.deliverTo`: an event given to one consumer; `Bridge.concludeDelivery_of_callee`: this is
  how a delivery is concluded that calls somebody.
* `Bridge.concludeDelivery_of_listener`, `Bridge.concludeDelivery_of_nobody`: what the listener of a
  response decides.
* `Bridge.Addressed`: who among some sources is given a response.
* **`Plant.addressed_of_run`**: it is given to the source of its status, or else to the one
  without a status, or else to nobody.
-/

namespace Correlator

/-! ## Keys -/

namespace Key

/-- No two statuses have one text. -/
theorem statusText_injective : Function.Injective statusText := by
  intro status status' h
  have hdigits : Nat.toDigits 10 status = Nat.toDigits 10 status' := String.ofList_injective h
  have hread := congrArg (fun digits => Nat.ofDigitChars 10 digits 0) hdigits
  simpa using hread

end Key

/-! ## Listeners -/

namespace Registry

variable {α : Type} {r : Registry α} {o refinement : String}

theorem resolve?_of_refined {l : Listener α} (h : r.lookup? (.refined o refinement) = some l) :
    r.resolve? o (some refinement) = some l := by
  simp only [resolve?, h]

theorem resolve?_of_refined_none (h : r.lookup? (.refined o refinement) = none) :
    r.resolve? o (some refinement) = r.lookup? (.plain o) := by
  simp only [resolve?, h]

theorem key_of_resolve? {l : Listener α} (h : r.resolve? o (some refinement) = some l) :
    l.key = .refined o refinement ∨ l.key = .plain o := by
  cases hl : r.lookup? (.refined o refinement) with
  | some l' =>
    cases (resolve?_of_refined hl).symm.trans h
    exact .inl (key_of_lookup? hl)
  | none =>
    rw [resolve?_of_refined_none hl] at h
    exact .inr (key_of_lookup? h)

end Registry

namespace Switchboard

variable {s : Switchboard} {c : ResponseSourceConfig} {o : String} {status : Nat} {key : Key}

theorem responseKey_eq_refined :
    responseKey c = .refined o (Key.statusText status) ↔
      c.sinkId = o ∧ c.status? = some status := by
  unfold responseKey
  cases c.status? with
  | none => simp [Key.plain, Key.refined]
  | some status' => simp [Key.forStatus, Key.refined, Key.statusText_injective.eq_iff]

theorem responseKey_eq_plain :
    responseKey c = .plain o ↔ c.sinkId = o ∧ c.status? = none := by
  unfold responseKey
  cases c.status? with
  | none => simp [Key.plain]
  | some status' => simp [Key.plain, Key.forStatus, Key.refined]

/-! ## The table of response sources -/

/-- Each source has a forwarder of its own, which is open. -/
theorem Holds.wired {parts : List (String × Part)} (h : s.Holds parts) : s.Wired := by
  obtain ⟨requests, responses, hl, -, -⟩ := h
  constructor
  · refine (hl.responses_perm.map _).nodup_iff.2 ?_
    rw [List.map_map]
    exact hl.forwarder_numbers_nodup
  · intro l hmem
    obtain ⟨p, hp, rfl⟩ := List.mem_map.1 (hl.responses_perm.mem_iff.1 hmem)
    exact ⟨p.consumer, hl.forwarder_open p hp⟩

namespace Matches

variable {requests : List (String × RequestSourceConfig × Consumer)}
  {sources : List (String × ResponseSourceConfig × Consumer)} {pipeline : String} {k : Consumer}

/-- A key that no source has is free. -/
theorem lookup?_eq_none (h : s.Matches requests sources)
    (hkey : ∀ pipeline c k, (pipeline, c, k) ∈ sources → responseKey c ≠ key) :
    s.responses.lookup? key = none := by
  refine Registry.lookup?_eq_none.2 fun l hl he => ?_
  have hmem := h.responses_perm.mem_iff.1 (List.mem_map_of_mem hl)
  obtain ⟨⟨pipeline, c, k⟩, hc, hpair⟩ := List.mem_map.1 hmem
  exact hkey pipeline c k hc ((Prod.mk.inj hpair).1.trans he)

/-- The source of a status is found first. -/
theorem resolve?_refined (h : s.Matches requests sources) (hc : (pipeline, c, k) ∈ sources)
    (ho : c.sinkId = o) (hstatus : c.status? = some status) :
    ∃ l, s.responses.resolve? o (some (Key.statusText status)) = some l ∧
      s.forwarder? l.handler = some ⟨k, true⟩ := by
  obtain ⟨m, hl, hk⟩ := h.forwarder_open pipeline c k hc
  rw [responseKey_eq_refined.2 ⟨ho, hstatus⟩] at hl
  exact ⟨_, Registry.resolve?_of_refined hl, hk⟩

theorem lookup?_refined_eq_none (h : s.Matches requests sources)
    (hother : ∀ pipeline c k, (pipeline, c, k) ∈ sources → c.sinkId = o →
      c.status? ≠ some status) :
    s.responses.lookup? (.refined o (Key.statusText status)) = none := by
  refine h.lookup?_eq_none fun pipeline c k hc hkey => ?_
  obtain ⟨ho, hstatus⟩ := responseKey_eq_refined.1 hkey
  exact hother pipeline c k hc ho hstatus

/-- Without one, the source without a status is found. -/
theorem resolve?_plain (h : s.Matches requests sources)
    (hother : ∀ pipeline c k, (pipeline, c, k) ∈ sources → c.sinkId = o →
      c.status? ≠ some status)
    (hc : (pipeline, c, k) ∈ sources) (ho : c.sinkId = o) (hstatus : c.status? = none) :
    ∃ l, s.responses.resolve? o (some (Key.statusText status)) = some l ∧
      s.forwarder? l.handler = some ⟨k, true⟩ := by
  obtain ⟨m, hl, hk⟩ := h.forwarder_open pipeline c k hc
  rw [responseKey_eq_plain.2 ⟨ho, hstatus⟩] at hl
  have hrefined := h.lookup?_refined_eq_none hother
  exact ⟨_, (Registry.resolve?_of_refined_none hrefined).trans hl, hk⟩

/-- Without either, nobody is found. -/
theorem resolve?_eq_none (h : s.Matches requests sources)
    (hnobody : ∀ pipeline c k, (pipeline, c, k) ∈ sources → c.sinkId = o →
      c.status? ≠ some status ∧ c.status? ≠ none) :
    s.responses.resolve? o (some (Key.statusText status)) = none := by
  have hrefined := h.lookup?_refined_eq_none fun pipeline c k hc ho =>
    (hnobody pipeline c k hc ho).1
  rw [Registry.resolve?_of_refined_none hrefined]
  refine h.lookup?_eq_none fun pipeline c k hc hkey => ?_
  obtain ⟨ho, hstatus⟩ := responseKey_eq_plain.1 hkey
  exact (hnobody pipeline c k hc ho).2 hstatus

end Matches

/-- A source is found for no status but its own. -/
theorem Wired.handler_ne_of_resolve? {status' : Nat} {l l' : Listener Nat} (h : s.Wired)
    (hstatus : c.status? = some status') (hne : status' ≠ status)
    (hl : s.responses.lookup? (responseKey c) = some l)
    (hl' : s.responses.resolve? o (some (Key.statusText status)) = some l') :
    l'.handler ≠ l.handler := by
  intro he
  have hsame : l' = l := List.inj_on_of_nodup_map h.handlers_nodup
    (Registry.mem_of_resolve? hl') (List.mem_of_find?_eq_some hl) he
  subst hsame
  have hkey := Registry.key_of_lookup? hl
  have hown : c.status? = some status ∨ c.status? = none :=
    (Registry.key_of_resolve? hl').imp
      (fun hrefined => (responseKey_eq_refined.1 (hkey.symm.trans hrefined)).2)
      fun hplain => (responseKey_eq_plain.1 (hkey.symm.trans hplain)).2
  rw [hstatus] at hown
  obtain hown | hown := hown
  · exact hne (Option.some.inj hown)
  · cases hown

end Switchboard

/-! ## Conclusions -/

theorem Delivery.conclude_of_nonempty {d : Delivery Consumer} {taken : Taken}
    (h : (d.payloadOf taken).isEmpty = false) (e : Endpoint) :
    d.conclude e (.ok taken) = .hand (statusOf e) (d.eventOf e taken) := by
  rw [conclude_ok, h]
  rfl

/-- Whoever is registered takes the events of responses for an owner. -/
theorem Delivery.route_registered {d : Delivery Consumer} {o : String}
    (h : d.target = .registered o) (registry : Registry Nat) (status : Nat) :
    d.route registry status =
      (registry.resolve? o (some (Key.statusText status))).map fun l => .inr l.handler := by
  simp only [route, h]

namespace Bridge

variable {b : Bridge} {n : Nat} {s : Send} {e : Endpoint} {taken : Taken} {o : String}

/-- An event given to a consumer, and its send resolved. -/
def deliverTo (b : Bridge) (n : Nat) (k : Consumer) (status : Nat) (event : Event) : Bridge :=
  match b.hand k event with
  | (b, true) => (b.count (.responsesDelivered status)).resolve n (.delivered status .consumed)
  | (b, false) => b.resolve n (.failed .aborted)

/-- Whoever is called is given the event. -/
theorem concludeDelivery_of_callee {result : Except Fault Taken} {status : Nat} {event : Event}
    {taker : Consumer ⊕ Nat} {k : Consumer}
    (hconclude : s.delivery.conclude e result = .hand status event)
    (hroute : s.delivery.route b.switchboard.responses status = some taker)
    (hcallee : b.switchboard.callee? taker = some k) :
    b.concludeDelivery n s e result = b.deliverTo n k status event := by
  simp only [concludeDelivery, hconclude, hroute, Option.map_some, deliverTo]
  cases taker with
  | inl k' =>
    cases hcallee
    dsimp only
    rcases b.hand k event with ⟨b', handed⟩
    cases handed <;> rfl
  | inr m =>
    have hforward : b.forward m event = b.hand k event := by
      rw [forward_eq, hcallee]
    simp only [hforward]
    rcases b.hand k event with ⟨b', handed⟩
    cases handed <;> rfl

/-- The consumer of the listener is given the event. -/
theorem concludeDelivery_of_listener {l : Listener Nat} {k : Consumer}
    (hs : s.delivery.target = .registered o) (hne : (s.delivery.payloadOf taken).isEmpty = false)
    (hl : b.switchboard.responses.resolve? o (some (Key.statusText (Delivery.statusOf e))) =
      some l)
    (hk : b.switchboard.forwarder? l.handler = some ⟨k, true⟩) :
    b.concludeDelivery n s e (.ok taken) =
      b.deliverTo n k (Delivery.statusOf e) (s.delivery.eventOf e taken) := by
  have hroute : s.delivery.route b.switchboard.responses (Delivery.statusOf e) =
      some (.inr l.handler) := by
    rw [Delivery.route_registered hs, hl]
    rfl
  have hcallee : b.switchboard.callee? (.inr l.handler) = some k := by
    simp only [Switchboard.callee?, hk]
    rfl
  exact concludeDelivery_of_callee (Delivery.conclude_of_nonempty hne e) hroute hcallee

/-- Without a listener the miss is counted, and nothing else happens. -/
theorem concludeDelivery_of_nobody (hs : s.delivery.target = .registered o)
    (hne : (s.delivery.payloadOf taken).isEmpty = false)
    (hl : b.switchboard.responses.resolve? o (some (Key.statusText (Delivery.statusOf e))) =
      none) :
    b.concludeDelivery n s e (.ok taken) =
      (b.count (.lookupMisses o)).resolve n (.delivered (Delivery.statusOf e) .noListener) := by
  simp only [concludeDelivery, Delivery.conclude_of_nonempty hne, Delivery.route_registered hs, hl,
    Option.map_none, Delivery.settled, hs]
  rfl

/-- Who among some sources is given a response that comes for an owner. -/
structure Addressed (b : Bridge) (sources : List (String × ResponseSourceConfig × Consumer))
    (o : String) (n : Nat) (s : Send) (e : Endpoint) (taken : Taken) : Prop where
  /-- The source of its status is given it. -/
  refined : ∀ pipeline c k, (pipeline, c, k) ∈ sources → c.sinkId = o →
    c.status? = some (Delivery.statusOf e) →
      b.concludeDelivery n s e (.ok taken) =
        b.deliverTo n k (Delivery.statusOf e) (s.delivery.eventOf e taken)
  /-- If there is none, the source without a status is given it. -/
  plain : (∀ pipeline c k, (pipeline, c, k) ∈ sources → c.sinkId = o →
      c.status? ≠ some (Delivery.statusOf e)) →
    ∀ pipeline c k, (pipeline, c, k) ∈ sources → c.sinkId = o → c.status? = none →
      b.concludeDelivery n s e (.ok taken) =
        b.deliverTo n k (Delivery.statusOf e) (s.delivery.eventOf e taken)
  /-- If there is none either, nobody is given it. The miss is counted, and no other counter
  moves. -/
  missed : (∀ pipeline c k, (pipeline, c, k) ∈ sources → c.sinkId = o →
      c.status? ≠ some (Delivery.statusOf e) ∧ c.status? ≠ none) →
    b.concludeDelivery n s e (.ok taken) =
        (b.count (.lookupMisses o)).resolve n (.delivered (Delivery.statusOf e) .noListener) ∧
      (b.concludeDelivery n s e (.ok taken)).events = b.events ∧
      ∀ series, (b.concludeDelivery n s e (.ok taken)).meter.value series =
        b.meter.value series + if series = .lookupMisses o then 1 else 0
  /-- The forwarder of a source of another status is not asked. -/
  other : ∀ pipeline c k, (pipeline, c, k) ∈ sources → ∀ status, c.status? = some status →
    status ≠ Delivery.statusOf e → ∀ l,
      b.switchboard.responses.lookup? (Switchboard.responseKey c) = some l →
        s.delivery.route b.switchboard.responses (Delivery.statusOf e) ≠ some (.inr l.handler)

end Bridge

namespace Plant

variable {ps : List Pipeline} {b : Bridge} {s : Send} {taken : Taken} {o : String}

/-- **A response is given to the source of its status**, or else to the one without a status, or
else to nobody. Pipelines that are not running share an empty switchboard, and are started and
stopped in any order; then a response comes that is not empty. -/
theorem addressed_of_run (hps : ∀ p ∈ ps, p.running = false) (orders : List Order)
    (hr : b.switchboard.responses = ((Plant.mk ps .empty).run orders).switchboard.responses)
    (hf : b.switchboard.forwarderList =
      ((Plant.mk ps .empty).run orders).switchboard.forwarderList)
    (hs : s.delivery.target = .registered o) (hne : (s.delivery.payloadOf taken).isEmpty = false)
    (n : Nat) (e : Endpoint) :
    b.Addressed ((Plant.mk ps .empty).run orders).responseSources o n s e taken := by
  have hholds := holds_run (w := ⟨ps, .empty⟩) (holds_fresh hps) orders
  have hmatches := hholds.matches_parts
  have hwired := hholds.wired
  generalize (Plant.mk ps .empty).run orders = w at hr hf hmatches hwired
  have hforwarder : ∀ m, b.switchboard.forwarder? m = w.switchboard.forwarder? m := fun m => by
    rw [Switchboard.forwarder?, hf, Switchboard.forwarder?]
  constructor
  · intro pipeline c k hc ho hstatus
    obtain ⟨l, hl, hk⟩ := hmatches.resolve?_refined hc ho hstatus
    rw [← hr] at hl
    exact Bridge.concludeDelivery_of_listener hs hne hl ((hforwarder _).trans hk)
  · intro hother pipeline c k hc ho hstatus
    obtain ⟨l, hl, hk⟩ := hmatches.resolve?_plain hother hc ho hstatus
    rw [← hr] at hl
    exact Bridge.concludeDelivery_of_listener hs hne hl ((hforwarder _).trans hk)
  · intro hnobody
    have hl := hmatches.resolve?_eq_none hnobody
    rw [← hr] at hl
    rw [Bridge.concludeDelivery_of_nobody hs hne hl]
    exact ⟨rfl, rfl, fun series => Meter.value_count b.meter _ series⟩
  · intro pipeline c k hc status hstatus hother l hl hroute
    rw [Delivery.route_registered hs, hr] at hroute
    rw [hr] at hl
    obtain ⟨l', hl', he⟩ := Option.map_eq_some_iff.1 hroute
    exact hwired.handler_ne_of_resolve? hstatus hother hl hl' (Sum.inr.inj he)

/-- A payment that was sent. -/
def payment : Send :=
  ⟨⟨"POST", ⟨['h', 't', 't', 'p'], [], [], none, none, .steps [], none, none⟩, [], []⟩,
    ⟨"http://shop", .registered "payments", .empty, none, 64⟩, .standard, none, .new⟩

/-- What is known of the response to it, which has a status. -/
def paid (status : Nat) : Endpoint := ⟨"POST", "shop", 80, "http", "/", some status⟩

/-- A shop with one source of responses, for payments that went well. -/
def shop : Bridge :=
  { limit := 64
    timeout := 1
    now := 0
    switchboard := ((Plant.mk twins .empty).run [.start 0]).switchboard
    pool := .idle 1
    gates := .empty
    inbound := []
    sends := [payment]
    answers := []
    files := .empty
    meter := .zero
    events := []
    requests := [] }

/-- The till is told of a payment that went well; nobody is told of one that did not. -/
theorem addressed_of_run_shop :
    (∀ status, shop.Addressed [("shop", ⟨"payments", some 200, false⟩, .steady "till")] "payments"
      0 payment (paid status) (.text "ok")) ∧
    (shop.concludeDelivery 0 payment (paid 200) (.ok (.text "ok"))).events.map (·.1) = ["till"] ∧
    (shop.concludeDelivery 0 payment (paid 404) (.ok (.text "ok"))).events.map (·.1) = [] ∧
    (shop.concludeDelivery 0 payment (paid 404) (.ok (.text "ok"))).meter.value
      (.lookupMisses "payments") = 1 := by
  have hps : ∀ p ∈ twins, p.running = false := by simp [twins]
  refine ⟨fun status => ?_, ?_, ?_, ?_⟩
  · exact addressed_of_run hps [.start 0] rfl rfl rfl (by decide) 0 (paid status)
  · decide +kernel
  · decide +kernel
  · decide +kernel

end Plant

end Correlator
