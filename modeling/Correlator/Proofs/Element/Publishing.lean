import Correlator.Bridge.Step
import Correlator.Proofs.Pipeline.Built
import Correlator.Proofs.Template

/-!
# What a sink has read once

A sink reads its URL and its headers when it is set up, unless there are names in them. What it
sends is what it would send if its options were filled in and read for each event.

* `readFor_of_readStatic`: what was read at first is what would be read for any event.
* `RequestSinkConfig.request`, `ResponseSinkConfig.reply?`: the request and the reply that a
  configuration makes of an event when its options are filled in and read for that event.
* `RequestSink.request_eq_config`, `ResponseSink.reply?_eq_config`: those of a sink.
* `Element.Publishes`: what becomes of an event that is given to a sink, by its configuration.
* **`Element.publishes_afresh`**: this is what becomes of it, on any bridge.
-/

namespace Correlator

section Reading

variable {α : Type} {read : String → Except Fault α} {static? : Option α} {template : String}

/-- What was read of a text at first, if anything, is what would be read of it for an event. -/
theorem readFor_of_readStatic (h : readStatic read template = .ok static?) (e : Event) :
    readFor read static? template e = read (Template.render template e) := by
  unfold readStatic at h
  split at h
  · cases h
    rfl
  · rename_i hstatic
    obtain ⟨a, hread, rfl⟩ := exists_of_map_eq_ok h
    rw [Template.render_of_static (Bool.eq_false_iff.2 hstatic), hread]
    rfl

theorem eq_ok_of_mapError {x : Except Fault α} {f : Fault → Fault} {a : α}
    (h : x.mapError f = .ok a) : x = .ok a := by
  cases x with
  | error fault => cases h
  | ok a' =>
    cases h
    rfl

end Reading

/-! ## Request sinks -/

/-- The request that a configuration makes of an event: its options are filled in from the event,
and what comes out is read. -/
def RequestSinkConfig.request (c : RequestSinkConfig) (e : Event) : Except Fault Request := do
  let method ← (c.method?.map readMethod).getD (.ok RequestSink.defaultMethod)
  let url ← readUrl (Template.render c.url e)
  let headers ← Listing.read (Template.render c.headers e)
  let body := Octets.ofString e.payload
  let fields ← Block.make headers c.mapping? body.length
  return ⟨method, url, fields, body⟩

namespace RequestSink

variable {c : RequestSinkConfig} {consumer? : Option Consumer} {s : RequestSink}

/-- What a sink has read of its configuration. -/
theorem reads_of_ofConfig (h : ofConfig c consumer? = .ok s) :
    s.config = c ∧ (c.method?.map readMethod).getD (.ok defaultMethod) = .ok s.method ∧
      readStatic readUrl s.config.url = .ok s.url? ∧
      readStatic Listing.read s.config.headers = .ok s.headers? := by
  unfold ofConfig at h
  obtain ⟨-, h⟩ := of_guard_eq_ok h
  obtain ⟨-, h⟩ := of_guard_eq_ok h
  obtain ⟨method, hmethod, h⟩ := exists_of_bind_eq_ok h
  obtain ⟨url?, hurl, h⟩ := exists_of_bind_eq_ok h
  obtain ⟨headers?, hheaders, h⟩ := exists_of_bind_eq_ok h
  cases h
  exact ⟨rfl, hmethod, eq_ok_of_mapError hurl, hheaders⟩

/-- **The request for an event is the one that its configuration makes of it**, and so is the fault
of an event for which there is none. -/
theorem request_eq_config (h : ofConfig c consumer? = .ok s) (e : Event) :
    s.request e = c.request e := by
  obtain ⟨rfl, hmethod, hurl, hheaders⟩ := reads_of_ofConfig h
  unfold request RequestSinkConfig.request
  rw [readFor_of_readStatic hurl, readFor_of_readStatic hheaders, hmethod, ok_bind]

end RequestSink

/-! ## Response sinks -/

/-- The reply that a configuration makes of an event, and the id that it is for: its options are
filled in from the event, and what comes out is read. There is none for an event without an id. -/
def ResponseSinkConfig.reply? (c : ResponseSinkConfig) (e : Event) :
    Except Fault (Option (String × Reply)) := do
  let id := Template.render c.messageId e
  if id.isEmpty then return none
  let headers ← Listing.read (Template.render c.headers e)
  let body := Octets.ofString e.payload
  let fields ← Block.make headers c.mapping? body.length
  return some (id, ⟨c.status, fields, body⟩)

namespace ResponseSink

variable {c : ResponseSinkConfig} {s : ResponseSink}

/-- What a sink has read of its configuration. -/
theorem reads_of_ofConfig (h : ofConfig c = .ok s) :
    s.config = c ∧ readStatic Listing.read s.config.headers = .ok s.headers? := by
  unfold ofConfig at h
  obtain ⟨-, h⟩ := of_guard_eq_ok h
  obtain ⟨-, h⟩ := of_guard_eq_ok h
  obtain ⟨headers?, hheaders, h⟩ := exists_of_bind_eq_ok h
  cases h
  exact ⟨rfl, hheaders⟩

/-- **The reply for an event is the one that its configuration makes of it**, and so is the fault of
an event for which there is none. -/
theorem reply?_eq_config (h : ofConfig c = .ok s) (e : Event) : s.reply? e = c.reply? e := by
  obtain ⟨rfl, hheaders⟩ := reads_of_ofConfig h
  unfold reply? ResponseSinkConfig.reply?
  rw [readFor_of_readStatic hheaders]

end ResponseSink

/-! ## Elements -/

namespace Element

/-- What becomes of an event that is given to an element, by its configuration alone: a sink that is
active refuses it with the fault of the request or the reply that is made of it; otherwise it is
that request that is given to the transport, or that reply that is given for its id. A sink that is
not active refuses all events, and so does a source. -/
inductive Publishes (b : Bridge) (e : Event) (el : Element) :
    ElementConfig → Bridge × Except Fault Published → Prop
  | idleRequestSink {c : RequestSinkConfig} {s : RequestSink} :
      el.part = .requestSink s → el.active = false →
      Publishes b e el (.requestSink c) (b, .error s.notReady)
  | refusedRequest {c : RequestSinkConfig} {fault : Fault} :
      el.active = true → c.request e = .error fault →
      Publishes b e el (.requestSink c) (b, .error fault)
  | sent {c : RequestSinkConfig} {s : RequestSink} {request : Request} :
      el.part = .requestSink s → s.config = c → el.active = true → c.request e = .ok request →
      Publishes b e el (.requestSink c) (b.post s e request)
  | idleResponseSink {c : ResponseSinkConfig} {s : ResponseSink} :
      el.part = .responseSink s → el.active = false →
      Publishes b e el (.responseSink c) (b, .error s.notReady)
  | refusedReply {c : ResponseSinkConfig} {fault : Fault} :
      el.active = true → c.reply? e = .error fault →
      Publishes b e el (.responseSink c) (b, .error fault)
  | given {c : ResponseSinkConfig} {answer? : Option (String × Reply)} :
      el.active = true → c.reply? e = .ok answer? →
      Publishes b e el (.responseSink c) (b.give c.sourceId answer?)
  | ofRequestSource {c : RequestSourceConfig} :
      Publishes b e el (.requestSource c) (b, .error el.takesNoEvents)
  | ofResponseSource {c : ResponseSourceConfig} :
      Publishes b e el (.responseSource c) (b, .error el.takesNoEvents)

variable {c : ElementConfig} {consumer : Consumer} {direct : Bool} {el : Element}

theorem publishes_handle (h : ofConfig c consumer direct = .ok el) (active : Bool) (b : Bridge)
    (e : Event) :
    Publishes b e { el with active } c (b.handle { el with active } e) := by
  cases c with
  | requestSink c =>
    obtain ⟨s, hs, rfl⟩ := exists_of_map_eq_ok h
    have hrequest := RequestSink.request_eq_config hs e
    cases active with
    | false => exact .idleRequestSink rfl rfl
    | true =>
      simp only [Bridge.handle, Bridge.send, if_true, hrequest]
      cases hmade : c.request e with
      | error fault => exact .refusedRequest rfl hmade
      | ok request => exact .sent rfl (RequestSink.reads_of_ofConfig hs).1 rfl hmade
  | responseSink c =>
    obtain ⟨s, hs, rfl⟩ := exists_of_map_eq_ok h
    have hreply := ResponseSink.reply?_eq_config hs e
    cases active with
    | false => exact .idleResponseSink rfl rfl
    | true =>
      simp only [Bridge.handle, Bridge.respond, if_true, hreply]
      rw [(ResponseSink.reads_of_ofConfig hs).1]
      cases hmade : c.reply? e with
      | error fault => exact .refusedReply rfl hmade
      | ok answer? => exact .given rfl hmade
  | requestSource c =>
    obtain ⟨_, -, rfl⟩ := exists_of_map_eq_ok h
    exact .ofRequestSource
  | responseSource c =>
    obtain ⟨_, -, rfl⟩ := exists_of_map_eq_ok h
    exact .ofResponseSource

/-- **What a sink has read once it would read each time.** A text is read at first just when there
are no opening braces before closing ones in it, and then it stands for itself, whatever the event.
So a sink does with each event, and answers for it, what it would do if it filled in and read the
options of its configuration for that event. -/
theorem publishes_afresh (h : ofConfig c consumer direct = .ok el) :
    (∀ t, Template.isDynamic t = false ↔ ¬ Template.HasName t.toList) ∧
      (∀ t, Template.isDynamic t = false → ∀ e, Template.render t e = t) ∧
      ∀ active b e, Publishes b e { el with active } c (b.handle { el with active } e) :=
  ⟨Template.isDynamic_eq_false_iff, fun _ => Template.render_of_static, publishes_handle h⟩

/-- A press, whose URL is the same for all events. Its headers are not. -/
def press : RequestSinkConfig :=
  ⟨"press", " http://press/x ", none, "'x-trace:\x7b\x7btrace\x7d\x7d'", none, [], false, none⟩

/-- An event with a trace. -/
def traced (trace : String) : Event := ⟨"x", Metadata.ofPairs [("trace", .str trace)]⟩

/-- The press has read its URL and not its headers. What it sends has the trace of the event. -/
theorem publishes_afresh_press :
    ∃ s request, ofConfig (.requestSink press) (.steady "press") false =
        .ok ⟨.requestSink s, false⟩ ∧
      s.url?.map Url.text = some "http://press/x" ∧ s.headers? = none ∧
      request.url.text = "http://press/x" ∧
      Block.values request.headers "x-trace" = [Octets.ofString "t-1"] ∧
      ∀ b : Bridge, b.handle ⟨.requestSink s, true⟩ (traced "t-1") =
        b.post s (traced "t-1") request := by
  have hread : (RequestSink.ofConfig press none).map
      (fun s => (s.url?.map Url.text, s.headers?)) = .ok (some "http://press/x", none) := by
    decide +kernel
  have hmade : (press.request (traced "t-1")).map
      (fun r => (r.url.text, Block.values r.headers "x-trace")) =
        .ok ("http://press/x", [Octets.ofString "t-1"]) := by
    decide +kernel
  obtain ⟨s, hs, hread⟩ := exists_of_map_eq_ok hread
  obtain ⟨hurl, hheaders⟩ := Prod.mk.inj hread
  obtain ⟨request, hrequest, hmade⟩ := exists_of_map_eq_ok hmade
  obtain ⟨htext, hvalues⟩ := Prod.mk.inj hmade
  have hconfig : ofConfig (.requestSink press) (.steady "press") false =
      .ok ⟨.requestSink s, false⟩ := congrArg (Except.map _) hs
  refine ⟨s, request, hconfig, hurl, hheaders, htext, hvalues, fun b => ?_⟩
  have hpublishes := (publishes_afresh hconfig).2.2 true b (traced "t-1")
  generalize b.handle _ _ = result at hpublishes ⊢
  cases hpublishes with
  | idleRequestSink _ hactive => cases hactive
  | refusedRequest _ hrefused => cases hrequest.symm.trans hrefused
  | sent hpart _ _ hsent =>
    cases hpart
    cases hrequest.symm.trans hsent
    rfl

end Element

end Correlator
